import Invoicing.Proofs.Index.Batch
import Invoicing.Proofs.Index.History

set_option autoImplicit false

/-! # What the records hold

The records are those of a history (`Records.Hold`), and they stay so when a block is added
(`Records.Hold.write_batchFor`). -/

namespace Invoicing

/-! ## Headers -/

namespace Index

theorem mem_taggedWith {header : BlockHeader} {topic channel : String} :
    channel ∈ taggedWith header topic ↔
      (header.topics.get? channel).any (fun topics => topics.contains topic) = true := by
  simp only [taggedWith, List.mem_map, List.mem_filter, Prod.exists, Option.any_eq_true,
    ← Dict.get?_eq_some_iff]
  constructor
  · rintro ⟨c, topics, ⟨hget, hcontains⟩, rfl⟩
    exact ⟨topics, hget, hcontains⟩
  · rintro ⟨topics, hget, hcontains⟩
    exact ⟨channel, topics, ⟨hget, hcontains⟩, rfl⟩

theorem mem_topicsOf {header : BlockHeader} {topic : String} :
    topic ∈ topicsOf header ↔ ∃ channel, channel ∈ taggedWith header topic := by
  simp only [topicsOf, List.mem_eraseDups, List.mem_flatten, Dict.values, taggedWith, List.mem_map,
    List.mem_filter, Prod.exists, List.contains_iff_mem]
  constructor
  · rintro ⟨_, ⟨channel, topics, hmem, rfl⟩, htopic⟩
    exact ⟨channel, channel, topics, ⟨hmem, htopic⟩, rfl⟩
  · rintro ⟨_, channel, topics, ⟨hmem, htopic⟩, rfl⟩
    exact ⟨topics, ⟨channel, topics, hmem, rfl⟩, htopic⟩

/-- Touching a channel again changes nothing. -/
theorem get?_touch (latest : Dict String Timestamp) (channels : List String) (time : Timestamp)
    (channel : String) :
    (touch latest channels time).get? channel =
      if channel ∈ channels then some (max ((latest.get? channel).getD time) time)
      else latest.get? channel := by
  induction channels generalizing latest with
  | nil => rfl
  | cons c channels ih =>
    have hstep : touch latest (c :: channels) time =
        touch (latest.insert c (max ((latest.get? c).getD time) time)) channels time := rfl
    rw [hstep, ih, Dict.get?_insert]
    by_cases hc : channel = c
    · subst hc
      have hmax (t : Timestamp) : max (max t time) time = max t time := by
        rw [show max (max t time) time = max t (max time time) from Std.Associative.assoc t time time, Std.max_self]
      simp [hmax]
    · simp [hc]

end Index

theorem Addition.tags_eq (a : Addition) (channel topic : String) :
    a.tags channel topic = true ↔ channel ∈ Index.taggedWith a.header topic :=
  Index.mem_taggedWith.symm

/-! ## Records and history -/

/-- A value that is there only if it is not empty. -/
def nonempty? {α : Type} (isEmpty : α → Bool) (a : α) : Option α :=
  if isEmpty a then none else some a

/-- The records are those of a history. -/
structure Records.Hold (records : Records) (h : History) : Prop where
  location (l : String) :
    records.get? (RecordKey.location l).bytes = (h.timeOf? l).map Record.encode
  channel (c : String) :
    records.get? (RecordKey.channel c).bytes =
      (nonempty? List.isEmpty (h.locationsOf c)).map Record.encode
  topic (t : String) : ∃ latest : Dict String Timestamp, (∀ c, latest.get? c = h.latest? t c) ∧
    records.get? (RecordKey.topic t).bytes = (nonempty? Dict.isEmpty latest).map Record.encode
  lastTimestamp :
    records.get? RecordKey.lastTimestamp.bytes = h.lastTime?.map Record.encode

namespace Records

theorem value?_of_encode {α : Type} [Record α] [LawfulRecord α] {records : Records} {k : RecordKey}
    {v : Option α} (h : records.get? k.bytes = v.map Record.encode) : records.value? α k = v := by
  rw [value?, h]
  cases v <;> simp

theorem spells_of_encode {α : Type} [Record α] [LawfulRecord α] {records : Records} {k : RecordKey}
    {v : Option α} (h : records.get? k.bytes = v.map Record.encode) : Spells α records k := by
  intro bytes hbytes
  rw [h] at hbytes
  obtain ⟨a, -, rfl⟩ := Option.map_eq_some_iff.1 hbytes
  simp

theorem hold_empty : Hold Dict.empty [] where
  location _ := rfl
  channel _ := rfl
  topic _ := ⟨Dict.empty, fun _ => rfl, rfl⟩
  lastTimestamp := rfl

namespace Hold

variable {records : Records} {h : History} (hold : records.Hold h)

include hold

theorem timeOf?_eq (l : String) : records.timeOf? l = h.timeOf? l := value?_of_encode (hold.location l)

theorem locationsOf_eq (c : String) : records.locationsOf c = h.locationsOf c := by
  rw [Records.locationsOf, value?_of_encode (hold.channel c), nonempty?]
  split
  · next hempty => exact (List.isEmpty_iff.1 hempty).symm
  · rfl

theorem latestOf_eq (t : String) : (∀ c, (records.latestOf t).get? c = h.latest? t c) ∧
    records.get? (RecordKey.topic t).bytes =
      (nonempty? Dict.isEmpty (records.latestOf t)).map Record.encode := by
  obtain ⟨latest, hlatest, hget⟩ := hold.topic t
  have heq : records.latestOf t = latest := by
    rw [latestOf, value?_of_encode hget, nonempty?]
    split
    · next hempty => exact (Dict.ext (List.isEmpty_iff.1 hempty)).symm
    · rfl
  exact heq ▸ ⟨hlatest, hget⟩

theorem get?_latestOf (t c : String) : (records.latestOf t).get? c = h.latest? t c :=
  (hold.latestOf_eq t).1 c

theorem lastTime?_eq : records.lastTime? = h.lastTime? := value?_of_encode hold.lastTimestamp

theorem spells_location (l : String) : Spells Timestamp records (.location l) :=
  spells_of_encode (hold.location l)

theorem spells_channel (c : String) : Spells (List String) records (.channel c) :=
  spells_of_encode (hold.channel c)

theorem spells_topic (t : String) : Spells (Dict String Timestamp) records (.topic t) := by
  obtain ⟨latest, -, hget⟩ := hold.topic t
  exact spells_of_encode hget

theorem spells_lastTimestamp : Spells Timestamp records .lastTimestamp :=
  spells_of_encode hold.lastTimestamp

theorem readableFor (location : String) (header : BlockHeader) :
    records.ReadableFor location header :=
  ⟨hold.spells_location location, fun c _ => hold.spells_channel c, fun t _ => hold.spells_topic t,
    hold.spells_lastTimestamp⟩

theorem timeFor_eq (a : Addition) :
    records.timeFor a.location a.timestamp = (h.timeOf? a.location).getD a.timestamp := by
  rw [timeFor, hold.timeOf?_eq]

/-- After its batch, the records hold one more block. -/
theorem write_batchFor (a : Addition) :
    (records.write (records.batchFor a.location a.header a.timestamp)).Hold (h ++ [a]) where
  location l := by
    rw [get?_write_batchFor, hold.location, written?, hold.timeFor_eq, hold.timeOf?_eq,
      History.timeOf?_append_single]
    by_cases hl : l = a.location
    · subst hl
      cases h.timeOf? a.location <;> simp
    · simp [hl, Ne.symm hl]
  channel c := by
    rw [get?_write_batchFor, hold.channel, written?, hold.locationsOf_eq,
      History.locationsOf_append_single]
    by_cases hnew : a.mentions c ∧ a.location ∉ h.locationsOf c
    · have hnew' : a.header.channels.contains c ∧ a.location ∉ h.locationsOf c := hnew
      rw [if_pos hnew, if_pos hnew']
      simp [nonempty?]
    · have hnew' : ¬ (a.header.channels.contains c ∧ a.location ∉ h.locationsOf c) := hnew
      rw [if_neg hnew, if_neg hnew', Option.none_or]
  topic t := by
    obtain ⟨hlatest, hget⟩ := hold.latestOf_eq t
    refine ⟨Index.touch (records.latestOf t) (Index.taggedWith a.header t)
      (records.timeFor a.location a.timestamp), fun c => ?_, ?_⟩
    · simp only [Index.get?_touch, hlatest, hold.timeFor_eq, History.latest?_append_single,
        Addition.tags_eq]
    · rw [get?_write_batchFor, hget, written?]
      by_cases htopic : t ∈ Index.topicsOf a.header
      · -- A topic of the header tags a channel, so its map is not empty and is stored.
        obtain ⟨c, hc⟩ := Index.mem_topicsOf.1 htopic
        have hsome := Index.get?_touch (records.latestOf t) (Index.taggedWith a.header t)
          (records.timeFor a.location a.timestamp) c
        rw [if_pos hc] at hsome
        rw [if_pos htopic, Option.some_or, nonempty?, if_neg]
        · rfl
        · intro hempty
          rw [Dict.ext (List.isEmpty_iff.1 hempty) (e := Dict.empty)] at hsome
          cases hsome
      · have hnone : Index.taggedWith a.header t = [] :=
          List.eq_nil_iff_forall_not_mem.2 fun c hc => htopic (Index.mem_topicsOf.2 ⟨c, hc⟩)
        rw [if_neg htopic, Option.none_or, hnone]
        rfl
  lastTimestamp := by
    rw [get?_write_batchFor, hold.lastTimestamp, written?, hold.timeFor_eq, hold.lastTime?_eq,
      History.lastTime?_append_single]
    cases h.lastTime? with
    | none => simp [Std.max_self]
    | some last =>
      simp only [Option.all_some, Option.getD_some, max_eq_ite]
      by_cases hlt : last < (h.timeOf? a.location).getD a.timestamp <;> simp [hlt]

end Hold

end Records

end Invoicing
