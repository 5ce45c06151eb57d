import Invoicing.Proofs.Index.Queries

set_option autoImplicit false

/-! # What other blocks leave as it is

A query reads a few records. Two stores that have these records in common answer it alike, whichever reads fail
(`Index.agrees_locations`, `Index.agrees_channelsOfTopics`). Blocks that do not mention a channel, a location or a topic
change nothing of what the history says of it, and so its record stays the same, byte for byte. -/

namespace Invoicing

open Effect StoreM

/-! ## Stores side by side -/

/-- The stores have these records, and the same reads fail. -/
structure Store.Beside (records records' : Records) (s s' : Store) : Prop where
  left : s.records = records
  right : s'.records = records'
  reading : s'.reading = s.reading

/-- The same record is under a key. -/
def Records.SameAt (records records' : Records) (k : RecordKey) : Prop :=
  records'.get? k.bytes = records.get? k.bytes

namespace StoreM

variable {α β : Type} {records records' : Records}

theorem agrees_load? [Record α] {k : RecordKey} (hk : records.SameAt records' k) :
    Agrees (Store.Beside records records') (load? α k) := by
  have hget : Agrees (Store.Beside records records') (modifyGet fun s => s.get k.bytes : StoreM _) := by
    rintro s s' ⟨rfl, rfl, hreading⟩
    rw [run_modifyGet, run_modifyGet, Store.get, Store.get, hreading, hk]
    split
    · exact ⟨rfl, rfl, rfl, rfl⟩
    · exact ⟨rfl, rfl, rfl, rfl⟩
  refine hget.bind fun answer => ?_
  rcases answer with failure | _ | bytes
  · exact fun _ _ hs => ⟨rfl, hs⟩
  · exact agrees_pure _
  · dsimp only
    split
    · exact agrees_pure _
    · exact fun _ _ hs => ⟨rfl, hs⟩

/-- What is done with a value that was loaded is done with the one that the records spell. -/
theorem agrees_load?_bind [Record α] {k : RecordKey} {f : Option α → StoreM β} (hk : records.SameAt records' k)
    (hspells : Records.Spells α records k)
    (hf : Agrees (Store.Beside records records') (f (records.value? α k))) :
    Agrees (Store.Beside records records') (load? α k >>= f) := by
  intro s s' hs
  have hload : Agrees (Store.Beside records records') (load? α k) := agrees_load? hk
  obtain ⟨hresult, hafter⟩ := hload s s' hs
  rcases (hspells.answers s hs.left).2 with hok | ⟨-, failure, herror⟩
  · rw [run_bind_ok hok, run_bind_ok (hresult.symm.trans hok)]
    exact hf _ _ hafter
  · rw [run_bind_error herror, run_bind_error (hresult.symm.trans herror)]
    exact ⟨rfl, hafter⟩

end StoreM

namespace Index

variable {records records' : Records}

theorem agrees_locations {channel : String} (hchannel : records.SameAt records' (.channel channel))
    (hspells : Records.Spells (List String) records (.channel channel))
    (htimes : ∀ l ∈ records.locationsOf channel, records.SameAt records' (.location l)) (window : Option Window) :
    Agrees (Store.Beside records records') (locations channel window) := by
  refine agrees_load?_bind hchannel hspells ?_
  cases window with
  | none => exact agrees_pure _
  | some window => exact agrees_filterM fun l hl => (agrees_load? (htimes l hl)).bind fun time => agrees_pure _

/-- Whatever the window is, a look-up finds locations of the channel alone. -/
theorem mem_locationsOf_of_ok {s : Store} {channel : String}
    (hchannel : Records.Spells (List String) s.records (.channel channel))
    (htimes : ∀ l ∈ s.records.locationsOf channel, Records.Spells Timestamp s.records (.location l))
    {window : Option Window} {found : List String}
    (hok : ((locations channel window).run.run s).1 = .ok found) :
    ∀ l ∈ found, l ∈ s.records.locationsOf channel := by
  cases window with
  | none =>
    rcases (answers_locations_none hchannel s rfl).2 with hall | ⟨-, failure, herror⟩
    · cases hok.symm.trans hall
      exact fun l hl => hl
    · cases hok.symm.trans herror
  | some window =>
    rcases (answers_locations_some window hchannel htimes s rfl).2 with hinside | ⟨-, failure, herror⟩
    · cases hok.symm.trans hinside
      exact fun l hl => List.mem_of_mem_filter hl
    · cases hok.symm.trans herror

theorem agrees_channelsOfTopics {topics : List String} (htopics : ∀ t ∈ topics, records.SameAt records' (.topic t))
    (window : Option Window) : Agrees (Store.Beside records records') (channelsOfTopics topics window) := by
  have hfound : Agrees (Store.Beside records records') (topics.mapM fun topic => channelsOfTopic topic window) :=
    agrees_mapM_of_mem fun t ht => (agrees_load? (htopics t ht)).bind fun latest => agrees_pure _
  exact hfound.bind fun found => agrees_pure _

end Index

/-! ## Blocks of other channels -/

namespace History

variable {h : History} (added : History)

theorem timeOf?_append_of_isSome {location : String} (hknown : (h.timeOf? location).isSome) :
    History.timeOf? (h ++ added) location = h.timeOf? location := by
  obtain ⟨time, htime⟩ := Option.isSome_iff_exists.1 hknown
  obtain ⟨a, ha, -⟩ := Option.map_eq_some_iff.1 htime
  rw [timeOf?, timeOf?, List.find?_append, ha, Option.some_or]

variable {added}

theorem locationsOf_append_of_forall {channel : String} (hnone : ∀ a ∈ added, ¬ a.mentions channel = true) :
    History.locationsOf (h ++ added) channel = h.locationsOf channel := by
  rw [locationsOf, locationsOf, List.filter_append, List.filter_eq_nil_iff.2 hnone, List.append_nil]

theorem latest?_append_of_forall {topic channel : String} (hnone : ∀ a ∈ added, ¬ a.tags channel topic = true) :
    History.latest? (h ++ added) topic channel = h.latest? topic channel := by
  rw [latest?, latest?, updates, updates, List.filter_append, List.filter_eq_nil_iff.2 hnone, List.append_nil]
  refine congrArg List.max? (List.filterMap_congr fun a ha => ?_)
  exact timeOf?_append_of_isSome added (isSome_timeOf? (List.mem_of_mem_filter ha))

theorem isSome_timeOf?_of_mem_locationsOf {channel location : String} (hl : location ∈ h.locationsOf channel) :
    (h.timeOf? location).isSome := by
  obtain ⟨a, ha, -, rfl⟩ := mem_locationsOf.1 hl
  exact isSome_timeOf? ha

end History

namespace Records.Hold

variable {records records' : Records} {h added : History} (hold : records.Hold h) (hold' : records'.Hold (h ++ added))

include hold hold'

/-- The record of a channel stays, and so do those of its locations. -/
theorem sameAt_channel {channel : String} (hnone : ∀ a ∈ added, ¬ a.mentions channel = true) :
    records.SameAt records' (.channel channel) ∧
      ∀ l ∈ records.locationsOf channel, records.SameAt records' (.location l) := by
  refine ⟨?_, fun l hl => ?_⟩
  · rw [SameAt, hold.channel, hold'.channel, History.locationsOf_append_of_forall hnone]
  · rw [hold.locationsOf_eq] at hl
    rw [SameAt, hold.location, hold'.location,
      History.timeOf?_append_of_isSome added (History.isSome_timeOf?_of_mem_locationsOf hl)]

/-- A topic keeps the time of every channel that it is not given for. -/
theorem get?_latestOf_of_forall {topic channel : String} (hnone : ∀ a ∈ added, ¬ a.tags channel topic = true) :
    (records'.latestOf topic).get? channel = (records.latestOf topic).get? channel := by
  rw [hold.get?_latestOf, hold'.get?_latestOf, History.latest?_append_of_forall hnone]

/-- So it is found for topics as before, if it is given none of them. -/
theorem mem_channelsOfAny_of_forall {topics : List String} {channel : String}
    (hnone : ∀ a ∈ added, ∀ topic ∈ topics, ¬ a.tags channel topic = true) (window : Option Window) :
    channel ∈ records'.channelsOfAny topics window ↔ channel ∈ records.channelsOfAny topics window := by
  rw [Records.mem_channelsOfAny, Records.mem_channelsOfAny]
  refine exists_congr fun topic => and_congr_right fun htopic => ?_
  rw [Records.mem_channelsOf, Records.mem_channelsOf,
    hold.get?_latestOf_of_forall hold' fun a ha => hnone a ha topic htopic]

/-- The record of a topic stays, if it is given for no channel at all. -/
theorem sameAt_topic {topic : String} (hnone : ∀ a ∈ added, ∀ channel, ¬ a.tags channel topic = true) :
    records.SameAt records' (.topic topic) := by
  have hlatest : records'.latestOf topic = records.latestOf topic :=
    Dict.ext_get? fun channel => hold.get?_latestOf_of_forall hold' fun a ha => hnone a ha channel
  rw [SameAt, (hold.latestOf_eq topic).2, (hold'.latestOf_eq topic).2, hlatest]

end Records.Hold

end Invoicing
