import Invoicing.Index.Basic
import Invoicing.Proofs.Index.Reading

set_option autoImplicit false

/-! # One more block

What a block changes in the records, and that it is added as a whole or not at all (`Index.run_add`). The batch that
is written depends on the records alone (`Records.batchFor`), so no later proof runs the index again. -/

namespace Invoicing

/-! ## Keys -/

namespace RecordKey

theorem text_injective {k k' : RecordKey} (h : k.text = k'.text) : k = k' := by
  have hl := congrArg String.toList h
  cases k <;> cases k' <;> simp [text, String.toList_append] at hl ⊢ <;> exact String.toList_inj.1 hl

theorem bytes_inj {k k' : RecordKey} : k.bytes = k'.bytes ↔ k = k' :=
  ⟨fun h => text_injective (Utf8.encode_injective h), fun h => h ▸ rfl⟩

end RecordKey

/-! ## Writing -/

namespace Records

/-! ## What the records say -/

/-- The value of a record, where one is spelled. -/
def value? (α : Type) [Record α] (records : Records) (k : RecordKey) : Option α :=
  (records.get? k.bytes).bind Record.decode?

variable (records : Records)

def timeOf? (location : String) : Option Timestamp := records.value? Timestamp (.location location)

def locationsOf (channel : String) : List String :=
  (records.value? (List String) (.channel channel)).getD []

def latestOf (topic : String) : Dict String Timestamp :=
  (records.value? (Dict String Timestamp) (.topic topic)).getD .empty

def lastTime? : Option Timestamp := records.value? Timestamp .lastTimestamp

/-! ## What a block changes -/

variable (location : String) (header : BlockHeader) (timestamp : Timestamp)

/-- The time that counts for a location. -/
def timeFor : Timestamp := (records.timeOf? location).getD timestamp

/-- The writes for the block at `location`. -/
def batchFor : Batch :=
  let time := records.timeFor location timestamp
  (if (records.timeOf? location).isNone then [RecordKey.put (.location location) time] else []) ++
    header.channels.keys.filterMap (fun channel =>
      if (records.locationsOf channel).contains location then none
      else some (RecordKey.put (.channel channel) (records.locationsOf channel ++ [location]))) ++
    (Dict.ofList ((Index.topicsOf header).map fun topic =>
      (topic, Index.touch (records.latestOf topic) (Index.taggedWith header topic) time))).entries.map
        (fun (topic, times) => RecordKey.put (.topic topic) times) ++
    (if records.lastTime?.all fun last => decide (last < time) then
      [RecordKey.put .lastTimestamp time] else [])

/-- The bytes that the block at `location` writes for a record, if it writes any. -/
def written? : RecordKey → Option (List UInt8)
  | .location l =>
    if l = location ∧ (records.timeOf? location).isNone then
      some (Record.encode (records.timeFor location timestamp)) else none
  | .channel channel =>
    if header.channels.contains channel ∧ location ∉ records.locationsOf channel then
      some (Record.encode (records.locationsOf channel ++ [location])) else none
  | .topic topic =>
    if topic ∈ Index.topicsOf header then
      some (Record.encode (Index.touch (records.latestOf topic) (Index.taggedWith header topic)
        (records.timeFor location timestamp))) else none
  | .lastTimestamp =>
    if records.lastTime?.all fun last => decide (last < records.timeFor location timestamp) then
      some (Record.encode (records.timeFor location timestamp)) else none

end Records

namespace Records

variable {records : Records} {location : String} {header : BlockHeader} {timestamp : Timestamp}

theorem mem_batchFor {k : Key} {v : List UInt8} :
    (k, v) ∈ records.batchFor location header timestamp ↔
      ∃ key : RecordKey, key.bytes = k ∧ records.written? location header timestamp key = some v := by
  have htopics (topic : String) (times : Dict String Timestamp) :
      (topic, times) ∈ (Dict.ofList ((Index.topicsOf header).map fun topic =>
        (topic, Index.touch (records.latestOf topic) (Index.taggedWith header topic)
          (records.timeFor location timestamp)))).entries ↔
      topic ∈ Index.topicsOf header ∧ Index.touch (records.latestOf topic)
        (Index.taggedWith header topic) (records.timeFor location timestamp) = times := by
    rw [← Dict.get?_eq_some_iff, Dict.get?_ofList_graph]
    split <;> simp_all
  -- The batch is four lists in a row, one for each kind of key.
  simp only [batchFor, RecordKey.put, List.mem_append, List.mem_filterMap, List.mem_map, Prod.exists,
    htopics]
  constructor
  · rintro (((h | ⟨channel, hchannel, h⟩) | ⟨topic, times, ⟨htopic, rfl⟩, h⟩) | h)
    · split at h
      · next hnone =>
        obtain ⟨rfl, rfl⟩ := Prod.mk.inj (List.mem_singleton.1 h)
        exact ⟨.location location, rfl, by simp [written?, hnone]⟩
      · cases h
    · split at h
      · cases h
      · next hnew =>
        obtain ⟨rfl, rfl⟩ := Prod.mk.inj (Option.some.inj h)
        refine ⟨.channel channel, rfl, if_pos ⟨Dict.mem_keys_iff.1 hchannel, ?_⟩⟩
        simpa using hnew
    · obtain ⟨rfl, rfl⟩ := Prod.mk.inj h
      exact ⟨.topic topic, rfl, if_pos htopic⟩
    · split at h
      · next hlast =>
        obtain ⟨rfl, rfl⟩ := Prod.mk.inj (List.mem_singleton.1 h)
        exact ⟨.lastTimestamp, rfl, if_pos hlast⟩
      · cases h
  · rintro ⟨key, rfl, h⟩
    cases key with
    | location l =>
      obtain ⟨⟨rfl, hnone⟩, rfl⟩ := Option.ite_some_none_eq_some.1 h
      exact .inl (.inl (.inl (by simp [hnone])))
    | channel channel =>
      obtain ⟨⟨hchannel, hnew⟩, rfl⟩ := Option.ite_some_none_eq_some.1 h
      exact .inl (.inl (.inr ⟨channel, Dict.mem_keys_iff.2 hchannel, by simp [hnew]⟩))
    | topic topic =>
      obtain ⟨htopic, rfl⟩ := Option.ite_some_none_eq_some.1 h
      exact .inl (.inr ⟨topic, _, ⟨htopic, rfl⟩, rfl⟩)
    | lastTimestamp =>
      obtain ⟨hlast, rfl⟩ := Option.ite_some_none_eq_some.1 h
      exact .inr (by simp [hlast])

theorem get?_write_batchFor (key : RecordKey) :
    (records.write (records.batchFor location header timestamp)).get? key.bytes =
      (records.written? location header timestamp key).or (records.get? key.bytes) := by
  cases hw : records.written? location header timestamp key with
  | some v =>
    refine Dict.get?_foldl_insert_of_mem records (mem_batchFor.2 ⟨key, rfl, hw⟩) fun v' hv' => ?_
    obtain ⟨key', hkey, hw'⟩ := mem_batchFor.1 hv'
    rw [RecordKey.bytes_inj.1 hkey, hw] at hw'
    exact (Option.some.inj hw').symm
  | none =>
    refine Dict.get?_foldl_insert_of_not_mem records fun v hv => ?_
    obtain ⟨key', hkey, hw'⟩ := mem_batchFor.1 hv
    rw [RecordKey.bytes_inj.1 hkey, hw] at hw'
    cases hw'

/-- Whatever is stored under the key is a value of the type. -/
def Spells (α : Type) [Record α] (records : Records) (k : RecordKey) : Prop :=
  ∀ bytes, records.get? k.bytes = some bytes → (Record.decode? bytes : Option α).isSome

/-- All records that the block at `location` needs can be read. -/
structure ReadableFor (records : Records) (location : String) (header : BlockHeader) : Prop where
  location : Spells Timestamp records (.location location)
  channel : ∀ channel ∈ header.channels.keys, Spells (List String) records (.channel channel)
  topic : ∀ topic ∈ Index.topicsOf header, Spells (Dict String Timestamp) records (.topic topic)
  lastTimestamp : Spells Timestamp records .lastTimestamp

end Records

open StoreM Effect

theorem Records.Spells.answers {α : Type} [Record α] {records : Records} {k : RecordKey}
    (h : Records.Spells α records k) :
    (load? α k).Answers records (.ok (records.value? α k)) := by
  have hheld : held? α records k = .ok (records.value? α k) := by
    rw [held?, Records.value?]
    cases hget : records.get? k.bytes with
    | none => rfl
    | some bytes =>
      obtain ⟨a, ha⟩ := Option.isSome_iff_exists.1 (h bytes hget)
      simp [ha]
  exact hheld ▸ answers_load? k

namespace Index

variable {records : Records} {location : String} {header : BlockHeader}

theorem answers_channelWrite? {channel : String}
    (h : Records.Spells (List String) records (.channel channel)) :
    (channelWrite? location channel).Answers records (.ok (
      if (records.locationsOf channel).contains location then none
      else some (RecordKey.put (.channel channel) (records.locationsOf channel ++ [location])))) := by
  refine h.answers.bind ?_
  show StoreM.Answers (if (records.locationsOf channel).contains location then _ else _) records _
  split
  · exact answers_pure _
  · exact answers_pure _

theorem answers_topicTimes {topic : String} (time : Timestamp)
    (h : Records.Spells (Dict String Timestamp) records (.topic topic)) :
    (topicTimes header time topic).Answers records
      (.ok (topic, touch (records.latestOf topic) (taggedWith header topic) time)) :=
  h.answers.bind (answers_pure _)

/-- What a block changes follows from what the records say. -/
theorem answers_changes (h : records.ReadableFor location header) (timestamp : Timestamp) :
    (changes location header timestamp).Answers records
      (.ok (records.batchFor location header timestamp)) := by
  refine h.location.answers.bind ?_
  refine (Answers.filterMapM fun c hc => answers_channelWrite? (h.channel c hc)).bind ?_
  refine (Answers.mapM fun t ht => answers_topicTimes _ (h.topic t ht)).bind ?_
  exact h.lastTimestamp.answers.bind (answers_pure _)

end Index

/-- No call to the store fails from now on. -/
structure Store.Quiet (s : Store) : Prop where
  reading : s.reading.Quiet
  writing : s.writing.Quiet

/-- A batch that is not empty takes one call to the store. -/
theorem StoreM.run_commit_eq (batch : Batch) (s : Store) :
    (commit batch).run.run s =
      if batch.isEmpty then (.ok (), s) else ((s.write batch).1.mapError .store, (s.write batch).2) := by
  cases batch with
  | nil => rfl
  | cons e rest =>
    refine (run_bind_ok (congrArg Prod.fst (run_modifyGet _ s))).trans ?_
    rw [run_modifyGet]
    cases (s.write (e :: rest)).1 <;> rfl

/-- A batch is written as a whole or not at all. -/
theorem StoreM.run_commit (batch : Batch) (s : Store) :
    let out := (commit batch).run.run s
    (s.Quiet → out.2.Quiet) ∧
      (out.1 = .ok () ∧ out.2.records = s.records.write batch ∨
        ¬ s.Quiet ∧ (∃ f, out.1 = .error (.store f)) ∧ out.2.records = s.records) := by
  intro out
  have hout := run_commit_eq batch s
  cases batch with
  | nil => exact ⟨id, .inl ⟨rfl, rfl⟩⟩
  | cons e rest =>
    change out = ((s.write (e :: rest)).1.mapError .store, (s.write (e :: rest)).2) at hout
    rw [hout, Store.write]
    by_cases hfail : s.writing.failing = true
    · have hnot : ¬ s.Quiet := fun hq => by rw [hq.writing.failing] at hfail; cases hfail
      rw [if_pos hfail]
      exact ⟨fun hq => absurd hq hnot, .inr ⟨hnot, ⟨_, rfl⟩, rfl⟩⟩
    · rw [if_neg hfail]
      exact ⟨fun hq => ⟨hq.reading, hq.writing.tick⟩, .inl ⟨rfl, rfl⟩⟩

namespace Index

variable {location : String} {header : BlockHeader}

/-- A block is added as a whole or not at all, and it is added while no call fails. -/
theorem run_add {s : Store} (h : s.records.ReadableFor location header) (timestamp : Timestamp) :
    let out := (add location header timestamp).run.run s
    (s.Quiet → out.2.Quiet) ∧
      (out.1 = .ok () ∧ out.2.records = s.records.write (s.records.batchFor location header timestamp) ∨
        ¬ s.Quiet ∧ (∃ f, out.1 = .error (.store f)) ∧ out.2.records = s.records) := by
  intro out
  have hout : out = (add location header timestamp).run.run s := rfl
  have hchanges := answers_changes h timestamp
  have hro := hchanges.readOnly rfl
  have hquiet (hq : s.Quiet) : ((changes location header timestamp).run.run s).2.Quiet :=
    ⟨hro.quiet hq.reading, hro.writing ▸ hq.writing⟩
  rcases (hchanges s rfl).2 with hok | ⟨hnq, f, hf⟩
  · -- The changes were read without trouble, and it is for the commit to succeed or to fail as a whole.
    obtain ⟨hq', hcommit⟩ := run_commit (s.records.batchFor location header timestamp)
      ((changes location header timestamp).run.run s).2
    rw [hro.records] at hcommit
    rw [hout, add, run_bind_ok hok]
    exact ⟨fun hq => hq' (hquiet hq), hcommit.imp id fun ⟨hnq, hrest⟩ => ⟨fun hq => hnq (hquiet hq), hrest⟩⟩
  · rw [hout, add, run_bind_error hf]
    exact ⟨hquiet, .inr ⟨fun hq => hnq hq.reading, ⟨f, rfl⟩, hro.records⟩⟩

end Index

end Invoicing
