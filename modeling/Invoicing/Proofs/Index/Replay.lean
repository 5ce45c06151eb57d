import Invoicing.Proofs.Index.Failure
import Invoicing.Proofs.Index.Queries

set_option autoImplicit false

/-! # Adding a block again

On any records at all, also such as no index would write, a block that was added leaves records that know it
(`Records.Knows`), and they go on knowing it whatever is added later. To add a block that is known writes again what
is there already, so it changes no byte (`Index.add_again`). -/

namespace Invoicing

open Effect

/-! ## What a success shows -/

namespace StoreM

variable {α β : Type} {P : Records → Prop}

/-- Whenever the computation comes to a value, the records that it ran on have the property. -/
def Shows (m : StoreM α) (P : Records → Prop) : Prop :=
  ∀ s a, (m.run.run s).1 = .ok a → P s.records

theorem shows_load? [Record α] (k : RecordKey) :
    (load? α k).Shows fun records => Records.Spells α records k := by
  intro s v hv bytes hbytes
  rcases ((answers_load? k : Answers (load? α k) _ _) s rfl).2 with hheld | ⟨-, f, hf⟩
  · rw [hheld, held?, hbytes] at hv
    cases hdec : (Record.decode? bytes : Option α) with
    | some a => rfl
    | none =>
      simp only [hdec] at hv
      cases hv
  · rw [hf] at hv
    cases hv

theorem Shows.bind_left {m : StoreM α} {f : α → StoreM β} (hm : m.Shows P) : (m >>= f).Shows P := by
  intro s b hb
  cases hres : (m.run.run s).1 with
  | ok a => exact hm s a hres
  | error e =>
    rw [run_bind_error hres] at hb
    cases hb

/-- What the second part shows is true of the records before the first part, if that only reads. -/
theorem Shows.bind_right {m : StoreM α} {f : α → StoreM β} (hro : m.ReadsOnly) (hf : ∀ a, (f a).Shows P) :
    (m >>= f).Shows P := by
  intro s b hb
  cases hres : (m.run.run s).1 with
  | ok a =>
    rw [run_bind_ok hres] at hb
    exact (hro s).records ▸ hf a _ b hb
  | error e =>
    rw [run_bind_error hres] at hb
    cases hb

theorem shows_mapM {f : α → StoreM β} (hro : ∀ a, (f a).ReadsOnly) {as : List α} {a : α} (ha : a ∈ as)
    (hf : (f a).Shows P) : (as.mapM f).Shows P := by
  induction as with
  | nil => cases ha
  | cons a' as ih =>
    rw [List.mapM_cons]
    rcases List.mem_cons.1 ha with rfl | ha
    · exact hf.bind_left
    · exact .bind_right (hro a') fun b => (ih ha).bind_left

theorem shows_filterMapM {f : α → StoreM (Option β)} (hro : ∀ a, (f a).ReadsOnly) {as : List α} {a : α}
    (ha : a ∈ as) (hf : (f a).Shows P) : (as.filterMapM f).Shows P := by
  induction as with
  | nil => cases ha
  | cons a' as ih =>
    rw [List.filterMapM_cons]
    rcases List.mem_cons.1 ha with rfl | ha
    · exact hf.bind_left
    · refine .bind_right (hro a') fun b => ?_
      cases b with
      | none => exact ih ha
      | some b => exact (ih ha).bind_left

end StoreM

open StoreM

namespace Index

variable {location : String} {header : BlockHeader} {timestamp : Timestamp}

theorem readsOnly_topicTimes (header : BlockHeader) (time : Timestamp) (topic : String) :
    (topicTimes header time topic).ReadsOnly :=
  (readsOnly_load? _).bind fun _ => readsOnly_pure _

/-- All records that a block needs are read before anything is written. -/
theorem shows_changes (location : String) (header : BlockHeader) (timestamp : Timestamp) :
    (changes location header timestamp).Shows fun records => records.ReadableFor location header := by
  intro s batch hbatch
  have hchannels := readsOnly_filterMapM (readsOnly_channelWrite? location) header.channels.keys
  have htopics time := readsOnly_mapM (readsOnly_topicTimes header time) (topicsOf header)
  refine ⟨?_, fun channel hchannel => ?_, fun topic htopic => ?_, ?_⟩
  · exact (shows_load? _).bind_left s batch hbatch
  · refine Shows.bind_right (P := fun records => Records.Spells _ records (.channel channel))
      (readsOnly_load? _) (fun known => ?_) s batch hbatch
    exact (shows_filterMapM (readsOnly_channelWrite? location) hchannel (shows_load? _).bind_left).bind_left
  · refine Shows.bind_right (P := fun records => Records.Spells _ records (.topic topic))
      (readsOnly_load? _) (fun known => ?_) s batch hbatch
    refine .bind_right hchannels fun channels => ?_
    exact (shows_mapM (readsOnly_topicTimes header _) htopic (shows_load? _).bind_left).bind_left
  · refine Shows.bind_right (P := fun records => Records.Spells _ records .lastTimestamp)
      (readsOnly_load? _) (fun known => ?_) s batch hbatch
    refine .bind_right hchannels fun channels => .bind_right (htopics _) fun topics => ?_
    exact (shows_load? _).bind_left

/-- A block that is added could be read for, and its batch is what was written. -/
theorem run_add_ok {s : Store} (hok : ((add location header timestamp).run.run s).1 = .ok ()) :
    ((add location header timestamp).run.run s).2.records =
      s.records.write (s.records.batchFor location header timestamp) := by
  have hreadable : s.records.ReadableFor location header :=
    (shows_changes location header timestamp).bind_left s () hok
  rcases (run_add hreadable timestamp).2 with ⟨-, hrecords⟩ | ⟨-, ⟨f, hf⟩, -⟩
  · exact hrecords
  · rw [hf] at hok
    cases hok

end Index

/-! ## Records that know a block -/

namespace Records

theorem spells_of_value? {α : Type} [Record α] {records : Records} {k : RecordKey} {a : α}
    (h : records.value? α k = some a) : Spells α records k := by
  intro bytes hbytes
  rw [value?, hbytes, Option.bind_some] at h
  rw [h]
  rfl

/-- The records say of the block at `location`, whose time is `time`, all that they would say if it was added last. -/
structure Knows (records : Records) (location : String) (header : BlockHeader) (time : Timestamp) : Prop where
  timed : records.timeOf? location = some time
  listed : ∀ channel ∈ header.channels.keys, location ∈ records.locationsOf channel
  /-- The times of a topic are spelled in the one way in which they are written. -/
  tagged : ∀ topic ∈ Index.topicsOf header,
    records.get? (RecordKey.topic topic).bytes = some (Record.encode (records.latestOf topic)) ∧
      ∀ channel ∈ Index.taggedWith header topic, ∃ latest,
        (records.latestOf topic).get? channel = some latest ∧ time ≤ latest
  passed : ∃ last, records.lastTime? = some last ∧ time ≤ last

theorem le_max (a b : Timestamp) : b ≤ max a b := (Std.max_le_iff.1 (UInt64.le_refl _)).2

theorem le_max_of_le {a b : Timestamp} (c : Timestamp) (h : a ≤ b) : a ≤ max b c :=
  UInt64.le_trans h (Std.max_le_iff.1 (UInt64.le_refl _)).1

section After

variable (records : Records) (location : String) (header : BlockHeader) (timestamp : Timestamp)

/-- What a record says after one more block. -/
theorem value?_write_batchFor {α : Type} [Record α] (key : RecordKey) :
    (records.write (records.batchFor location header timestamp)).value? α key =
      match records.written? location header timestamp key with
      | some bytes => Record.decode? bytes
      | none => records.value? α key := by
  rw [value?, get?_write_batchFor]
  cases records.written? location header timestamp key <;> rfl

theorem timeOf?_write_batchFor (l : String) :
    (records.write (records.batchFor location header timestamp)).timeOf? l =
      if l = location then some (records.timeFor location timestamp) else records.timeOf? l := by
  rw [timeOf?, value?_write_batchFor, written?, timeFor]
  by_cases hl : l = location
  · subst hl
    cases htime : records.timeOf? l with
    | none => simp
    | some time => simpa [timeOf?] using htime
  · simp [hl, timeOf?]

theorem locationsOf_write_batchFor (channel : String) :
    (records.write (records.batchFor location header timestamp)).locationsOf channel =
      if header.channels.contains channel ∧ location ∉ records.locationsOf channel then
        records.locationsOf channel ++ [location]
      else records.locationsOf channel := by
  rw [locationsOf, value?_write_batchFor, written?]
  by_cases hnew : header.channels.contains channel ∧ location ∉ records.locationsOf channel
  · simp only [if_pos hnew, Record.decode?_encode, Option.getD_some]
  · simp only [if_neg hnew]
    rfl

theorem latestOf_write_batchFor (topic : String) :
    (records.write (records.batchFor location header timestamp)).latestOf topic =
      if topic ∈ Index.topicsOf header then
        Index.touch (records.latestOf topic) (Index.taggedWith header topic) (records.timeFor location timestamp)
      else records.latestOf topic := by
  rw [latestOf, value?_write_batchFor, written?]
  by_cases htopic : topic ∈ Index.topicsOf header
  · simp only [if_pos htopic, Record.decode?_encode, Option.getD_some]
  · simp only [if_neg htopic]
    rfl

theorem lastTime?_write_batchFor :
    (records.write (records.batchFor location header timestamp)).lastTime? =
      if records.lastTime?.all fun last => decide (last < records.timeFor location timestamp) then
        some (records.timeFor location timestamp)
      else records.lastTime? := by
  rw [lastTime?, value?_write_batchFor, written?]
  by_cases hlater : records.lastTime?.all fun last => decide (last < records.timeFor location timestamp)
  · simp only [if_pos hlater, Record.decode?_encode]
  · simp only [if_neg hlater]
    rfl

end After

variable {records : Records} {location : String} {header : BlockHeader}

/-- The latest time is never before that of the block that came last. -/
theorem exists_lastTime?_write_batchFor (records : Records) (location : String) (header : BlockHeader)
    (timestamp : Timestamp) : ∃ last,
    (records.write (records.batchFor location header timestamp)).lastTime? = some last ∧
      records.timeFor location timestamp ≤ last ∧ ∀ before, records.lastTime? = some before → before ≤ last := by
  rw [lastTime?_write_batchFor]
  cases hlast : records.lastTime? with
  | none => exact ⟨_, rfl, UInt64.le_refl _, fun before hbefore => nomatch hbefore⟩
  | some last =>
    rw [Option.all_some]
    by_cases hlt : last < records.timeFor location timestamp
    · rw [if_pos (by simpa using hlt)]
      refine ⟨_, rfl, UInt64.le_refl _, fun before hbefore => ?_⟩
      cases hbefore
      exact UInt64.le_of_lt hlt
    · rw [if_neg (by simpa using hlt)]
      refine ⟨last, rfl, UInt64.not_lt.1 hlt, fun before hbefore => ?_⟩
      cases hbefore
      exact UInt64.le_refl _

/-- A block that was added is known, with the time that its location has. -/
theorem knows_write_batchFor (records : Records) (location : String) (header : BlockHeader)
    (timestamp : Timestamp) :
    (records.write (records.batchFor location header timestamp)).Knows location header
      (records.timeFor location timestamp) where
  timed := by rw [timeOf?_write_batchFor, if_pos rfl]
  listed c hc := by
    rw [locationsOf_write_batchFor]
    split
    · exact List.mem_append_right _ List.mem_cons_self
    · next hnew =>
      by_contra hmem
      exact hnew ⟨Dict.mem_keys_iff.1 hc, hmem⟩
  tagged t ht := by
    rw [latestOf_write_batchFor, if_pos ht, get?_write_batchFor, written?, if_pos ht]
    refine ⟨rfl, fun channel hchannel => ?_⟩
    rw [Index.get?_touch, if_pos hchannel]
    exact ⟨_, rfl, le_max _ _⟩
  passed := by
    obtain ⟨last, hlast, hle, -⟩ := exists_lastTime?_write_batchFor records location header timestamp
    exact ⟨last, hlast, hle⟩

namespace Knows

variable {time : Timestamp}

/-- A block that is known stays known, whatever is added. -/
theorem write_batchFor (hknows : records.Knows location header time) (location' : String) (header' : BlockHeader)
    (timestamp' : Timestamp) :
    (records.write (records.batchFor location' header' timestamp')).Knows location header time where
  timed := by
    rw [timeOf?_write_batchFor]
    split
    · next hl =>
      subst hl
      rw [timeFor, hknows.timed, Option.getD_some]
    · exact hknows.timed
  listed c hc := by
    rw [locationsOf_write_batchFor]
    split
    · exact List.mem_append_left _ (hknows.listed c hc)
    · exact hknows.listed c hc
  tagged t ht := by
    obtain ⟨hget, htagged⟩ := hknows.tagged t ht
    rw [latestOf_write_batchFor, get?_write_batchFor, written?]
    split
    · refine ⟨rfl, fun channel hchannel => ?_⟩
      obtain ⟨latest, hlatest, hle⟩ := htagged channel hchannel
      rw [Index.get?_touch]
      split
      · rw [hlatest, Option.getD_some]
        exact ⟨_, rfl, le_max_of_le _ hle⟩
      · exact ⟨latest, hlatest, hle⟩
    · exact ⟨hget, htagged⟩
  passed := by
    obtain ⟨before, hbefore, hle⟩ := hknows.passed
    obtain ⟨last, hlast, -, hmono⟩ := exists_lastTime?_write_batchFor records location' header' timestamp'
    exact ⟨last, hlast, UInt64.le_trans hle (hmono before hbefore)⟩

/-- All that is needed to add a known block again can be read. -/
theorem readableFor (hknows : records.Knows location header time) : records.ReadableFor location header where
  location := spells_of_value? hknows.timed
  channel c hc := by
    cases hvalue : records.value? (List String) (.channel c) with
    | some locations => exact spells_of_value? hvalue
    | none =>
      -- A channel whose record spells nothing lists no location.
      have hmem := hknows.listed c hc
      rw [locationsOf, hvalue, Option.getD_none] at hmem
      cases hmem
  topic t ht := spells_of_encode (v := some (records.latestOf t)) (hknows.tagged t ht).1
  lastTimestamp := by
    obtain ⟨last, hlast, -⟩ := hknows.passed
    exact spells_of_value? hlast

end Knows

/-! ## Writing what is there -/

/-- Writes of what the records hold change nothing. -/
theorem write_eq_self {batch : Batch} (h : ∀ k v, (k, v) ∈ batch → records.get? k = some v) :
    records.write batch = records := by
  induction batch with
  | nil => rfl
  | cons e rest ih =>
    obtain ⟨k, v⟩ := e
    have hinsert : records.insert k v = records := by
      refine Dict.ext_get? fun k' => ?_
      rw [Dict.get?_insert]
      split
      · next hk => rw [hk, h k v List.mem_cons_self]
      · rfl
    show Records.write (records.insert k v) rest = records
    rw [hinsert]
    exact ih fun k' v' hmem => h k' v' (List.mem_cons_of_mem _ hmem)

theorem touch_eq_self {latest : Dict String Timestamp} {channels : List String} {time : Timestamp}
    (h : ∀ channel ∈ channels, ∃ t, latest.get? channel = some t ∧ time ≤ t) :
    Index.touch latest channels time = latest := by
  refine Dict.ext_get? fun channel => ?_
  rw [Index.get?_touch]
  split
  · next hmem =>
    obtain ⟨t, ht, hle⟩ := h channel hmem
    rw [ht, Option.getD_some, max_eq_ite, if_neg (UInt64.not_lt.2 hle)]
  · rfl

/-- The batch of a known block holds nothing new, whatever time comes with it. -/
theorem Knows.write_again {time : Timestamp} (hknows : records.Knows location header time)
    (timestamp : Timestamp) : records.write (records.batchFor location header timestamp) = records := by
  refine write_eq_self fun k v hmem => ?_
  obtain ⟨key, rfl, hwritten⟩ := mem_batchFor.1 hmem
  have htime : records.timeFor location timestamp = time := by rw [timeFor, hknows.timed, Option.getD_some]
  cases key with
  | location l =>
    -- The location has a time, and a time is never written over.
    obtain ⟨⟨-, hnone⟩, -⟩ := Option.ite_some_none_eq_some.1 hwritten
    rw [hknows.timed] at hnone
    cases hnone
  | channel c =>
    obtain ⟨⟨hc, hnew⟩, -⟩ := Option.ite_some_none_eq_some.1 hwritten
    exact absurd (hknows.listed c (Dict.mem_keys_iff.2 hc)) hnew
  | topic t =>
    -- The times of a topic are always written, but no time moves.
    obtain ⟨ht, rfl⟩ := Option.ite_some_none_eq_some.1 hwritten
    obtain ⟨hget, htagged⟩ := hknows.tagged t ht
    rw [htime, touch_eq_self htagged]
    exact hget
  | lastTimestamp =>
    obtain ⟨hlater, -⟩ := Option.ite_some_none_eq_some.1 hwritten
    obtain ⟨last, hlast, hle⟩ := hknows.passed
    rw [htime, hlast, Option.all_some, decide_eq_true_iff] at hlater
    exact absurd hlater (UInt64.not_lt.2 hle)

end Records

/-! ## Many blocks -/

namespace Records

/-- The records after some blocks have been added. -/
def addAll (records : Records) (h : History) : Records :=
  h.foldl (fun rs a => rs.write (rs.batchFor a.location a.header a.timestamp)) records

/-- Each of the blocks finds all that it needs in records that can be read, when its turn comes. -/
def Admits (records : Records) : History → Prop
  | [] => True
  | a :: h => records.ReadableFor a.location a.header ∧ (records.addAll [a]).Admits h

/-- The records know each of the blocks. -/
def KnowsEach (records : Records) (h : History) : Prop :=
  ∀ a ∈ h, ∃ time, records.Knows a.location a.header time

variable {records : Records} {h : History}

theorem addAll_append (records : Records) (h h' : History) :
    records.addAll (h ++ h') = (records.addAll h).addAll h' := List.foldl_append

theorem addAll_cons (records : Records) (a : Addition) (h : History) :
    records.addAll (a :: h) = (records.addAll [a]).addAll h := rfl

theorem admits_append {h' : History} :
    records.Admits (h ++ h') ↔ records.Admits h ∧ (records.addAll h).Admits h' := by
  induction h generalizing records with
  | nil => exact ⟨fun hadmits => ⟨trivial, hadmits⟩, And.right⟩
  | cons a h ih =>
    rw [List.cons_append, addAll_cons]
    simp only [Admits, ih, and_assoc]

theorem Knows.addAll {location : String} {header : BlockHeader} {time : Timestamp}
    (hknows : records.Knows location header time) (h : History) : (records.addAll h).Knows location header time := by
  induction h generalizing records with
  | nil => exact hknows
  | cons a h ih => exact ih (hknows.write_batchFor a.location a.header a.timestamp)

theorem knowsEach_addAll (records : Records) (h : History) : (records.addAll h).KnowsEach h := by
  induction h generalizing records with
  | nil =>
    intro a ha
    cases ha
  | cons b h ih =>
    intro a ha
    rcases List.mem_cons.1 ha with rfl | ha
    · exact ⟨_, (knows_write_batchFor records a.location a.header a.timestamp).addAll h⟩
    · exact ih (records.addAll [b]) a ha

/-- Known blocks can be added again, and no byte changes. -/
theorem KnowsEach.again (hknown : records.KnowsEach h) : records.Admits h ∧ records.addAll h = records := by
  induction h with
  | nil => exact ⟨trivial, rfl⟩
  | cons a h ih =>
    obtain ⟨time, hknows⟩ := hknown a List.mem_cons_self
    have hsame : records.addAll [a] = records := hknows.write_again a.timestamp
    obtain ⟨hadmits, hrest⟩ := ih fun b hb => hknown b (List.mem_cons_of_mem a hb)
    rw [addAll_cons, Admits, hsame]
    exact ⟨⟨hknows.readableFor, hadmits⟩, hrest⟩

/-- It makes no difference to blocks that are added whether some from their front have been added before. -/
theorem addAll_after_prefix {done : History} (hinit : done <+: h) (hdone : records.Admits done) :
    (records.addAll done).addAll h = records.addAll h ∧ ((records.addAll done).Admits h ↔ records.Admits h) := by
  obtain ⟨rest, rfl⟩ := hinit
  obtain ⟨hagain, hsame⟩ := (knowsEach_addAll records done).again
  refine ⟨?_, ?_⟩
  · rw [addAll_append, hsame, addAll_append]
  · rw [admits_append, admits_append, hsame]
    exact and_congr_left fun _ => ⟨fun _ => hdone, fun _ => hagain⟩

/-- The records of a history admit all blocks. -/
theorem Hold.admits {h₀ : History} (hold : records.Hold h₀) (h : History) : records.Admits h := by
  induction h generalizing records h₀ with
  | nil => trivial
  | cons a h ih => exact ⟨hold.readableFor a.location a.header, ih (hold.write_batchFor a)⟩

end Records

namespace Index

variable {location : String} {header : BlockHeader}

/-- A block that is known can be added again with any time, and no record changes; not even if the store fails. -/
theorem add_again {s : Store} {time : Timestamp} (hknows : s.records.Knows location header time)
    (timestamp : Timestamp) :
    let out := (add location header timestamp).run.run s
    out.2.records = s.records ∧ (s.Quiet → out.1 = .ok () ∧ out.2.Quiet) := by
  intro out
  obtain ⟨hquiet, ⟨hok, hrecords⟩ | ⟨hnq, -, hrecords⟩⟩ := run_add hknows.readableFor timestamp
  · refine ⟨?_, fun hq => ⟨hok, hquiet hq⟩⟩
    rw [hrecords, hknows.write_again]
  · exact ⟨hrecords, fun hq => absurd hq hnq⟩

/-- On any store, a block that can be read for is added unless a call fails, and otherwise no record changes. -/
theorem run_add_cases (s : Store) (a : Addition) :
    let out := (add a.location a.header a.timestamp).run.run s
    out.1 = .ok () ∧ s.records.ReadableFor a.location a.header ∧ out.2.records = s.records.addAll [a] ∧
        (s.Quiet → out.2.Quiet) ∨
      (∃ e, out.1 = .error e) ∧ out.2.records = s.records ∧
        ¬ (s.Quiet ∧ s.records.ReadableFor a.location a.header) := by
  intro out
  cases hres : out.1 with
  | ok u =>
    have hreadable := (shows_changes a.location a.header a.timestamp).bind_left s u hres
    exact .inl ⟨rfl, hreadable, run_add_ok hres, (run_add hreadable a.timestamp).1⟩
  | error e =>
    refine .inr ⟨⟨e, rfl⟩, records_add_error hres, fun ⟨hquiet, hreadable⟩ => ?_⟩
    rcases (run_add hreadable a.timestamp).2 with ⟨hok, -⟩ | ⟨hnot, -⟩
    · exact nomatch hres.symm.trans hok
    · exact hnot hquiet

/-- On any store, either all blocks are added, or some from the front and then there is trouble: a call fails, or a
record cannot be read. -/
theorem run_addAll_cases (s : Store) (h : History) :
    let out := (addAll h).run.run s
    out.1 = .ok () ∧ s.records.Admits h ∧ out.2.records = s.records.addAll h ∧ (s.Quiet → out.2.Quiet) ∨
      (∃ e, out.1 = .error e) ∧
        (∃ done, done <+: h ∧ s.records.Admits done ∧ out.2.records = s.records.addAll done) ∧
        ¬ (s.Quiet ∧ s.records.Admits h) := by
  induction h generalizing s with
  | nil => exact .inl ⟨rfl, trivial, rfl, id⟩
  | cons a h ih =>
    have hadd : addAll (a :: h) = add a.location a.header a.timestamp >>= fun _ => addAll h := rfl
    rw [hadd]
    rcases run_add_cases s a with ⟨hok, hreadable, hrecords, hquiet⟩ | ⟨⟨e, he⟩, hrecords, hnot⟩
    · -- The block is added, and the others meet the records that it leaves.
      rw [run_bind_ok hok]
      generalize ((add a.location a.header a.timestamp).run.run s).2 = s' at hrecords hquiet
      rcases ih s' with ⟨hok', hadmits, hall, hquiet'⟩ | ⟨herror, ⟨done, hinit, hadmits, hall⟩, hnot⟩
      · rw [hrecords] at hadmits hall
        exact .inl ⟨hok', ⟨hreadable, hadmits⟩, hall, fun hq => hquiet' (hquiet hq)⟩
      · rw [hrecords] at hadmits hall hnot
        refine .inr ⟨herror, ⟨a :: done, (List.prefix_cons_inj a).2 hinit, ⟨hreadable, hadmits⟩, hall⟩, ?_⟩
        exact fun ⟨hq, hadmits'⟩ => hnot ⟨hquiet hq, hadmits'.2⟩
    · rw [run_bind_error he]
      exact .inr ⟨⟨e, rfl⟩, ⟨[], List.nil_prefix, trivial, hrecords⟩, fun ⟨hq, hadmits⟩ => hnot ⟨hq, hadmits.1⟩⟩

/-- Additions without trouble write the batches of the blocks one after another. -/
theorem records_addAll {h : History} {s s' : Store} (hrun : (addAll h).run.run s = (.ok (), s')) :
    s'.records = s.records.addAll h := by
  rcases run_addAll_cases s h with ⟨-, -, hrecords, -⟩ | ⟨⟨e, he⟩, -⟩
  · rwa [hrun] at hrecords
  · rw [hrun] at he
    cases he

/-- Every block of some additions without trouble is known after them. -/
theorem exists_knows_addAll {h : History} {s s' : Store} (hrun : (addAll h).run.run s = (.ok (), s')) :
    s'.records.KnowsEach h := records_addAll hrun ▸ Records.knowsEach_addAll s.records h

end Index

/-! ## Queries of any records -/

namespace StoreM

variable {α β : Type} {records : Records}

theorem Answers.bind_error {m : StoreM α} {f : α → StoreM β} {e : IndexError} (hm : m.Answers records (.error e)) :
    (m >>= f).Answers records (.error e) := by
  intro s hs
  obtain ⟨hro, hres⟩ := hm s hs
  rcases hres with herr | ⟨hnq, f, hf⟩
  · rw [run_bind_error herr]
    exact ⟨hro, .inl rfl⟩
  · rw [run_bind_error hf]
    exact ⟨hro, .inr ⟨hnq, f, rfl⟩⟩

/-- On any records the computation writes nothing, and what it comes to is up to the records. -/
def Determined (m : StoreM α) : Prop := ∀ records, ∃ r, m.Answers records r

theorem determined_pure (a : α) : (pure a : StoreM α).Determined := fun _ => ⟨.ok a, answers_pure a⟩

theorem determined_load? [Record α] (k : RecordKey) : (load? α k).Determined := fun _ => ⟨_, answers_load? k⟩

theorem Determined.bind {m : StoreM α} {f : α → StoreM β} (hm : m.Determined) (hf : ∀ a, (f a).Determined) :
    (m >>= f).Determined := by
  intro records
  obtain ⟨r, hr⟩ := hm records
  cases r with
  | error e => exact ⟨.error e, hr.bind_error⟩
  | ok a =>
    obtain ⟨r', hr'⟩ := hf a records
    exact ⟨r', hr.bind hr'⟩

theorem determined_mapM {f : α → StoreM β} (hf : ∀ a, (f a).Determined) (as : List α) : (as.mapM f).Determined := by
  induction as with
  | nil => exact determined_pure _
  | cons a as ih =>
    rw [List.mapM_cons]
    exact (hf a).bind fun b => ih.bind fun bs => determined_pure _

theorem determined_filterAuxM {f : α → StoreM Bool} (hf : ∀ a, (f a).Determined) (as acc : List α) :
    (as.filterAuxM f acc).Determined := by
  induction as generalizing acc with
  | nil => exact determined_pure _
  | cons a as ih => exact (hf a).bind fun b => ih _

theorem determined_filterM {f : α → StoreM Bool} (hf : ∀ a, (f a).Determined) (as : List α) :
    (as.filterM f).Determined :=
  (determined_filterAuxM hf as []).bind fun found => determined_pure found.reverse

/-- On stores with the same records the computation comes to the same, while no read fails. -/
theorem Determined.fst_eq {m : StoreM α} (hm : m.Determined) {s s' : Store} (hrecords : s'.records = s.records)
    (hq : s.reading.Quiet) (hq' : s'.reading.Quiet) : (m.run.run s').1 = (m.run.run s).1 := by
  obtain ⟨r, hr⟩ := hm s.records
  rw [hr.fst_eq hrecords hq', hr.fst_eq rfl hq]

theorem Determined.readOnly {m : StoreM α} (hm : m.Determined) (s : Store) : s.ReadOnly (m.run.run s).2 := by
  obtain ⟨r, hr⟩ := hm s.records
  exact hr.readOnly rfl

end StoreM

namespace Index

theorem determined_locations (channel : String) (window : Option Window) : (locations channel window).Determined := by
  refine (determined_load? _).bind fun all => ?_
  cases window with
  | none => exact determined_pure _
  | some window => exact determined_filterM (fun l => (determined_load? _).bind fun time => determined_pure _) _

theorem determined_channelsOfTopics (topics : List String) (window : Option Window) :
    (channelsOfTopics topics window).Determined :=
  (determined_mapM (fun _ => (determined_load? _).bind fun _ => determined_pure _) topics).bind
    fun _ => determined_pure _

end Index

end Invoicing
