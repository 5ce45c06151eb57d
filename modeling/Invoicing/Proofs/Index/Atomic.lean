import Invoicing.Proofs.Index.Replay

set_option autoImplicit false

/-! # A block, whole or not at all

Whatever the store holds and whichever of its calls fail, adding a block changes nothing or writes its one batch, and
touches no record but those that the block needs (`Index.add_atomic`). These are read in a fixed order before anything is
written, so the first read that goes wrong decides the error: with the store's failure, or with the key of a record
that spells no value. -/

namespace Invoicing

open Effect

/-! ## Reading some records in a row -/

/-- Do the bytes spell a value of the kind that is kept under the key? -/
def RecordKey.spells (k : RecordKey) (bytes : List UInt8) : Bool :=
  match k with
  | .location _ | .lastTimestamp => (Record.decode? bytes : Option Timestamp).isSome
  | .channel _ => (Record.decode? bytes : Option (List String)).isSome
  | .topic _ => (Record.decode? bytes : Option (Dict String Timestamp)).isSome

/-- There is no record under the key, or one that spells a value. -/
def Records.isSpelled (records : Records) (k : RecordKey) : Bool := (records.get? k.bytes).all k.spells

namespace Store

/-- What goes wrong first when some records are read one after another. -/
def trouble? (s : Store) : List RecordKey → Option IndexError
  | [] => none
  | k :: rest =>
    match s.get k.bytes with
    | (.error failure, _) => some (.store failure)
    | (.ok found, s) => if found.all k.spells then s.trouble? rest else some (.corrupted k.text)

/-- The store after some reads. -/
def afterReads (s : Store) (keys : List RecordKey) : Store :=
  keys.foldl (fun s k => (s.get k.bytes).2) s

variable {s : Store}

theorem trouble?_append (keys more : List RecordKey) :
    s.trouble? (keys ++ more) = (s.trouble? keys).or ((s.afterReads keys).trouble? more) := by
  induction keys generalizing s with
  | nil => rfl
  | cons k keys ih =>
    simp only [List.cons_append, trouble?, afterReads, List.foldl_cons]
    cases hget : s.get k.bytes with
    | mk answer s' =>
      cases answer with
      | error failure => rfl
      | ok found =>
        by_cases hspells : found.all k.spells
        · simp only [if_pos hspells]
          exact ih
        · simp only [if_neg hspells, Option.some_or]

theorem afterReads_append (keys more : List RecordKey) :
    s.afterReads (keys ++ more) = (s.afterReads keys).afterReads more := List.foldl_append

theorem get_ok {key : Key} {found : Option (List UInt8)} (h : (s.get key).1 = .ok found) :
    found = s.records.get? key := by
  rw [get] at h
  split at h
  · cases h
  · exact (Except.ok.inj h).symm

theorem records_get (s : Store) (key : Key) : (s.get key).2.records = s.records := by
  rw [get]
  split <;> rfl

/-- Records that are read without trouble spell values. -/
theorem spells_of_trouble? {keys : List RecordKey} (h : s.trouble? keys = none) :
    ∀ k ∈ keys, s.records.isSpelled k = true := by
  induction keys generalizing s with
  | nil =>
    intro k hk
    cases hk
  | cons k keys ih =>
    rw [trouble?] at h
    split at h
    · cases h
    · next found s' hget =>
      have hfound : found = s.records.get? k.bytes := get_ok (congrArg Prod.fst hget)
      have hrecords : s'.records = s.records := by rw [← records_get s k.bytes, hget]
      split at h
      · next hspells =>
        intro k' hk'
        rcases List.mem_cons.1 hk' with rfl | hk'
        · rwa [Records.isSpelled, ← hfound]
        · exact hrecords ▸ ih h k' hk'
      · cases h

/-- While no read fails, the trouble is the first record that spells no value. -/
theorem trouble?_of_quiet (hquiet : s.reading.Quiet) (keys : List RecordKey) :
    s.trouble? keys = (keys.find? fun k => !s.records.isSpelled k).map fun k => .corrupted k.text := by
  induction keys generalizing s with
  | nil => rfl
  | cons k keys ih =>
    have hget : s.get k.bytes = (.ok (s.records.get? k.bytes), { s with reading := s.reading.tick }) := by
      rw [get, hquiet.failing, if_neg Bool.false_ne_true]
    rw [trouble?, hget, List.find?_cons, Records.isSpelled]
    cases hspells : (s.records.get? k.bytes).all k.spells with
    | true => simpa [hspells] using @ih { s with reading := s.reading.tick } hquiet.tick
    | false => simp [hspells]

end Store

namespace StoreM

variable {α β : Type}

/-- The computation does nothing but read these records in a row: it ends with the first trouble, or else comes to a
value. -/
def ReadsInRow (m : StoreM α) (keys : List RecordKey) : Prop :=
  ∀ s : Store, match s.trouble? keys with
    | some e => (m.run.run s).1 = .error e
    | none => ∃ a, m.run.run s = (.ok a, s.afterReads keys)

theorem readsInRow_pure (a : α) : (pure a : StoreM α).ReadsInRow [] := fun _ => ⟨a, rfl⟩

theorem ReadsInRow.bind {m : StoreM α} {f : α → StoreM β} {keys more : List RecordKey} (hm : m.ReadsInRow keys)
    (hf : ∀ a, (f a).ReadsInRow more) : (m >>= f).ReadsInRow (keys ++ more) := by
  intro s
  have hms := hm s
  rw [Store.trouble?_append]
  cases htrouble : s.trouble? keys with
  | some e =>
    rw [htrouble] at hms
    exact congrArg Prod.fst (run_bind_error hms)
  | none =>
    rw [htrouble] at hms
    obtain ⟨a, ha⟩ := hms
    rw [Option.none_or, Store.afterReads_append, run_bind_ok (congrArg Prod.fst ha), ha]
    exact hf a _

/-- What is made of the values takes no further read. -/
theorem ReadsInRow.bind_pure {m : StoreM α} {f : α → StoreM β} {keys : List RecordKey} (hm : m.ReadsInRow keys)
    (hf : ∀ a, (f a).ReadsInRow []) : (m >>= f).ReadsInRow keys := by
  simpa using hm.bind hf

theorem readsInRow_load? [Record α] {k : RecordKey}
    (hk : ∀ bytes, k.spells bytes = (Record.decode? bytes : Option α).isSome) : (load? α k).ReadsInRow [k] := by
  intro s
  rw [load?, run_bind_ok (congrArg Prod.fst (run_modifyGet _ s)), run_modifyGet]
  simp only [Store.trouble?, Store.afterReads, List.foldl_cons, List.foldl_nil]
  rcases hget : s.get k.bytes with ⟨answer, s'⟩
  rcases answer with failure | _ | bytes
  · rfl
  · exact ⟨none, rfl⟩
  · cases hdecode : (Record.decode? bytes : Option α) with
    | none =>
      simp only [Option.all_some, hk, hdecode]
      rfl
    | some a =>
      simp only [Option.all_some, hk, hdecode]
      exact ⟨some a, rfl⟩

theorem readsInRow_mapM {f : α → StoreM β} {key : α → RecordKey} (hf : ∀ a, (f a).ReadsInRow [key a]) (as : List α) :
    (as.mapM f).ReadsInRow (as.map key) := by
  induction as with
  | nil => exact readsInRow_pure _
  | cons a as ih =>
    rw [List.mapM_cons]
    exact (hf a).bind fun b => ih.bind_pure fun bs => readsInRow_pure _

theorem readsInRow_filterMapM {f : α → StoreM (Option β)} {key : α → RecordKey}
    (hf : ∀ a, (f a).ReadsInRow [key a]) (as : List α) : (as.filterMapM f).ReadsInRow (as.map key) := by
  induction as with
  | nil => exact readsInRow_pure _
  | cons a as ih =>
    rw [List.filterMapM_cons]
    refine (hf a).bind fun b => ?_
    cases b with
    | none => exact ih
    | some b => exact ih.bind_pure fun bs => readsInRow_pure _

end StoreM

open StoreM

/-! ## The reads of a block -/

namespace Index

/-- The records that a block needs, in the order in which they are read. -/
def needs (location : String) (header : BlockHeader) : List RecordKey :=
  .location location :: (header.channels.keys.map .channel ++ ((topicsOf header).map .topic ++ [.lastTimestamp]))

variable {location : String} {header : BlockHeader} {timestamp : Timestamp}

theorem readsInRow_channelWrite? (location channel : String) :
    (channelWrite? location channel).ReadsInRow [.channel channel] := by
  refine (readsInRow_load? fun _ => rfl).bind_pure fun locations => ?_
  show StoreM.ReadsInRow (if (locations.getD []).contains location then pure none else pure (some _)) []
  split
  · exact readsInRow_pure _
  · exact readsInRow_pure _

theorem readsInRow_changes (location : String) (header : BlockHeader) (timestamp : Timestamp) :
    (changes location header timestamp).ReadsInRow (needs location header) := by
  have hlocation : (load? Timestamp (.location location)).ReadsInRow [.location location] :=
    readsInRow_load? fun _ => rfl
  refine hlocation.bind fun known => ?_
  refine (readsInRow_filterMapM (readsInRow_channelWrite? location) _).bind fun channels => ?_
  refine (readsInRow_mapM (fun topic => ?_) _).bind fun topics => ?_
  · exact (readsInRow_load? fun _ => rfl).bind_pure fun latest => readsInRow_pure _
  · exact (readsInRow_load? fun _ => rfl).bind_pure fun last => readsInRow_pure _

theorem mem_needs {k : RecordKey} :
    k ∈ needs location header ↔ match k with
      | .location l => l = location
      | .channel channel => channel ∈ header.channels.keys
      | .topic topic => topic ∈ topicsOf header
      | .lastTimestamp => True := by
  cases k <;> simp [needs]

/-- Only records that the block needs are written. -/
theorem mem_needs_of_written? {records : Records} {k : RecordKey} {bytes : List UInt8}
    (h : records.written? location header timestamp k = some bytes) : k ∈ needs location header := by
  rw [mem_needs]
  cases k with
  | location l => exact (Option.ite_some_none_eq_some.1 h).1.1
  | channel channel => exact Dict.mem_keys_iff.2 (Option.ite_some_none_eq_some.1 h).1.1
  | topic topic => exact (Option.ite_some_none_eq_some.1 h).1
  | lastTimestamp => trivial

theorem readableFor_of_trouble? {s : Store} (h : s.trouble? (needs location header) = none) :
    s.records.ReadableFor location header := by
  have hspells (k : RecordKey) (hk : k ∈ needs location header) (bytes : List UInt8)
      (hbytes : s.records.get? k.bytes = some bytes) : k.spells bytes = true := by
    simpa [Records.isSpelled, hbytes] using Store.spells_of_trouble? h k hk
  exact ⟨hspells (.location location) (mem_needs.2 rfl), fun c hc => hspells (.channel c) (mem_needs.2 hc),
    fun t ht => hspells (.topic t) (mem_needs.2 ht), hspells .lastTimestamp (mem_needs.2 trivial)⟩

/-- The first trouble with the reads ends everything, and no write is tried. -/
theorem run_add_of_trouble? {s : Store} (timestamp : Timestamp) {e : IndexError}
    (h : s.trouble? (needs location header) = some e) :
    ((add location header timestamp).run.run s).1 = .error e ∧
      s.ReadOnly ((add location header timestamp).run.run s).2 := by
  have hreads := readsInRow_changes location header timestamp s
  rw [h] at hreads
  rw [add, run_bind_error hreads]
  exact ⟨rfl, readsOnly_changes location header timestamp s⟩

/-- Without trouble with the reads, the batch of the block is all that is left to do. -/
theorem run_add_of_readable {s : Store} (timestamp : Timestamp) (h : s.trouble? (needs location header) = none) :
    ∃ s', s.ReadOnly s' ∧ (add location header timestamp).run.run s =
      (commit (s.records.batchFor location header timestamp)).run.run s' := by
  have hreads := readsInRow_changes location header timestamp s
  rw [h] at hreads
  obtain ⟨batch, hbatch⟩ := hreads
  have hanswers := answers_changes (readableFor_of_trouble? h) timestamp
  rcases (hanswers s rfl).2 with hok | ⟨-, f, hf⟩
  · exact ⟨_, hanswers.readOnly rfl, by rw [add, run_bind_ok hok]⟩
  · rw [hbatch] at hf
    cases hf

end Index

/-! ## The write of a block -/

/-- How many batches took effect: one at most, and none on an error. -/
theorem StoreM.writes_commit (batch : Batch) (s : Store) :
    let out := (commit batch).run.run s
    out.1 = .ok () ∧ out.2.records = s.records.write batch ∧
        out.2.writes = s.writes + (if batch.isEmpty then 0 else 1) ∨
      (∃ e, out.1 = .error e) ∧ out.2.records = s.records ∧ out.2.writes = s.writes := by
  intro out
  have hout : out = _ := run_commit_eq batch s
  cases batch with
  | nil => exact .inl ⟨rfl, rfl, rfl⟩
  | cons w rest =>
    rw [hout, List.isEmpty_cons, if_neg Bool.false_ne_true, if_neg Bool.false_ne_true, Store.write]
    split
    · exact .inr ⟨⟨_, rfl⟩, rfl, rfl⟩
    · exact .inl ⟨rfl, rfl, rfl⟩

namespace Index

variable {location : String} {header : BlockHeader}

/-- Adding a block changes nothing, or writes one batch that touches no record but those that the block needs. The first
read that goes wrong decides the error, and one does whenever a record that is needed spells no value. -/
theorem add_atomic (s : Store) (location : String) (header : BlockHeader) (timestamp : Timestamp) :
    let out := (add location header timestamp).run.run s
    let needed := needs location header
    (∀ e, out.1 = .error e → out.2.records = s.records ∧ out.2.writes = s.writes) ∧
    (out.1 = .ok () →
      (∃ batch : Batch, out.2.records = s.records.write batch ∧
        out.2.writes = s.writes + (if batch.isEmpty then 0 else 1)) ∧
      ∀ key, out.2.records.get? key ≠ s.records.get? key → ∃ k ∈ needed, k.bytes = key) ∧
    (∀ k ∈ needed, s.records.isSpelled k = false → ∃ e, s.trouble? needed = some e) ∧
    (∀ e, s.trouble? needed = some e → out.1 = .error e ∧ out.2.records = s.records ∧ out.2.writing = s.writing) ∧
    (s.reading.Quiet → ∀ k, (needed.find? fun k => !s.records.isSpelled k) = some k →
      out.1 = .error (.corrupted k.text)) := by
  intro out needed
  cases htrouble : s.trouble? needed with
  | some e =>
    obtain ⟨herror, hro⟩ := run_add_of_trouble? timestamp htrouble
    refine ⟨fun _ _ => ⟨hro.records, hro.writes⟩, fun hok => ?_, fun _ _ _ => ⟨e, rfl⟩, fun e' he' => ?_,
      fun hquiet k hk => ?_⟩
    · exact absurd (hok.symm.trans herror) nofun
    · cases he'
      exact ⟨herror, hro.records, hro.writing⟩
    · rw [Store.trouble?_of_quiet hquiet, hk] at htrouble
      cases htrouble
      exact herror
  | none =>
    have hspells := Store.spells_of_trouble? htrouble
    obtain ⟨s', hro, hout⟩ := run_add_of_readable timestamp htrouble
    have hcommit := writes_commit (s.records.batchFor location header timestamp) s'
    rw [← hout, hro.records, hro.writes] at hcommit
    refine ⟨fun e he => ?_, fun hok => ?_, fun k hk hnot => ?_, nofun, fun hquiet k hk => ?_⟩
    · obtain ⟨hok, -⟩ | ⟨-, hsame⟩ := hcommit
      · exact absurd (hok.symm.trans he) nofun
      · exact hsame
    · obtain ⟨-, hrecords, hwrites⟩ | ⟨⟨e, he⟩, -⟩ := hcommit
      · refine ⟨⟨_, hrecords, hwrites⟩, fun key hkey => ?_⟩
        by_contra hnone
        refine hkey ?_
        rw [hrecords]
        refine Dict.get?_foldl_insert_of_not_mem _ fun bytes hbytes => ?_
        obtain ⟨k, hk, hwritten⟩ := Records.mem_batchFor.1 hbytes
        exact hnone ⟨k, mem_needs_of_written? hwritten, hk⟩
      · exact absurd (hok.symm.trans he) nofun
    · exact absurd (hspells k hk) (by simp [hnot])
    · rw [Store.trouble?_of_quiet hquiet, hk] at htrouble
      cases htrouble

/-- A store in which the record of the trial's topic is cut off, and whose next `failures` reads fail. -/
def trialCut (failures : Nat) : Store := (Store.empty.poke (RecordKey.topic "t").bytes [1]).failReads failures

/-- The record that is cut off is named, and the store is left as it was. -/
theorem add_atomic_trial : (trialCut 0).trouble? (needs "l" trialHeader) = some (.corrupted "topic:t") ∧
    ((add "l" trialHeader 5).run.run (trialCut 0)).1 = .error (.corrupted "topic:t") ∧
    ((add "l" trialHeader 5).run.run (trialCut 0)).2.records = (trialCut 0).records := by
  have htrouble : (trialCut 0).trouble? (needs "l" trialHeader) = some (.corrupted "topic:t") := by decide +kernel
  obtain ⟨-, -, -, htroubled, -⟩ := add_atomic (trialCut 0) "l" trialHeader 5
  obtain ⟨herror, hrecords, -⟩ := htroubled _ htrouble
  exact ⟨htrouble, herror, hrecords⟩

/-- A record that spells no value is not named when a read fails before it is reached. -/
theorem not_corrupted_of_failing_read :
    ¬ ∀ (s : Store) (location : String) (header : BlockHeader) (timestamp : Timestamp),
      ∀ k ∈ needs location header, s.records.isSpelled k = false →
        ((add location header timestamp).run.run s).1 = .error (.corrupted k.text) := by
  intro h
  have hnamed := h (trialCut 1) "l" trialHeader 5 (.topic "t") (by decide +kernel) (by decide +kernel)
  have hfailed : (trialCut 1).trouble? (needs "l" trialHeader) = some (.store ⟨"injected get failure"⟩) := by
    decide +kernel
  rw [(run_add_of_trouble? 5 hfailed).1] at hnamed
  cases hnamed

end Index

end Invoicing
