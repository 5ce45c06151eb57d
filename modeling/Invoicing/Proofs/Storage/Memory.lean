import Invoicing.Proofs.Storage
import Invoicing.Storage.Memory
import Mathlib.Data.List.Induction

set_option autoImplicit false

/-! # The storage in memory

The blobs of a table and the positions of their locations stay in step (`BlobTable.InStep`), so every call has a result,
and it is that of the log which the table keeps. This log is made by all that was deposited: a location has the content
and the time of the first deposit with its hash (`BlobLog.find?_ofDeposits`). -/

namespace Invoicing

theorem Window.admits_iff {window : Option Window} {time : Timestamp} :
    Window.admits window time = true ↔ ∀ w ∈ window, w.lower.getD 0 ≤ time ∧ ∀ upper ∈ w.upper, time ≤ upper := by
  simp [Window.admits, Window.contains, Option.all_eq_true]

/-! ## Deposits -/

/-- A content that is brought to the storage, with its time. -/
structure Deposit where
  content : String
  time : Timestamp

namespace Deposit

def location (d : Deposit) : String := ContentHash.ofText d.content

/-- The blob of a deposit that is stored. -/
def blob (d : Deposit) : Blob := ⟨d.location, d.content, .ofTimestamp d.time⟩

/-- The first deposit at a location. -/
def first? (ds : List Deposit) (location : String) : Option Deposit := ds.find? fun d => d.location == location

theorem first?_append_single (ds : List Deposit) (d : Deposit) (location : String) :
    first? (ds ++ [d]) location = (first? ds location).or (if d.location = location then some d else none) := by
  rw [first?, first?, List.find?_append]
  by_cases hlocation : d.location = location <;> simp [hlocation]

theorem mem_of_first? {ds : List Deposit} {location : String} {d : Deposit}
    (h : first? ds location = some d) : d ∈ ds ∧ d.location = location :=
  ⟨List.mem_of_find?_eq_some h, by simpa using List.find?_some h⟩

/-- Every deposit has a first one at its location. -/
theorem exists_first? {ds : List Deposit} {d : Deposit} (hd : d ∈ ds) : ∃ first, first? ds d.location = some first := by
  refine Option.isSome_iff_exists.1 ?_
  rw [first?, List.find?_isSome]
  exact ⟨d, hd, beq_self_eq_true _⟩

end Deposit

/-! ## The log of some deposits -/

namespace BlobLog

/-- The log after some deposits. -/
def ofDeposits (ds : List Deposit) : BlobLog := ds.foldl (fun log d => (log.append d.content d.time).2) .empty

theorem ofDeposits_append_single (ds : List Deposit) (d : Deposit) :
    ofDeposits (ds ++ [d]) = ((ofDeposits ds).append d.content d.time).2 := by
  rw [ofDeposits, List.foldl_append]
  rfl

/-- A location has the blob of the first deposit there. -/
theorem find?_ofDeposits (ds : List Deposit) (location : String) :
    (ofDeposits ds).find? location = (Deposit.first? ds location).map Deposit.blob := by
  induction ds using List.reverseRecOn with
  | nil => rfl
  | append_singleton ds d ih =>
    rw [ofDeposits_append_single, find?_append, ih, Deposit.first?_append_single, ← Deposit.location]
    by_cases hlocation : d.location = location
    · subst hlocation
      cases Deposit.first? ds d.location <;> simp [Deposit.blob]
    · simp [hlocation]

theorem mem_ofDeposits_append {ds es : List Deposit} {blob : Blob} (h : blob ∈ (ofDeposits (ds ++ es)).blobs) :
    blob ∈ (ofDeposits ds).blobs ∨ ∃ e ∈ es, blob = e.blob := by
  induction es using List.reverseRecOn with
  | nil => exact .inl (List.append_nil ds ▸ h)
  | append_singleton es e ih =>
    rw [← List.append_assoc, ofDeposits_append_single] at h
    rcases mem_append h with h | rfl
    · exact (ih h).imp_right fun ⟨d, hd, hblob⟩ => ⟨d, List.mem_append_left _ hd, hblob⟩
    · exact .inr ⟨e, List.mem_append_right _ List.mem_cons_self, rfl⟩

theorem mem_ofDeposits {ds : List Deposit} {blob : Blob} (h : blob ∈ (ofDeposits ds).blobs) :
    ∃ d ∈ ds, blob = d.blob :=
  (@mem_ofDeposits_append [] ds blob h).resolve_left nofun

theorem nodup_ofDeposits (ds : List Deposit) : ((ofDeposits ds).blobs.map (·.location)).Nodup := by
  induction ds using List.reverseRecOn with
  | nil => exact List.nodup_nil
  | append_singleton ds d ih =>
    rw [ofDeposits_append_single]
    exact nodup_append ih d.content d.time

theorem ofDeposits_prefix (ds es : List Deposit) : (ofDeposits ds).blobs <+: (ofDeposits (ds ++ es)).blobs := by
  induction es using List.reverseRecOn with
  | nil => exact (List.append_nil ds).symm ▸ List.prefix_rfl
  | append_singleton es e ih =>
    rw [← List.append_assoc, ofDeposits_append_single]
    exact ih.trans (prefix_append _ _ _)

/-- A location can be read exactly if there is a blob at it. -/
theorem read_eq_ok_iff {log : BlobLog} {location : String} {result : ReadResult} :
    log.read location = .ok result ↔
      ∃ blob, log.find? location = some blob ∧ result = ⟨blob.content, blob.info⟩ := by
  rw [read]
  cases log.find? location <;> simp [eq_comm]

end BlobLog

/-! ## Tables -/

namespace BlobTable

/-- The position of a location is that of the first blob there. -/
def InStep (t : BlobTable) : Prop :=
  ∀ location, t.positions.get? location = t.blobs.findIdx? fun blob => blob.location == location

theorem inStep_empty : empty.InStep := fun location => by simp [empty]

variable {t : BlobTable}

/-- The positions find what a search through the log would find. -/
theorem InStep.blobAt_eq (h : t.InStep) (location : String) : t.blobAt location = some (t.log.find? location) := by
  have hfind : t.log.find? location = t.blobs.find? fun blob => blob.location == location := Array.find?_toList
  rw [hfind, blobAt, h location]
  cases hidx : t.blobs.findIdx? fun blob => blob.location == location with
  | none =>
    have hnone : t.blobs.find? (fun blob => blob.location == location) = none :=
      Array.find?_eq_none.2 fun blob hblob => by simpa using Array.findIdx?_eq_none_iff.1 hidx blob hblob
    rw [hnone]
  | some i =>
    obtain ⟨hi, hblob, hbefore⟩ := Array.findIdx?_eq_some_iff_getElem.1 hidx
    have hsome : t.blobs.find? (fun blob => blob.location == location) = some t.blobs[i] :=
      Array.find?_eq_some_iff_getElem.2 ⟨hblob, i, hi, rfl, fun j hj => by simpa using hbefore j hj⟩
    simp only [hsome, Array.getElem?_eq_getElem hi, Option.map_some]

theorem InStep.read_eq (h : t.InStep) (location : String) : t.read location = some (t.log.read location) := by
  rw [read, h.blobAt_eq, BlobLog.read]
  cases t.log.find? location <;> rfl

/-- A table in step deposits a content as its log does, and stays in step. -/
theorem InStep.append (h : t.InStep) (d : Deposit) :
    ∃ t', t.append d.content d.time = some ((t.log.append d.content d.time).1, t') ∧ t'.InStep ∧
      t'.log = (t.log.append d.content d.time).2 := by
  have hblob := h.blobAt_eq d.location
  simp only [BlobTable.append, BlobLog.append]
  rw [← Deposit.location, hblob]
  cases hfind : t.log.find? d.location with
  | some blob => exact ⟨t, rfl, h, rfl⟩
  | none =>
    refine ⟨_, rfl, fun location => ?_, ?_⟩
    · -- The new blob is the first one at its location, and is put after all others.
      have hnew : t.positions.get? d.location = none := by
        rw [h d.location, Array.findIdx?_eq_none_iff]
        have hnone := List.find?_eq_none.1 hfind
        exact fun blob hmem => by simpa using hnone blob (Array.mem_toList_iff.2 hmem)
      rw [Dict.get?_insert, Array.findIdx?_push, ← h location]
      by_cases hlocation : d.location = location
      · subst hlocation
        simp [hnew]
      · simp [hlocation, Ne.symm hlocation]
    · simp [log, Deposit.location]

/-- Each location has one blob, it is the hash of the blob's content, and its position is that of the blob. -/
structure Consistent (t : BlobTable) : Prop where
  distinct : (t.blobs.toList.map (·.location)).Nodup
  leads : ∀ location i, t.positions.get? location = some i →
    ∃ blob, t.blobs[i]? = some blob ∧ blob.location = location
  led : ∀ i blob, t.blobs[i]? = some blob → t.positions.get? blob.location = some i
  hashed : ∀ blob ∈ t.blobs, blob.location = ContentHash.ofText blob.content

theorem InStep.consistent (h : t.InStep) (hdistinct : (t.blobs.toList.map (·.location)).Nodup)
    (hhashed : ∀ blob ∈ t.blobs, blob.location = ContentHash.ofText blob.content) : t.Consistent where
  distinct := hdistinct
  leads location i hi := by
    rw [h location] at hi
    obtain ⟨hlt, hblob, -⟩ := Array.findIdx?_eq_some_iff_getElem.1 hi
    exact ⟨t.blobs[i], Array.getElem?_eq_getElem hlt, by simpa using hblob⟩
  led i blob hi := by
    obtain ⟨hlt, rfl⟩ := Array.getElem?_eq_some_iff.1 hi
    rw [h, Array.findIdx?_eq_some_iff_getElem]
    refine ⟨hlt, beq_self_eq_true _, fun j hj hsame => ?_⟩
    -- Two blobs at one location would list it twice.
    have hne := List.pairwise_iff_getElem.1 hdistinct j i (by simp; omega) (by simpa using hlt) hj
    exact hne (by simpa using hsame)
  hashed := hhashed

end BlobTable

/-! ## Runs -/

namespace MemoryStorage

namespace Act

/-- The clock after an act. -/
def clockAfter (clock : Clock) : Act → Clock
  | setClock now => clock.set now
  | advanceClock seconds => clock.advance seconds
  | _ => clock

/-- What an act brings to the storage. -/
def deposit? (clock : Clock) : Act → Option Deposit
  | append content => some ⟨content, clock.now⟩
  | appendAt content time => some ⟨content, time⟩
  | _ => none

end Act

/-- All that acts bring to the storage. -/
def deposits (clock : Clock) : List Act → List Deposit
  | [] => []
  | a :: acts => (a.deposit? clock).toList ++ deposits (a.clockAfter clock) acts

/-- The storage holds some deposits. -/
structure Holds (s : MemoryStorage) (ds : List Deposit) : Prop where
  inStep : s.table.InStep
  log_eq : s.table.log = .ofDeposits ds

theorem holds_new (now : Timestamp) : (new now).Holds [] := ⟨BlobTable.inStep_empty, rfl⟩

variable {s : MemoryStorage} {ds : List Deposit}

namespace Holds

variable (h : s.Holds ds)

include h

theorem store (d : Deposit) :
    ∃ table, s.store d.content d.time =
        some (.stored (s.table.log.append d.content d.time).1, { s with table }) ∧
      ({ s with table } : MemoryStorage).Holds (ds ++ [d]) := by
  obtain ⟨table, happend, hinStep, hlog⟩ := h.inStep.append d
  refine ⟨table, by rw [MemoryStorage.store, happend]; rfl, hinStep, ?_⟩
  rw [BlobLog.ofDeposits_append_single, ← h.log_eq]
  exact hlog

/-- An act that leaves the table alone deposits nothing. -/
theorem kept {s' : MemoryStorage} (htable : s'.table = s.table) : s'.Holds (ds ++ (none : Option Deposit).toList) := by
  rw [Option.toList_none, List.append_nil]
  exact ⟨htable ▸ h.inStep, htable ▸ h.log_eq⟩

theorem act_read (location : String) :
    s.act (.read location) = some (.content (s.table.log.read location), s) := by
  rw [MemoryStorage.act, h.inStep.read_eq]
  rfl

/-- Every act has an answer. -/
theorem act (a : Act) :
    ∃ answer s', s.act a = some (answer, s') ∧ s'.Holds (ds ++ (a.deposit? s.clock).toList) ∧
      s'.clock = a.clockAfter s.clock := by
  cases a with
  | append content =>
    obtain ⟨table, hstore, hholds⟩ := h.store ⟨content, s.clock.now⟩
    exact ⟨_, _, hstore, hholds, rfl⟩
  | appendAt content time =>
    obtain ⟨table, hstore, hholds⟩ := h.store ⟨content, time⟩
    exact ⟨_, _, hstore, hholds, rfl⟩
  | read location => exact ⟨_, s, h.act_read location, h.kept rfl, rfl⟩
  | data window =>
    rw [MemoryStorage.act]
    split <;> exact ⟨_, _, rfl, h.kept rfl, rfl⟩
  | setClock now => exact ⟨_, _, rfl, h.kept rfl, rfl⟩
  | advanceClock seconds => exact ⟨_, _, rfl, h.kept rfl, rfl⟩
  | failData count => exact ⟨_, _, rfl, h.kept rfl, rfl⟩

omit h in
/-- Every run has answers, and leaves all that it deposits. -/
theorem run (h : s.Holds ds) (acts : List Act) :
    ∃ answers s', s.run acts = some (answers, s') ∧ s'.Holds (ds ++ deposits s.clock acts) ∧
      s'.clock = acts.foldl Act.clockAfter s.clock := by
  induction acts generalizing s ds with
  | nil => exact ⟨[], s, rfl, by simpa [deposits] using h, rfl⟩
  | cons a acts ih =>
    obtain ⟨answer, s₁, hact, hholds, hclock⟩ := h.act a
    obtain ⟨answers, s', hrun, hholds', hclock'⟩ := ih hholds
    refine ⟨answer :: answers, s', ?_, ?_, ?_⟩
    · simp [MemoryStorage.run, hact, hrun]
    · simpa [deposits, hclock] using hholds'
    · simpa [hclock] using hclock'

theorem blobs_eq : s.table.blobs.toList = (BlobLog.ofDeposits ds).blobs := congrArg BlobLog.blobs h.log_eq

theorem consistent : s.table.Consistent := by
  refine h.inStep.consistent ?_ fun blob hblob => ?_
  · rw [h.blobs_eq]
    exact BlobLog.nodup_ofDeposits ds
  · obtain ⟨d, -, rfl⟩ := BlobLog.mem_ofDeposits (h.blobs_eq ▸ Array.mem_toList_iff.2 hblob)
    rfl

end Holds

theorem run_append (s : MemoryStorage) (acts more : List Act) :
    s.run (acts ++ more) = (s.run acts).bind fun (answers, s') =>
      (s'.run more).map fun (answers', s'') => (answers ++ answers', s'') := by
  induction acts generalizing s with
  | nil => simp [run]
  | cons a acts ih =>
    rw [List.cons_append, run, run]
    cases s.act a with
    | none => rfl
    | some out =>
      simp only [Option.bind_eq_bind, Option.bind_some, ih, Option.bind_assoc, Option.map_eq_bind]
      rfl

/-! ## What the storage promises -/

/-- Is there a blob at a location? -/
def Stored (s : MemoryStorage) (location : String) : Prop := ∃ blob ∈ s.table.blobs, blob.location = location

theorem stored_iff {location : String} : s.Stored location ↔ (s.table.log.find? location).isSome := by
  rw [BlobLog.find?, List.find?_isSome]
  simp [Stored, BlobTable.log]

/-- A deposit, which an act brings after the deposits `ds`, is answered with the hash of its content and the time of the
first deposit with this hash. A blob is added, after all others, if this is the first one. -/
def Stores (s : MemoryStorage) (ds : List Deposit) (a : Act) (d : Deposit) : Prop :=
  ∃ first s', Deposit.first? (ds ++ [d]) d.location = some first ∧
    s.act a = some (.stored ⟨ContentHash.ofText d.content, .ofTimestamp first.time⟩, s') ∧
    (s.Stored d.location → s'.table.blobs = s.table.blobs) ∧
    (¬ s.Stored d.location → s'.table.blobs = s.table.blobs.push d.blob)

/-- A location can be read exactly if there is a blob at it, and what is read has it as its hash. -/
def Reads (s : MemoryStorage) (location : String) : Prop :=
  ∃ result, s.act (.read location) = some (.content result, s) ∧
    ((∃ r, result = .ok r) ↔ s.Stored location) ∧ ∀ r, result = .ok r → ContentHash.ofText r.content = location

/-- A deposit with the hash of no other content is read as it was brought. -/
def Returns (s : MemoryStorage) (ds : List Deposit) (d : Deposit) : Prop :=
  (∀ e ∈ ds, e.location = d.location → e.content = d.content) →
    ∃ first, Deposit.first? ds d.location = some first ∧
      s.act (.read d.location) = some (.content (.ok ⟨d.content, .ofTimestamp first.time⟩), s)

/-- A query for data that does not fail is answered with the blobs of the window, each once and in their order, in three
lists side by side. -/
structure Selects (s : MemoryStorage) (window : Option Window) : Prop where
  answered : s.faults.failing = false → ∃ blobs : List Blob, ∃ s',
    s.act (.data window) = some (.data (.ok {
      contents := some (blobs.map (·.content))
      locations := some (blobs.map (·.location))
      lastTimestamp := (window.bind (·.upper)).getD s.clock.now
      infos := blobs.map (·.info) }), s') ∧
    s'.table = s.table ∧ blobs.Sublist s.table.blobs.toList ∧ (blobs.map (·.location)).Nodup ∧
    ∀ blob, blob ∈ blobs ↔ blob ∈ s.table.blobs ∧ ∀ w ∈ window,
      w.lower.getD 0 ≤ blob.info.timestamp ∧ ∀ upper ∈ w.upper, blob.info.timestamp ≤ upper
  failed : s.faults.failing = true → ∃ s',
    s.act (.data window) = some (.data (.error (.unavailable "injected get_data failure")), s') ∧
      s'.table = s.table

namespace Holds

variable (h : s.Holds ds)

include h

theorem find?_eq (location : String) : s.table.log.find? location = (Deposit.first? ds location).map Deposit.blob := by
  rw [h.log_eq, BlobLog.find?_ofDeposits]

theorem stores {a : Act} {d : Deposit} (ha : a.deposit? s.clock = some d) : s.Stores ds a d := by
  obtain ⟨table, hstore, hholds⟩ := h.store d
  have hact : s.act a = s.store d.content d.time := by
    cases a <;> simp only [Act.deposit?, Option.some.injEq, reduceCtorEq] at ha <;> subst ha <;> rfl
  obtain ⟨first, hfirst⟩ := Deposit.exists_first? (List.mem_append_right ds (List.mem_singleton_self d))
  -- The time of the answer is that of the blob which is at the location now.
  have hanswer : (s.table.log.append d.content d.time).1 = ⟨d.location, .ofTimestamp first.time⟩ := by
    rw [BlobLog.fst_append, ← Deposit.location, h.find?_eq]
    rw [Deposit.first?_append_single] at hfirst
    cases hbefore : Deposit.first? ds d.location <;> rw [hbefore] at hfirst <;> simp_all [Deposit.blob]
  have hblobs : table.blobs.toList = (s.table.log.append d.content d.time).2.blobs := by
    rw [hholds.blobs_eq, BlobLog.ofDeposits_append_single, ← h.log_eq]
  rw [BlobLog.blobs_append, ← Deposit.location] at hblobs
  refine ⟨first, _, hfirst, by rw [hact, hstore, hanswer]; rfl, fun hstored => ?_, fun hstored => ?_⟩
  · rw [if_pos (stored_iff.1 hstored)] at hblobs
    exact Array.toList_inj.1 hblobs
  · rw [if_neg fun hsome => hstored (stored_iff.2 hsome)] at hblobs
    exact Array.toList_inj.1 (by rw [hblobs, Array.toList_push]; rfl)

theorem reads (location : String) : s.Reads location := by
  refine ⟨_, h.act_read location, ?_, fun r hr => ?_⟩
  · rw [stored_iff, Option.isSome_iff_exists]
    constructor
    · rintro ⟨r, hr⟩
      obtain ⟨blob, hblob, -⟩ := BlobLog.read_eq_ok_iff.1 hr
      exact ⟨blob, hblob⟩
    · rintro ⟨blob, hblob⟩
      exact ⟨_, BlobLog.read_eq_ok_iff.2 ⟨blob, hblob, rfl⟩⟩
  · obtain ⟨blob, hblob, rfl⟩ := BlobLog.read_eq_ok_iff.1 hr
    rw [h.find?_eq, Option.map_eq_some_iff] at hblob
    obtain ⟨d, hd, rfl⟩ := hblob
    exact (Deposit.mem_of_first? hd).2

theorem returns {d : Deposit} (hd : d ∈ ds) : s.Returns ds d := by
  intro hfree
  obtain ⟨first, hfirst⟩ := Deposit.exists_first? hd
  obtain ⟨hmem, hlocation⟩ := Deposit.mem_of_first? hfirst
  refine ⟨first, hfirst, ?_⟩
  have hread : s.table.log.read d.location = .ok ⟨first.content, .ofTimestamp first.time⟩ :=
    BlobLog.read_eq_ok_iff.2 ⟨first.blob, by rw [h.find?_eq, hfirst]; rfl, rfl⟩
  rw [h.act_read, hread, hfree first hmem hlocation]

theorem selects (window : Option Window) : s.Selects window where
  answered hquiet := by
    refine ⟨s.table.log.select window, { s with faults := s.faults.tick }, ?_, rfl, List.filter_sublist, ?_, ?_⟩
    · rw [MemoryStorage.act, hquiet]
      rfl
    · exact h.consistent.distinct.sublist (List.filter_sublist.map _)
    · intro blob
      rw [BlobLog.select, List.mem_filter, Window.admits_iff]
      simp [BlobTable.log]
  failed hfailing := ⟨{ s with faults := s.faults.tick }, by rw [MemoryStorage.act, if_pos hfailing], rfl⟩

omit h in
/-- Nothing that is stored is changed or lost. -/
theorem blobs_prefix (h : s.Holds ds) {s' : MemoryStorage} {es : List Deposit} (h' : s'.Holds (ds ++ es)) :
    s.table.blobs.toList <+: s'.table.blobs.toList := by
  rw [h.blobs_eq, h'.blobs_eq]
  exact BlobLog.ofDeposits_prefix ds es

end Holds

/-- Queries fail only if they are told to. -/
theorem quiet_act {a : Act} {answer : Answer} {s' : MemoryStorage} (hact : s.act a = some (answer, s'))
    (hquiet : s.faults.Quiet) (ha : ∀ count, .failData count ≠ a) : s'.faults.Quiet := by
  have hstore : ∀ content time, s.store content time = some (answer, s') → s'.faults.Quiet := by
    intro content time hs
    obtain ⟨⟨result, table⟩, -, hs⟩ := Option.bind_eq_some_iff.1 hs
    cases hs
    exact hquiet
  cases a with
  | append content => exact hstore _ _ hact
  | appendAt content time => exact hstore _ _ hact
  | read location =>
    obtain ⟨result, -, hs⟩ := Option.map_eq_some_iff.1 hact
    cases hs
    exact hquiet
  | data window =>
    rw [act, hquiet.failing] at hact
    cases hact
    exact hquiet.tick
  | setClock now => cases hact; exact hquiet
  | advanceClock seconds => cases hact; exact hquiet
  | failData count => exact absurd rfl (ha count)

theorem quiet_run {acts : List Act} {answers : List Answer} {s' : MemoryStorage}
    (hrun : s.run acts = some (answers, s')) (hquiet : s.faults.Quiet)
    (hacts : ∀ count, .failData count ∉ acts) : s'.faults.Quiet := by
  induction acts generalizing s answers with
  | nil => cases hrun; exact hquiet
  | cons a acts ih =>
    obtain ⟨⟨answer, s₁⟩, hact, hrun⟩ := Option.bind_eq_some_iff.1 hrun
    obtain ⟨⟨answers', s₂⟩, hrun, heq⟩ := Option.bind_eq_some_iff.1 hrun
    cases heq
    exact ih hrun (quiet_act hact hquiet fun count h => hacts count (h ▸ List.mem_cons_self))
      fun count h => hacts count (List.mem_cons_of_mem _ h)

/-- The storage is an append-only log in which each content is found under its hash. -/
theorem append_only (start : Timestamp) (acts : List Act) :
    let ds := deposits ⟨start⟩ acts
    ∃ answers s, (new start).run acts = some (answers, s) ∧ s.clock = acts.foldl Act.clockAfter ⟨start⟩ ∧
      s.table.Consistent ∧
      (∀ more, ∃ answers' s', (new start).run (acts ++ more) = some (answers ++ answers', s') ∧
        s.table.blobs.toList <+: s'.table.blobs.toList) ∧
      (∀ location, s.Reads location) ∧
      (∀ a d, a.deposit? s.clock = some d → s.Stores ds a d) ∧
      (∀ d ∈ ds, s.Returns ds d) ∧
      (∀ window, s.Selects window) ∧
      ((∀ count, .failData count ∉ acts) → s.faults.failing = false) := by
  intro ds
  obtain ⟨answers, s, hrun, hholds, hclock⟩ := (holds_new start).run acts
  refine ⟨answers, s, hrun, hclock, hholds.consistent, fun more => ?_, hholds.reads,
    fun a d ha => hholds.stores ha, fun d hd => hholds.returns hd, hholds.selects, fun hquiet => ?_⟩
  · obtain ⟨answers', s', hrun', hholds', -⟩ := hholds.run more
    refine ⟨answers', s', ?_, hholds.blobs_prefix hholds'⟩
    simp [run_append, hrun, hrun']
  · exact (quiet_run hrun Faults.quiet_never hquiet).failing

/-- A content that comes again keeps its first time. -/
theorem append_only_again :
    ∃ answers s, (new 10).run [.append "same", .setClock 20, .append "same"] = some (answers, s) ∧
      s.act (.read (ContentHash.ofText "same")) = some (.content (.ok ⟨"same", .ofTimestamp 10⟩), s) := by
  obtain ⟨answers, s, hrun, -, -, -, -, -, hreturns, -, -⟩ :=
    append_only 10 [.append "same", .setClock 20, .append "same"]
  have hsame : ∀ e ∈ deposits ⟨10⟩ [.append "same", .setClock 20, .append "same"], e.content = "same" := by
    simp [deposits, Act.deposit?]
  obtain ⟨first, hfirst, hread⟩ :=
    hreturns ⟨"same", 20⟩ (List.mem_cons_of_mem _ List.mem_cons_self) fun e he _ => hsame e he
  have hten : first = ⟨"same", 10⟩ := by
    simpa [Deposit.first?, deposits, Act.deposit?, Deposit.location, eq_comm] using hfirst
  exact ⟨answers, s, hrun, by rw [hten] at hread; exact hread⟩

end MemoryStorage

end Invoicing
