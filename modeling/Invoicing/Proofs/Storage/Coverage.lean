import Invoicing.Proofs.Storage.Memory

set_option autoImplicit false

/-! # What an answer for data covers

An answer for data reports the upper end of its window, or the time of the clock if the window has none, as the time up
to which it is known what is stored. As long as nobody sets the clock back, this is so if the reported time is not later
than the clock (`MemoryStorage.covered_settled`): whatever is appended afterwards has a time from then on. A window that
ends ahead of the clock is reported as covered too, and is not: the clock has yet to come through it, and a content that
is appended on the way is in the window and not in the answer. -/

namespace Invoicing.MemoryStorage

/-- No act sets the clock back. -/
def Forward (clock : Clock) : List Act → Prop
  | [] => True
  | a :: acts => clock.now ≤ (a.clockAfter clock).now ∧ Forward (a.clockAfter clock) acts

theorem Forward.le {clock : Clock} {acts : List Act} (h : Forward clock acts) :
    clock.now ≤ (acts.foldl Act.clockAfter clock).now := by
  induction acts generalizing clock with
  | nil => exact UInt64.le_refl _
  | cons a acts ih => exact UInt64.le_trans h.1 (ih h.2)

/-- Whatever is deposited has a time from the present on, or comes with a time of its own. -/
theorem Forward.deposits {clock : Clock} {acts : List Act} (h : Forward clock acts) :
    ∀ d ∈ deposits clock acts, clock.now ≤ d.time ∨ .appendAt d.content d.time ∈ acts := by
  induction acts generalizing clock with
  | nil => exact nofun
  | cons a acts ih =>
    intro d hd
    rcases List.mem_append.1 hd with hd | hd
    · cases a with
      | append content =>
        obtain rfl := List.mem_singleton.1 hd
        exact .inl (UInt64.le_refl _)
      | appendAt content time =>
        obtain rfl := List.mem_singleton.1 hd
        exact .inr List.mem_cons_self
      | _ => cases hd
    · exact (ih h.2 d hd).imp (UInt64.le_trans h.1) (List.mem_cons_of_mem a)

/-- Nothing that is appended later, while the clock is not set back, gets a time from `lower` on and before `upper`. -/
def Settled (s : MemoryStorage) (lower upper : Timestamp) : Prop :=
  ∀ more content answers s₁ answer s₂, Forward s.clock more → s.run more = some (answers, s₁) →
    s₁.act (.append content) = some (answer, s₂) → ∀ blob ∈ s₂.table.blobs, blob ∉ s₁.table.blobs →
      ¬ (lower ≤ blob.info.timestamp ∧ blob.info.timestamp < upper)

/-- All that is stored with a time from `lower` on and before `upper`, now or later, is in a list; what comes with a
time of its own is excepted. -/
def Settles (s : MemoryStorage) (blobs : List Blob) (lower upper : Timestamp) : Prop :=
  ∀ more answers s', Forward s.clock more → s.run more = some (answers, s') → ∀ blob ∈ s'.table.blobs,
    lower ≤ blob.info.timestamp → blob.info.timestamp < upper →
      blob ∈ blobs ∨ .appendAt blob.content blob.info.timestamp ∈ more

namespace Holds

variable {s : MemoryStorage} {ds : List Deposit}

/-- What an append adds has the time of the clock. -/
theorem timestamp_of_append (h : s.Holds ds) {content : String} {answer : Answer} {s' : MemoryStorage}
    (hact : s.act (.append content) = some (answer, s')) {blob : Blob} (hblob : blob ∈ s'.table.blobs)
    (hnew : blob ∉ s.table.blobs) : blob.info.timestamp = s.clock.now := by
  obtain ⟨first, s₁, -, hstores, hold, hadded⟩ := h.stores (a := .append content) (d := ⟨content, s.clock.now⟩) rfl
  obtain rfl : s₁ = s' := (Prod.mk.inj (Option.some.inj (hstores.symm.trans hact))).2
  by_cases hstored : s.Stored (Deposit.location ⟨content, s.clock.now⟩)
  · exact absurd (hold hstored ▸ hblob) hnew
  · rw [hadded hstored, Array.mem_push] at hblob
    rw [hblob.resolve_left hnew]
    rfl

/-- A period that ends before the present is settled. -/
theorem settled (h : s.Holds ds) {lower upper : Timestamp} (hupper : upper ≤ lower ∨ upper ≤ s.clock.now) :
    s.Settled lower upper := by
  intro more content answers s₁ answer s₂ hforward hrun hact blob hblob hnew ⟨hlower, hlt⟩
  obtain ⟨answers', s', hrun', hholds, hclock⟩ := h.run more
  obtain rfl : s₁ = s' := (Prod.mk.inj (Option.some.inj (hrun.symm.trans hrun'))).2
  have htime : blob.info.timestamp = s₁.clock.now := hholds.timestamp_of_append hact hblob hnew
  have hnow : s.clock.now ≤ blob.info.timestamp := htime ▸ hclock ▸ hforward.le
  rcases hupper with hupper | hupper
  · exact UInt64.not_lt.2 (UInt64.le_trans hupper hlower) hlt
  · exact UInt64.not_lt.2 (UInt64.le_trans hupper hnow) hlt

/-- A period that ends ahead of the clock is not settled, as long as there is a content to append. -/
theorem le_of_settled (h : s.Holds ds) {lower upper : Timestamp} (hsettled : s.Settled lower upper) {content : String}
    (hfree : ¬ s.Stored (ContentHash.ofText content)) : upper ≤ lower ∨ upper ≤ s.clock.now := by
  -- The clock is put to a time in the period.
  have hplace (time : Timestamp) (hnow : s.clock.now ≤ time) (hlower : lower ≤ time) : upper ≤ time := by
    have hrun : s.run [.setClock time] = some ([.done], { s with clock := ⟨time⟩ }) := rfl
    have hholds : Holds { s with clock := ⟨time⟩ } ds := ⟨h.inStep, h.log_eq⟩
    obtain ⟨first, s₂, -, hact, -, hadded⟩ :=
      hholds.stores (a := .append content) (d := ⟨content, time⟩) rfl
    have hblobs : s₂.table.blobs = s.table.blobs.push (Deposit.blob ⟨content, time⟩) := hadded hfree
    have hnew : Deposit.blob ⟨content, time⟩ ∉ s.table.blobs := fun hmem => hfree ⟨_, hmem, rfl⟩
    have houtside := hsettled [.setClock time] content _ _ _ s₂ ⟨hnow, trivial⟩ hrun hact
      (Deposit.blob ⟨content, time⟩) (hblobs ▸ Array.mem_push_self) hnew
    exact UInt64.not_lt.1 fun hlt => houtside ⟨hlower, hlt⟩
  rcases UInt64.le_total lower s.clock.now with hle | hle
  · exact .inr (hplace s.clock.now (UInt64.le_refl _) hle)
  · exact .inl (hplace lower hle (UInt64.le_refl _))

/-- A window that has passed is answered with all that will ever be in it. -/
theorem settles (h : s.Holds ds) {window : Option Window} {upper : Timestamp} (hnow : upper ≤ s.clock.now)
    (hwindow : ∀ w ∈ window, ∀ last ∈ w.upper, upper ≤ last) :
    s.Settles (s.table.log.select window) ((window.bind (·.lower)).getD 0) upper := by
  intro more answers s₁ hforward hrun blob hblob hlower hlt
  obtain ⟨answers', s', hrun', hholds, -⟩ := h.run more
  obtain rfl : s₁ = s' := (Prod.mk.inj (Option.some.inj (hrun.symm.trans hrun'))).2
  rw [← Array.mem_toList_iff, hholds.blobs_eq] at hblob
  rcases BlobLog.mem_ofDeposits_append hblob with hold | ⟨d, hd, rfl⟩
  · refine .inl (List.mem_filter.2 ⟨h.log_eq ▸ hold, Window.admits_iff.2 fun w hw => ?_⟩)
    obtain rfl := Option.mem_def.1 hw
    exact ⟨hlower, fun last hlast => UInt64.le_trans (UInt64.le_of_lt hlt) (hwindow w rfl last hlast)⟩
  · exact .inr ((hforward.deposits d hd).resolve_left fun hpast =>
      UInt64.not_lt.2 (UInt64.le_trans hnow hpast) hlt)

end Holds

/-- **What an answer covers.** A query for data reports the upper end of its window as covered, or the time of the clock
if the window has none. If this is not later than the clock, and nobody sets the clock back, nothing is stored
afterwards with a time in the covered period, so the answer has all that will ever be there, except for what others
bring with a time of their own. As long as a content is left that has not been stored, this is the only case, apart from
a period that is empty: in a period that ends ahead of the clock something can be stored yet. -/
theorem covered_settled (start : Timestamp) (acts : List Act) (window : Option Window) :
    ∃ answers s, (new start).run acts = some (answers, s) ∧ (s.faults.failing = false →
      let lower := (window.bind (·.lower)).getD 0
      let covered := (window.bind (·.upper)).getD s.clock.now
      ∃ blobs : List Blob, ∃ s', s.act (.data window) = some (.data (.ok {
          contents := some (blobs.map (·.content))
          locations := some (blobs.map (·.location))
          lastTimestamp := covered
          infos := blobs.map (·.info) }), s') ∧
        s'.table = s.table ∧ s'.clock = s.clock ∧
        (covered ≤ s.clock.now → s'.Settled lower covered ∧ s'.Settles blobs lower covered) ∧
        ∀ content, ¬ s'.Stored (ContentHash.ofText content) →
          (s'.Settled lower covered ↔ covered ≤ lower ∨ covered ≤ s.clock.now)) := by
  obtain ⟨answers, s, hrun, hholds, -⟩ := (holds_new start).run acts
  refine ⟨answers, s, hrun, fun hquiet => ?_⟩
  intro lower covered
  have hact : s.act (.data window) =
      some (.data (.ok (s.table.data window s.clock.now)), { s with faults := s.faults.tick }) := by
    rw [act, hquiet]
    rfl
  have hholds' : Holds { s with faults := s.faults.tick } (deposits ⟨start⟩ acts) := ⟨hholds.inStep, hholds.log_eq⟩
  refine ⟨s.table.log.select window, _, hact, rfl, rfl, fun hnow => ⟨hholds'.settled (.inr hnow), ?_⟩,
    fun content hfree => ⟨fun hsettled => hholds'.le_of_settled hsettled hfree, hholds'.settled⟩⟩
  refine hholds'.settles hnow fun w hw last hlast => ?_
  obtain rfl := Option.mem_def.1 hw
  have hcovered : covered = last := by simp [covered, Option.mem_def.1 hlast]
  exact hcovered ▸ UInt64.le_refl _

/-- With the clock at 10, a query without a window covers what is stored before 10; one up to 50 reports 50, and a
content gets a time before 50 yet. -/
theorem covered_settled_trial :
    (∃ answer s', (new 10).act (.data none) = some (.data (.ok answer), s') ∧ answer.lastTimestamp = 10 ∧
      s'.Settled 0 10) ∧
    ∃ answer s', (new 10).act (.data (some (.upTo 50))) = some (.data (.ok answer), s') ∧
      answer.lastTimestamp = 50 ∧ ¬ s'.Settled 0 50 := by
  constructor
  · obtain ⟨answers, s, hrun, hanswer⟩ := covered_settled 10 [] none
    obtain rfl : new 10 = s := (Prod.mk.inj (Option.some.inj hrun)).2
    obtain ⟨blobs, s', hact, -, -, hsettled, -⟩ := hanswer rfl
    exact ⟨_, s', hact, rfl, (hsettled (UInt64.le_refl _)).1⟩
  · obtain ⟨answers, s, hrun, hanswer⟩ := covered_settled 10 [] (some (.upTo 50))
    obtain rfl : new 10 = s := (Prod.mk.inj (Option.some.inj hrun)).2
    obtain ⟨blobs, s', hact, htable, -, -, hexact⟩ := hanswer rfl
    have hfree : ¬ s'.Stored (ContentHash.ofText "late") := by
      rintro ⟨blob, hblob, -⟩
      rw [htable] at hblob
      exact Array.not_mem_empty blob hblob
    refine ⟨_, s', hact, rfl, fun hsettled => ?_⟩
    exact absurd ((hexact "late" hfree).1 hsettled) (by decide)

end Invoicing.MemoryStorage
