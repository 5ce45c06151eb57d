import Invoicing.Proofs.Detection.Audit

set_option autoImplicit false

/-! # Why there is no balance

A request without a balance lacks what a search needs, or the ledger has a log that nobody can read or that stands
alone, a block of an unknown time or a call that failed (`Detector.Cause`). Amounts and references never stand in the
way: every amount of a price feed can be told in units of the currency, what is added up was printed by the detection
itself, and so was the reference. -/

namespace Invoicing

open Ledger (Payment)

namespace Search

variable {s : Search} {logs : List Log} {reference : Hash} {log : Log} {e : DetectionError}

/-- A log has no pair if it cannot be read, if its transaction has no transfer or if that cannot be read. -/
theorem pair_eq_error (h : pair (logs.filter (s.filter Transfer.topic reference).selects) log = .error e) :
    (Conversion.decode? log.data = none ∧ e = .malformedLog Conversion.name log.transaction) ∨
      ((∀ other ∈ logs, s.Concerns Transfer.topic reference other → other.transaction ≠ log.transaction) ∧
        e = .missingTransfer log.transaction) ∨
      ∃ other ∈ logs, s.Concerns Transfer.topic reference other ∧ other.transaction = log.transaction ∧
        Transfer.decode? other.data = none ∧ e = .malformedLog Transfer.name log.transaction := by
  rw [pair, find?_filter_selects] at h
  cases hconversion : Conversion.decode? log.data with
  | none =>
    rw [hconversion] at h
    exact .inl ⟨rfl, (Except.error.inj h).symm⟩
  | some conversion =>
    rw [hconversion] at h
    cases hfind : logs.find? fun other => decide (s.Concerns Transfer.topic reference other) &&
        other.transaction == log.transaction with
    | none =>
      rw [hfind] at h
      refine .inr (.inl ⟨fun other hother hconcerns => ?_, (Except.error.inj h).symm⟩)
      simpa [hconcerns] using List.find?_eq_none.1 hfind other hother
    | some other =>
      rw [hfind] at h
      have hother := List.find?_some hfind
      simp only [Bool.and_eq_true, decide_eq_true_eq, beq_iff_eq] at hother
      cases htransfer : Transfer.decode? other.data with
      | none =>
        simp only [htransfer] at h
        exact .inr (.inr ⟨other, List.mem_of_find?_eq_some hfind, hother.1, hother.2, htransfer,
          (Except.error.inj h).symm⟩)
      | some transfer => simp [htransfer] at h

end Search

namespace Detector

/-- A search for one of the addresses of a request, and the topic of its reference. -/
def Seeks (config : DetectionConfig) (request : Request) (s : Search) (reference : Hash) : Prop :=
  ∃ extension destination direction, request.extension? network.id = some extension ∧
    extension.values.destination direction = some destination ∧
    search config request extension destination direction = .ok s ∧ Reference.topic s.reference = .ok reference

/-- What keeps a request from having a balance, and the error that tells it. -/
inductive Cause (config : DetectionConfig) (request : Request) (l : Ledger) : DetectionError → Prop where
  | extension (h : request.extension? network.id = none) : Cause config request l (.missingExtension network.id)
  | salt {extension : ExtensionState} (hextension : request.extension? network.id = some extension)
      (h : extension.values.salt = none) : Cause config request l (.missingValue "salt")
  | deployment {extension : ExtensionState} (hextension : request.extension? network.id = some extension)
      (h : config.deployment? (extension.values.network.getD PaymentNetwork.defaultChain) = none) :
      Cause config request l (.unsupportedNetwork (extension.values.network.getD PaymentNetwork.defaultChain))
  | conversion {s : Search} {reference : Hash} {log : Log} (hs : Seeks config request s reference) (hlog : log ∈ l.logs)
      (hconcerns : s.Concerns Conversion.topic reference log) (h : Conversion.decode? log.data = none) :
      Cause config request l (.malformedLog Conversion.name log.transaction)
  | unpaired {s : Search} {reference : Hash} {log : Log} (hs : Seeks config request s reference) (hlog : log ∈ l.logs)
      (hconcerns : s.Concerns Conversion.topic reference log)
      (h : ∀ other ∈ l.logs, s.Concerns Transfer.topic reference other → other.transaction ≠ log.transaction) :
      Cause config request l (.missingTransfer log.transaction)
  | transfer {s : Search} {reference : Hash} {log other : Log} (hs : Seeks config request s reference)
      (hlog : log ∈ l.logs) (hconcerns : s.Concerns Conversion.topic reference log) (hother : other ∈ l.logs)
      (hconcerns' : s.Concerns Transfer.topic reference other) (htransaction : other.transaction = log.transaction)
      (h : Transfer.decode? other.data = none) :
      Cause config request l (.malformedLog Transfer.name log.transaction)
  | time {s : Search} {reference : Hash} {log : Log} (hs : Seeks config request s reference) (hlog : log ∈ l.logs)
      (hdue : s.isDue l.logs reference log = true) (h : l.times.lookup log.block = none) :
      Cause config request l (.ledger s!"unknown block {log.block}")
  | failure (h : ¬ l.faults.Quiet) : Cause config request l (.ledger "injected failure")

variable {config : DetectionConfig} {request : Request} {l : Ledger} {e : DetectionError}

theorem cause_of_search {extension : ExtensionState} {destination : String} {direction : Direction}
    (hextension : request.extension? network.id = some extension)
    (h : search config request extension destination direction = .error e) : Cause config request l e := by
  cases hsalt : extension.values.salt with
  | none =>
    simp only [search, hsalt] at h
    cases h
    exact .salt hextension hsalt
  | some salt =>
    cases hproxy : config.deployment? (extension.values.network.getD PaymentNetwork.defaultChain) with
    | none =>
      simp only [search, hsalt, hproxy] at h
      cases h
      exact .deployment hextension hproxy
    | some proxy =>
      rw [search_eq_ok.2 ⟨salt, proxy, hsalt, hproxy, rfl⟩] at h
      cases h

theorem cause_of_outcome {s : Search} {reference : Hash} (hs : Seeks config request s reference)
    (h : s.outcome l.logs l.times = .error e) : Cause config request l e := by
  obtain ⟨extension, destination, direction, -, -, hsearch, hreference⟩ := id hs
  have hdecimals : s.currency.decimals ≤ PreciseCurrency.maxDecimals := by
    obtain ⟨salt, proxy, -, -, rfl⟩ := search_eq_ok.1 hsearch
    exact decimals_le request.currency
  rw [Search.outcome, hreference] at h
  rcases Effect.bind_eq_error.1 (show (s.pairs l.logs reference >>= _) = _ from h) with
    hpairs | ⟨paired, hpaired, htimed⟩
  · -- A log that asks for a payment has no pair.
    obtain ⟨log, hlog, hpair⟩ := Effect.exists_of_mapM_error hpairs
    obtain ⟨hlog, hconcerns⟩ := List.mem_filter.1 hlog
    rw [Search.selects_filter_eq, decide_eq_true_iff] at hconcerns
    rcases Search.pair_eq_error hpair with ⟨hnone, rfl⟩ | ⟨hnone, rfl⟩ | ⟨other, hother, hpaid, hsame, hnone, rfl⟩
    · exact .conversion hs hlog hconcerns hnone
    · exact .unpaired hs hlog hconcerns hnone
    · exact .transfer hs hlog hconcerns hother hpaid hsame hnone
  · -- A payment that is due has no time.
    obtain ⟨p, hp, htimed⟩ := Effect.exists_of_mapM_error htimed
    obtain ⟨log, hlog, c, t, -, -, rfl⟩ := Effect.exists_left_of_forall₂ (Search.due_of_pairs hpaired) hp
    obtain ⟨hlog, hdue⟩ := List.mem_filter.1 hlog
    rcases Effect.bind_eq_error.1 htimed with htime | ⟨time, -, hevent⟩
    · unfold Ledger.timeAt at htime
      split at htime
      · cases htime
      · next hnone =>
        cases htime
        exact .time hs hlog hdue hnone
    · rw [Search.event_eq, if_pos hdecimals] at hevent
      cases hevent

theorem cause_of_found {extension : ExtensionState} {direction : Direction}
    (hextension : request.extension? network.id = some extension)
    (h : found config request extension l.logs l.times direction = .error e) : Cause config request l e := by
  cases hdestination : extension.values.destination direction with
  | none =>
    rw [found, hdestination] at h
    cases h
  | some destination =>
    rw [found_eq hdestination] at h
    rcases Effect.bind_eq_error.1 h with hsearch | ⟨s, hs, houtcome⟩
    · exact cause_of_search hextension hsearch
    · obtain ⟨reference, hreference⟩ : ∃ reference, Reference.topic s.reference = .ok reference := by
        obtain ⟨salt, proxy, -, -, rfl⟩ := search_eq_ok.1 hs
        exact Reference.topic_make _ _ _
      exact cause_of_outcome ⟨extension, destination, direction, hextension, hdestination, hs, hreference⟩ houtcome

theorem cause_of_answer (h : outcome config request l.logs l.times = .error e) : Cause config request l e := by
  unfold outcome at h
  cases hextension : request.extension? network.id with
  | none =>
    rw [hextension] at h
    cases h
    exact .extension hextension
  | some extension =>
    rw [hextension] at h
    rcases Effect.bind_eq_error.1 h with hpayments | ⟨payments, -, h⟩
    · exact cause_of_found hextension hpayments
    · rcases Effect.bind_eq_error.1 h with hrefunds | ⟨refunds, -, h⟩
      · exact cause_of_found hextension hrefunds
      · cases h

/-- Every error of a detection has a cause. -/
theorem cause_of_compute (h : ((compute (ledgerSource config request) request).run.run l).1 = .error e) :
    Cause config request l e := by
  have hcompute : Ledger.ComesTo l.logs l.times (compute (ledgerSource config request) request)
      (outcome config request l.logs l.times) := comesTo_compute config request
  by_cases hquiet : l.faults.Quiet
  · exact cause_of_answer ((hcompute.answers.run_eq hquiet).symm.trans h)
  · rcases hcompute.result l rfl rfl with hanswer | hfailure
    · exact cause_of_answer (hanswer.symm.trans h)
    · obtain rfl := Except.error.inj (hfailure.symm.trans h)
      exact .failure hquiet

/-! ## Ledgers that can be read -/

/-- The request has what a search needs, and the ledger can answer it: no call fails, the logs under the references of
the request can be read, each that asks for a payment has a transfer in its transaction, and its block has a time. -/
structure Readable (config : DetectionConfig) (request : Request) (l : Ledger) : Prop where
  quiet : l.faults.Quiet
  extension : ∃ extension, request.extension? network.id = some extension ∧ extension.values.salt.isSome ∧
    (config.deployment? (extension.values.network.getD PaymentNetwork.defaultChain)).isSome
  conversions : ∀ s reference, Seeks config request s reference → ∀ log ∈ l.logs,
    s.Concerns Conversion.topic reference log → (Conversion.decode? log.data).isSome
  transfers : ∀ s reference, Seeks config request s reference → ∀ log ∈ l.logs,
    s.Concerns Transfer.topic reference log → (Transfer.decode? log.data).isSome
  paired : ∀ s reference, Seeks config request s reference → ∀ log ∈ l.logs,
    s.Concerns Conversion.topic reference log →
      ∃ other ∈ l.logs, s.Concerns Transfer.topic reference other ∧ other.transaction = log.transaction
  times : ∀ s reference, Seeks config request s reference → ∀ log ∈ l.logs,
    s.Concerns Conversion.topic reference log → (l.times.lookup log.block).isSome

/-- There is nothing to keep such a request from having a balance. -/
theorem Readable.not_cause (h : Readable config request l) (hcause : Cause config request l e) : False := by
  obtain ⟨extension₀, hextension₀, hsalt, hproxy⟩ := h.extension
  cases hcause with
  | extension hnone => exact nomatch hnone.symm.trans hextension₀
  | salt hextension hnone =>
    cases hextension₀.symm.trans hextension
    simp [hnone] at hsalt
  | deployment hextension hnone =>
    cases hextension₀.symm.trans hextension
    simp [hnone] at hproxy
  | conversion hs hlog hconcerns hnone => simpa [hnone] using h.conversions _ _ hs _ hlog hconcerns
  | unpaired hs hlog hconcerns hnone =>
    obtain ⟨other, hother, hconcerns', hsame⟩ := h.paired _ _ hs _ hlog hconcerns
    exact hnone other hother hconcerns' hsame
  | transfer hs _ _ hother hconcerns _ hnone => simpa [hnone] using h.transfers _ _ hs _ hother hconcerns
  | time hs hlog hdue hnone => simpa [hnone] using h.times _ _ hs _ hlog (Search.isDue_iff.1 hdue).1
  | failure hfaults => exact hfaults h.quiet

/-- **A detection raises no error without a cause.** Whatever the ledger holds and whichever calls fail, an error of a
detection has a cause in what the request lacks, in the logs and times of the ledger or in a call that failed. It is
never a malformed reference or amount, nor a scale that does not fit: every amount of a price feed can be told in
units of any currency. So a request that has what a search needs, on a ledger that can be read, has a balance: the exact
difference of two amounts, and fees. -/
theorem error_has_cause (config : DetectionConfig) (request : Request) (l : Ledger) :
    let answer := ((compute (ledgerSource config request) request).run.run l).1
    let result := ((ledgerBalance config request).run l).1
    (∀ e, answer = .error e → Cause config request l e) ∧
      (∀ text, answer ≠ .error (.invalidReference text)) ∧ (∀ text, answer ≠ .error (.invalidAmount text)) ∧
      answer ≠ .error .scaleTooLarge ∧
      (∀ a, (PreciseCurrency.ofCurrency request.currency).ofFeed? a =
        some ((PreciseCurrency.ofCurrency request.currency).units a)) ∧
      (Readable config request l → answer = .ok result ∧ result.error = none ∧ ∃ paid refunded fees : Amount,
        result.balance = some (toString ((paid.value : Int) - refunded.value)) ∧
          result.feeBalance = some fees.render) := by
  intro answer result
  have hcause : ∀ e, answer = .error e → Cause config request l e := fun e => cause_of_compute
  refine ⟨hcause, fun text h => ?_, fun text h => ?_, fun h => ?_, fun a => ?_, fun h => ?_⟩
  · cases hcause _ h
  · cases hcause _ h
  · cases hcause _ h
  · rw [PreciseCurrency.ofFeed?_eq, if_pos (decimals_le request.currency)]
  · have hanswer : answer = outcome config request l.logs l.times :=
      (comesTo_compute config request).answers.run_eq h.quiet
    cases houtcome : outcome config request l.logs l.times with
    | error e => exact (h.not_cause (cause_of_answer houtcome)).elim
    | ok b =>
      have hresult : result = b := run_ledgerBalance h.quiet houtcome
      obtain ⟨extension, payments, refunds, -, -, -, rfl⟩ := outcome_eq_ok.1 houtcome
      rw [hresult]
      exact ⟨hanswer.trans houtcome, rfl, _, _, _, rfl, rfl⟩

/-! ## Recorded payments -/

/-- A ledger that holds payments alone can be read. -/
theorem readable_payAll {ps : List Payment} {extension : ExtensionState}
    (hextension : request.extension? network.id = some extension) (hsalt : extension.values.salt.isSome)
    (hproxy : (config.deployment? (extension.values.network.getD PaymentNetwork.defaultChain)).isSome)
    (hlogs : l.logs = []) (hquiet : l.faults.Quiet) (htimes : ∀ p ∈ ps, (l.times.lookup p.block).isSome) :
    Readable config request (l.payAll ps) := by
  rw [Ledger.payAll_eq, hlogs, List.nil_append]
  have hrecorded {log : Log} (hlog : log ∈ ps.flatMap Payment.recorded) :
      ∃ p ∈ ps, ∃ topic, Reference.topic p.reference = .ok topic ∧ (log = p.asked topic ∨ log = p.paid topic) := by
    obtain ⟨p, hp, hlog⟩ := List.mem_flatMap.1 hlog
    exact ⟨p, hp, mem_recorded.1 hlog⟩
  have hasked {s : Search} {reference : Hash} {log : Log} (hlog : log ∈ ps.flatMap Payment.recorded)
      (hconcerns : s.Concerns Conversion.topic reference log) :
      ∃ p ∈ ps, ∃ topic, Reference.topic p.reference = .ok topic ∧ log = p.asked topic := by
    obtain ⟨p, hp, topic, htopic, rfl | rfl⟩ := hrecorded hlog
    · exact ⟨p, hp, topic, htopic, rfl⟩
    · exact absurd (Option.some.inj hconcerns.2.2.1).symm Conversion.topic_ne
  refine ⟨hquiet, ⟨extension, hextension, hsalt, hproxy⟩, fun s reference _ log hlog hconcerns => ?_,
    fun s reference _ log hlog hconcerns => ?_, fun s reference _ log hlog hconcerns => ?_,
    fun s reference _ log hlog hconcerns => ?_⟩
  · obtain ⟨p, -, topic, -, rfl⟩ := hasked hlog hconcerns
    exact Option.isSome_iff_exists.2 ⟨_, Conversion.decode?_encode p.conversion⟩
  · obtain ⟨p, -, topic, -, rfl | rfl⟩ := hrecorded hlog
    · exact absurd (Option.some.inj hconcerns.2.2.1) Conversion.topic_ne
    · exact Option.isSome_iff_exists.2 ⟨_, Transfer.decode?_encode p.transfer⟩
  · obtain ⟨p, hp, topic, htopic, rfl⟩ := hasked hlog hconcerns
    obtain rfl : topic = reference := Option.some.inj hconcerns.2.2.2
    exact ⟨p.paid topic, List.mem_flatMap.2 ⟨p, hp, mem_recorded.2 ⟨topic, htopic, .inr rfl⟩⟩,
      ⟨hconcerns.1, hconcerns.2.1, rfl, rfl⟩, rfl⟩
  · obtain ⟨p, hp, topic, -, rfl⟩ := hasked hlog hconcerns
    exact htimes p hp

/-- The trial has a balance. -/
theorem error_has_cause_trial :
    ((ledgerBalance .trial trialFeeRequest).run trialFeeLedger).1.error = none ∧
      ∃ paid refunded : Amount, ((ledgerBalance .trial trialFeeRequest).run trialFeeLedger).1.balance =
        some (toString ((paid.value : Int) - refunded.value)) := by
  have hproxy : DetectionConfig.trial.deployment? "private" = some ⟨.replicate 0xcc, 1⟩ := by decide +kernel
  have hreadable : Readable .trial trialFeeRequest trialFeeLedger :=
    have hextension : trialFeeRequest.extension? network.id = some trialFeeExtension := rfl
    readable_payAll hextension rfl (Option.isSome_iff_exists.2 ⟨_, hproxy⟩) rfl Faults.quiet_never (by decide)
  obtain ⟨-, -, -, -, -, hbalance⟩ := error_has_cause .trial trialFeeRequest trialFeeLedger
  obtain ⟨-, herror, paid, refunded, -, hnumbers, -⟩ := hbalance hreadable
  exact ⟨herror, paid, refunded, hnumbers⟩

end Detector

end Invoicing
