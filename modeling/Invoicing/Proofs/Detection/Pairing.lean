import Invoicing.Proofs.Detection.Outcome
import Invoicing.Proofs.Ledger

set_option autoImplicit false

/-! # Which transfer a payment is credited with

A search pairs what a payment was asked for with the first transfer of its transaction that the filters select
(`Search.firstTransfer`), so its answer is the one that each payment is due for its own transfer exactly if the
two agree wherever one of them reaches the destination (`Search.events_payAll`). -/

namespace Invoicing

namespace Search

open Ledger (Payment)

variable (s : Search)

/-! ## What is due -/

/-- Do the filters of the search select the logs of a payment? -/
def finds (p : Payment) : Bool :=
  match Reference.topic s.reference, Reference.topic p.reference with
  | .ok reference, .ok topic =>
    p.proxy == s.proxy.address && decide (s.proxy.creationBlock ≤ p.block) && reference == topic
  | _, _ => false

/-- The event of a payment that is credited with a transfer. -/
def eventFor (p : Payment) (t : Transfer) (time : Timestamp) : PaymentEvent where
  amount := (s.currency.units p.conversion.amount).render
  name := s.direction
  details :=
    { block := p.block
      transaction := p.transaction
      destination := s.destination
      feeAddress := some (Address.checksummed t.feeAddress)
      feeAmount := some (s.currency.units p.conversion.feeAmount).render
      tokenAmount := some t.amount.render
      tokenFee := some t.feeAmount.render
      maxRateTimespan := some p.conversion.maxRateTimespan.render }
  timestamp := time

/-- The events of payments that are each credited with a transfer, in the order of the payments. -/
def credits (time : BlockNumber → Timestamp) (ps : List Payment) (transfer : Payment → Transfer) :
    List PaymentEvent :=
  (ps.filter fun p => s.asks p.conversion && s.pays (transfer p)).map fun p =>
    s.eventFor p (transfer p) (time p.block)

/-- The transfer of the first payment in the transaction of a payment. -/
def firstTransfer (ps : List Payment) (p : Payment) : Transfer :=
  ((ps.find? fun q => q.transaction == p.transaction).getD p).transfer

variable {s}

/-! ## Logs of payments -/

theorem selects_filter (kind kind' reference topic : Hash) (p : Payment) (data : List UInt8) :
    (s.filter kind reference).selects ⟨p.proxy, [kind', topic], data, p.block, p.transaction⟩ =
      (kind == kind' && (p.proxy == s.proxy.address && decide (s.proxy.creationBlock ≤ p.block) &&
        reference == topic)) := by
  simp only [LogFilter.selects, filter, BlockTag.reaches, LogFilter.matchesTopics, Bool.and_true]
  rw [Bool.and_left_comm]
  rfl

/-- The filters tell the two logs of a payment apart, and agree on whether to select them. -/
theorem filter_recorded {reference : Hash} (hreference : Reference.topic s.reference = .ok reference)
    (p : Payment) :
    p.recorded.filter (s.filter Conversion.topic reference).selects =
        (if s.finds p then [p.asked reference] else []) ∧
      p.recorded.filter (s.filter Transfer.topic reference).selects =
        (if s.finds p then [p.paid reference] else []) := by
  cases htopic : Reference.topic p.reference with
  | error e => simp [Payment.recorded, finds, hreference, htopic]
  | ok topic =>
    have hfinds : s.finds p = (p.proxy == s.proxy.address && decide (s.proxy.creationBlock ≤ p.block) &&
        reference == topic) := by
      simp only [finds, hreference, htopic]
    have hne := Conversion.topic_ne
    simp only [Payment.recorded, htopic, Payment.logs, List.filter_cons, List.filter_nil, selects_filter, ← hfinds,
      beq_self_eq_true, Bool.true_and, beq_eq_false_iff_ne.2 hne, beq_eq_false_iff_ne.2 hne.symm,
      Bool.false_and, Bool.false_eq_true, if_false]
    by_cases hp : s.finds p = true
    · have hsame : topic = reference := by
        simp only [hfinds, Bool.and_eq_true, beq_iff_eq] at hp
        exact hp.2.symm
      simp only [hp, if_true, hsame]
      exact ⟨rfl, rfl⟩
    · simp only [hp, Bool.false_eq_true, if_false, and_self]

/-- A filter that selects one log of each payment that the search finds selects those of all of them. -/
theorem filter_flatMap_recorded {selects : Log → Bool} {log : Payment → Log} (ps : List Payment)
    (h : ∀ p, p.recorded.filter selects = if s.finds p then [log p] else []) :
    (ps.flatMap Payment.recorded).filter selects = (ps.filter s.finds).map log := by
  induction ps with
  | nil => rfl
  | cons p ps ih =>
    rw [List.flatMap_cons, List.filter_append, h, ih, List.filter_cons]
    split <;> rfl

/-! ## Pairs -/

/-- A payment, paired with a transfer. -/
def pairOf (p : Payment) (t : Transfer) : PairedTransfer := ⟨p.block, p.transaction, p.conversion, t⟩

theorem find?_transaction {ps : List Payment} {p : Payment} (hp : p ∈ ps) :
    ∃ first ∈ ps, first.transaction = p.transaction ∧
      ps.find? (fun q => q.transaction == p.transaction) = some first := by
  have hsome : (ps.find? fun q => q.transaction == p.transaction).isSome :=
    List.find?_isSome.2 ⟨p, hp, beq_self_eq_true p.transaction⟩
  obtain ⟨first, hfirst⟩ := Option.isSome_iff_exists.1 hsome
  have hsame := List.find?_some hfirst
  exact ⟨first, List.mem_of_find?_eq_some hfirst, beq_iff_eq.1 hsame, hfirst⟩

theorem pair_asked {found : List Payment} {p : Payment} (hp : p ∈ found) (reference : Hash) :
    pair (found.map (·.paid reference)) (p.asked reference) = .ok (pairOf p (firstTransfer found p)) := by
  obtain ⟨q, -, -, hq⟩ := find?_transaction hp
  have hlog : (found.map (·.paid reference)).find? (fun t => t.transaction == p.transaction) =
      some (q.paid reference) := by
    rw [List.find?_map]
    show (found.find? fun q => q.transaction == p.transaction).map _ = _
    rw [hq]
    rfl
  have hfirst : firstTransfer found p = q.transfer := by rw [firstTransfer, hq, Option.getD_some]
  have hconversion : Conversion.decode? (p.asked reference).data = some p.conversion :=
    Conversion.decode?_encode p.conversion
  have htransfer : Transfer.decode? (q.paid reference).data = some q.transfer :=
    Transfer.decode?_encode q.transfer
  have htransaction : (p.asked reference).transaction = p.transaction := rfl
  simp only [pair, hconversion, htransaction, hlog, htransfer, hfirst]
  rfl

/-! ## The answer -/

/-- What the search answers if it finds some payments and credits each with a transfer. -/
def answer (s : Search) (events : List PaymentEvent) : Except DetectionError (List PaymentEvent) :=
  if s.currency.decimals ≤ PreciseCurrency.maxDecimals ∨ events = [] then .ok events else .error .scaleTooLarge

/-- While the times are known, the events of pairs are those of the answer. -/
theorem mapM_event {times : List (BlockNumber × Timestamp)} {time : BlockNumber → Timestamp} {ps : List Payment}
    (hknown : ∀ p ∈ ps, times.lookup p.block = some (time p.block)) (transfer : Payment → Transfer) :
    (ps.mapM fun p => Ledger.timeAt times p.block >>= s.event (pairOf p (transfer p))) =
      s.answer (ps.map fun p => s.eventFor p (transfer p) (time p.block)) := by
  have hevent : ∀ p ∈ ps, (Ledger.timeAt times p.block >>= s.event (pairOf p (transfer p))) =
      if s.currency.decimals ≤ PreciseCurrency.maxDecimals then .ok (s.eventFor p (transfer p) (time p.block))
      else .error .scaleTooLarge := by
    intro p hp
    rw [Ledger.timeAt, hknown p hp]
    exact event_eq _ _
  by_cases hmax : s.currency.decimals ≤ PreciseCurrency.maxDecimals
  · simp only [answer, hmax, true_or, if_true]
    exact Effect.mapM_ok fun p hp => by rw [hevent p hp, if_pos hmax]
  · cases ps with
    | nil => simp [answer, hmax]; rfl
    | cons p ps =>
      rw [List.mapM_cons, hevent p List.mem_cons_self, if_neg hmax]
      simp [answer, hmax]
      rfl

/-- While nothing fails, the search credits each payment that it finds with the first transfer of its transaction. -/
theorem run_events_payAll {l : Ledger} {ps : List Payment} (hlogs : l.logs = []) (hquiet : l.faults.Quiet)
    (htimes : ∀ p ∈ ps, (l.times.lookup p.block).isSome)
    {reference : Hash} (hreference : Reference.topic s.reference = .ok reference) :
    (s.events.run.run (l.payAll ps)).1 =
      s.answer (s.credits l.timeOf (ps.filter s.finds) (firstTransfer (ps.filter s.finds))) := by
  have hasked := filter_flatMap_recorded ps fun p => (filter_recorded hreference p).1
  have hpaid := filter_flatMap_recorded ps fun p => (filter_recorded hreference p).2
  have hpayAll := Ledger.payAll_eq l ps
  rw [hlogs, List.nil_append] at hpayAll
  rw [hpayAll, s.answers_events.run_eq (l := { l with logs := ps.flatMap Payment.recorded }) hquiet]
  generalize hfound : ps.filter s.finds = found at hasked hpaid ⊢
  have hpairs : s.pairs (ps.flatMap Payment.recorded) reference =
      .ok (found.map fun p => pairOf p (firstTransfer found p)) := by
    rw [pairs, hasked, hpaid, List.mapM_map]
    exact Effect.mapM_ok fun p hp => pair_asked hp reference
  have hkept : found.filter (s.accepts ∘ fun p => pairOf p (firstTransfer found p)) =
      found.filter fun p => s.asks p.conversion && s.pays (firstTransfer found p) :=
    List.filter_congr fun p _ => accepts_eq _
  have hknown : ∀ p ∈ found.filter fun p => s.asks p.conversion && s.pays (firstTransfer found p),
      l.times.lookup p.block = some (l.timeOf p.block) := by
    intro p hp
    have hp : p ∈ ps.filter s.finds := hfound ▸ (List.mem_filter.1 hp).1
    obtain ⟨time, htime⟩ := Option.isSome_iff_exists.1 (htimes p (List.mem_filter.1 hp).1)
    rw [Ledger.timeOf, htime, Option.getD_some]
  rw [outcome, hreference]
  show (s.pairs _ reference >>= _) = _
  rw [hpairs]
  show ((found.map _).filter s.accepts).mapM _ = _
  rw [List.filter_map, List.mapM_map, hkept, credits]
  exact mapM_event hknown _

/-! ## Own transfers -/

/-- Every payment that is asked for is paired with its own transfer, or with one that, like its own, does not reach
the destination. -/
def OwnTransfers (s : Search) (ps : List Payment) (transfer : Payment → Transfer) : Prop :=
  ∀ p ∈ ps, s.asks p.conversion = true →
    transfer p = p.transfer ∨ s.pays (transfer p) = false ∧ s.pays p.transfer = false

variable {time : BlockNumber → Timestamp} {ps : List Payment} {transfer : Payment → Transfer}

theorem credits_congr {transfer' : Payment → Transfer} (h : ∀ p ∈ ps, transfer p = transfer' p) :
    s.credits time ps transfer = s.credits time ps transfer' := by
  have hfilter : (ps.filter fun p => s.asks p.conversion && s.pays (transfer p)) =
      ps.filter fun p => s.asks p.conversion && s.pays (transfer' p) :=
    List.filter_congr fun p hp => by rw [h p hp]
  rw [credits, credits, hfilter]
  exact List.map_congr_left fun p hp => by rw [h p (List.mem_filter.1 hp).1]

theorem OwnTransfers.credits_eq (h : s.OwnTransfers ps transfer) :
    s.credits time ps transfer = s.credits time ps Payment.transfer := by
  have hfilter : (ps.filter fun p => s.asks p.conversion && s.pays (transfer p)) =
      ps.filter fun p => s.asks p.conversion && s.pays p.transfer := by
    refine List.filter_congr fun p hp => ?_
    cases hasks : s.asks p.conversion with
    | false => rfl
    | true =>
      rcases h p hp hasks with heq | ⟨hno, hno'⟩
      · rw [heq]
      · rw [hno, hno']
  rw [credits, credits, hfilter]
  refine List.map_congr_left fun p hp => ?_
  obtain ⟨hp, hkept⟩ := List.mem_filter.1 hp
  obtain ⟨hasks, hpays⟩ := Bool.and_eq_true_iff.1 hkept
  rcases h p hp hasks with heq | ⟨-, hno⟩
  · rw [heq]
  · rw [hpays] at hno
    cases hno

/-- An event tells the transfer, among those that reach the destination. -/
theorem transfer_eq_of_eventFor {p : Payment} {t t' : Transfer} {now : Timestamp}
    (h : s.eventFor p t now = s.eventFor p t' now) (ht : s.pays t = true) (ht' : s.pays t' = true) : t = t' := by
  -- Amounts and the fee address are in the event, and the recipient is told by the destination.
  have hdetails := congrArg PaymentEvent.details h
  have hamount : t.amount.render = t'.amount.render :=
    Option.some.inj (congrArg EventDetails.tokenAmount hdetails)
  have hfee : t.feeAmount.render = t'.feeAmount.render :=
    Option.some.inj (congrArg EventDetails.tokenFee hdetails)
  have haddress : Address.checksummed t.feeAddress = Address.checksummed t'.feeAddress :=
    Option.some.inj (congrArg EventDetails.feeAddress hdetails)
  have hrecipient : t.recipient = t'.recipient := Address.eq_of_same ht ht'
  cases t with
  | mk recipient amount feeAmount feeAddress =>
    cases t' with
    | mk recipient' amount' feeAmount' feeAddress' =>
      rw [Transfer.mk.injEq]
      exact ⟨hrecipient, Amount.render_injective hamount, Amount.render_injective hfee,
        Address.checksummed_injective haddress⟩

/-- Payments that are all credited with one transfer have the events that are due only if it is their own. -/
theorem ownTransfers_const {t : Transfer}
    (h : s.credits time ps (fun _ => t) = s.credits time ps Payment.transfer) :
    s.OwnTransfers ps fun _ => t := by
  intro p hp hasks
  have hdue : (ps.filter fun p => s.asks p.conversion && s.pays p.transfer) =
      (ps.filter fun p => s.asks p.conversion).filter fun p => s.pays p.transfer := by
    rw [List.filter_filter]
    exact List.filter_congr fun q _ => Bool.and_comm _ _
  cases hpays : s.pays t with
  | false =>
    have hnone : s.credits time ps (fun _ => t) = [] := by
      simp [credits, hpays]
    rw [hnone] at h
    have hempty := List.filter_eq_nil_iff.1 (List.map_eq_nil_iff.1 h.symm) p hp
    exact .inr ⟨rfl, by simpa [hasks] using hempty⟩
  | true =>
    have hall : s.credits time ps (fun _ => t) =
        (ps.filter fun p => s.asks p.conversion).map fun p => s.eventFor p t (time p.block) := by
      simp only [credits, hpays, Bool.and_true]
    rw [hall, credits, hdue] at h
    have hasked : p ∈ ps.filter fun p => s.asks p.conversion := List.mem_filter.2 ⟨hp, hasks⟩
    -- As many events are due as there are payments, so all of them reach the destination.
    have hlength := congrArg List.length h
    rw [List.length_map, List.length_map] at hlength
    have hreach := List.length_filter_eq_length_iff.1 hlength.symm
    rw [List.filter_eq_self.2 hreach] at h
    exact .inl (transfer_eq_of_eventFor (List.map_inj_left.1 h p hasked) hpays (hreach p hasked))

/-- The events of one transaction. -/
theorem filter_credits (transaction : Hash) :
    (s.credits time ps transfer).filter (fun e => e.details.transaction == transaction) =
      s.credits time (ps.filter fun p => p.transaction == transaction) transfer := by
  rw [credits, credits, List.filter_map, List.filter_filter, List.filter_filter]
  exact congrArg _ (List.filter_congr fun p _ => Bool.and_comm _ _)

theorem firstTransfer_eq {p q : Payment} (hp : p ∈ ps) (h : q.transaction = p.transaction) :
    firstTransfer ps q = firstTransfer ps p := by
  obtain ⟨first, -, -, hfirst⟩ := find?_transaction hp
  rw [firstTransfer, firstTransfer, h, hfirst]
  rfl

/-- **The first transfers give the events that are due exactly if they are as good as the payments' own.** -/
theorem credits_firstTransfer :
    s.credits time ps (firstTransfer ps) = s.credits time ps Payment.transfer ↔
      s.OwnTransfers ps (firstTransfer ps) := by
  refine ⟨fun h p hp hasks => ?_, OwnTransfers.credits_eq⟩
  -- Events of different transactions differ, so the events agree in each transaction.
  have hgroup := congrArg (List.filter fun e => e.details.transaction == p.transaction) h
  rw [filter_credits, filter_credits] at hgroup
  have hconst : s.credits time (ps.filter fun q => q.transaction == p.transaction) (firstTransfer ps) =
      s.credits time (ps.filter fun q => q.transaction == p.transaction) fun _ => firstTransfer ps p :=
    credits_congr fun q hq => firstTransfer_eq hp (beq_iff_eq.1 (List.mem_filter.1 hq).2)
  exact ownTransfers_const (hconst.symm.trans hgroup) p (List.mem_filter.2 ⟨hp, beq_self_eq_true _⟩) hasks

/-- Payments in transactions of their own are paired with their own transfers. -/
theorem ownTransfers_of_distinct (h : ps.Pairwise fun p q => p.transaction ≠ q.transaction) :
    s.OwnTransfers ps (firstTransfer ps) := by
  intro p hp _
  obtain ⟨first, hmem, hsame, hfirst⟩ := find?_transaction hp
  have heq := List.Pairwise.forall_of_forall_of_flip
    (R := fun q p : Payment => q.transaction = p.transaction → q = p) (fun _ _ _ => rfl)
    (h.imp fun hne heq => absurd heq hne) (h.imp fun hne heq => absurd heq (Ne.symm hne)) hmem hp hsame
  rw [firstTransfer, hfirst, Option.getD_some, heq]
  exact .inl rfl

/-! ## The result -/

/-- **A payment is credited with the first transfer of its transaction.** On a ledger that holds payments alone, knows
the times of their blocks and does not fail, a search with a well-formed reference credits each payment that it
finds with the first transfer of its transaction. That is what is due to the payments exactly if these transfers are as
good as their own, and the scale of the currency, where it is needed, is an amount. -/
theorem events_payAll (s : Search) (ps : List Payment) (l : Ledger) (hlogs : l.logs = [])
    (hquiet : l.faults.Quiet) (htimes : ∀ p ∈ ps, (l.times.lookup p.block).isSome) :
    let found := ps.filter s.finds
    let credited := s.credits l.timeOf found (firstTransfer found)
    let due := s.credits l.timeOf found Payment.transfer
    let result := (s.events.run.run (l.payAll ps)).1
    (∀ e, Reference.topic s.reference = .error e → result = .error e) ∧
      ∀ reference, Reference.topic s.reference = .ok reference →
        result = s.answer credited ∧
          (result = .ok due ↔ (s.currency.decimals ≤ PreciseCurrency.maxDecimals ∨ due = []) ∧
            s.OwnTransfers found (firstTransfer found)) := by
  intro found credited due result
  refine ⟨fun e he => ?_, fun reference hreference => ?_⟩
  · have htopic : ((MonadExcept.ofExcept (Reference.topic s.reference) : LedgerM Hash).run.run
        (l.payAll ps)).1 = .error e := by
      rw [Effect.run_ofExcept, he]
    show (s.events.run.run (l.payAll ps)).1 = _
    rw [events, Effect.run_bind_error htopic]
  · have hresult : result = s.answer credited := run_events_payAll hlogs hquiet htimes hreference
    refine ⟨hresult, ?_⟩
    rw [hresult]
    constructor
    · intro hdue
      by_cases hscale : s.currency.decimals ≤ PreciseCurrency.maxDecimals ∨ credited = []
      · rw [answer, if_pos hscale, Except.ok.injEq] at hdue
        exact ⟨hdue ▸ hscale, credits_firstTransfer.1 hdue⟩
      · rw [answer, if_neg hscale] at hdue
        cases hdue
    · rintro ⟨hscale, hown⟩
      have heq : credited = due := hown.credits_eq
      rw [heq, answer, if_pos hscale]

/-- A search for a token of two addresses alike. -/
def trial : Search where
  currency := ⟨⟨.token, (Octets.replicate 0x77 : Address).render, none⟩, 18⟩
  reference := "aabbccddeeff0011"
  proxy := ⟨.replicate 0xcc, 1⟩
  destination := (Octets.replicate 0x0a : Address).render
  direction := .payment
  maxRateTimespan := 0

/-- A payment of the trials; all are in the same transaction. -/
def trialPayment (amount : Amount) (recipient : Address) : Payment where
  proxy := .replicate 0xcc
  reference := "aabbccddeeff0011"
  block := 5
  transaction := .replicate 0x01
  conversion := ⟨amount, .replicate 0x77, .zero, .zero⟩
  transfer := ⟨recipient, amount, .zero, .replicate 0x0f⟩

def trialPaid : Payment := trialPayment (.clamp 100) (.replicate 0x0a)

/-- A payment to someone else. -/
def trialStray : Payment := trialPayment (.clamp 200) (.replicate 0x0b)

/-- A payment to someone else is credited with the transfer of the one before it, where nothing is due for it. -/
theorem events_payAll_trial :
    let l := Ledger.empty.setTime 5 1005
    let found := [trialPaid, trialStray].filter trial.finds
    let first := trial.eventFor trialPaid trialPaid.transfer 1005
    let second := trial.eventFor trialStray trialPaid.transfer 1005
    let result := (trial.events.run.run (l.payAll [trialPaid, trialStray])).1
    let due := trial.credits l.timeOf found Payment.transfer
    result = .ok [first, second] ∧ due = [first] ∧ result ≠ .ok due := by
  intro l found first second result due
  obtain ⟨reference, hreference⟩ : ∃ reference, Reference.topic trial.reference = .ok reference := ⟨_, rfl⟩
  have hfound : [trialPaid, trialStray].filter trial.finds = [trialPaid, trialStray] := by
    refine List.filter_eq_self.2 fun p hp => ?_
    have hsame : p.reference = trial.reference ∧ p.proxy = trial.proxy.address ∧ p.block = 5 := by
      rcases List.mem_cons.1 hp with rfl | hp
      · exact ⟨rfl, rfl, rfl⟩
      · exact List.mem_singleton.1 hp ▸ ⟨rfl, rfl, rfl⟩
    have hcreated : decide (trial.proxy.creationBlock ≤ 5) = true := by decide
    simp only [finds, hsame, hreference, hcreated, beq_self_eq_true, Bool.and_self]
  have htime : l.timeOf 5 = 1005 := by decide
  obtain ⟨hresult, -⟩ := (events_payAll trial [trialPaid, trialStray] l rfl Faults.quiet_never (by decide)).2
    reference hreference
  rw [hfound] at hresult
  have hcredited : ([trialPaid, trialStray].filter fun p =>
      trial.asks p.conversion && trial.pays (firstTransfer [trialPaid, trialStray] p)) =
        [trialPaid, trialStray] := by decide +kernel
  have hdue : ([trialPaid, trialStray].filter fun p => trial.asks p.conversion && trial.pays p.transfer) =
      [trialPaid] := by decide +kernel
  have hpaid : firstTransfer [trialPaid, trialStray] trialPaid = trialPaid.transfer := by decide +kernel
  have hstray : firstTransfer [trialPaid, trialStray] trialStray = trialPaid.transfer := by decide +kernel
  have hall : result = .ok [first, second] := by
    rw [credits, hcredited] at hresult
    simp only [List.map_cons, List.map_nil, hpaid, hstray] at hresult
    show (trial.events.run.run (l.payAll _)).1 = _
    rw [hresult, answer, if_pos (.inl (by decide))]
    show Except.ok [trial.eventFor _ _ (l.timeOf 5), trial.eventFor _ _ (l.timeOf 5)] = _
    rw [htime]
  have hone : due = [first] := by
    show trial.credits _ ([trialPaid, trialStray].filter trial.finds) _ = _
    rw [hfound, credits, hdue]
    show [trial.eventFor _ _ (l.timeOf 5)] = _
    rw [htime]
  refine ⟨hall, hone, ?_⟩
  rw [hall, hone]
  simp

end Search

end Invoicing
