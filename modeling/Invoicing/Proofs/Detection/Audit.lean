import Invoicing.Proofs.Detection.Answer
import Mathlib.Algebra.BigOperators.Group.List.Basic

set_option autoImplicit false

/-! # Auditing a balance

A balance comes with the events that it was computed from, and can be computed from them again: they are the payments
and refunds of the ledger in the order of time (`PaymentEvent.Merges`), and both numbers are sums over them
(`Balance.AddsUp`). -/

namespace Invoicing

open Ledger (Payment)

namespace PaymentEvent

/-- The events of a name. -/
def named (name : Direction) (events : List PaymentEvent) : List PaymentEvent :=
  events.filter fun e => decide (e.name = name)

/-- The events of a time. -/
def timed (time : Timestamp) (events : List PaymentEvent) : List PaymentEvent :=
  events.filter fun e => decide (e.timestamp = time)

/-- Is no event later than one that stands after it? -/
def InTime (events : List PaymentEvent) : Prop := events.Pairwise fun a b => a.timestamp ≤ b.timestamp

/-- The events are the payments and the refunds, in the order of time. At one time the payments stand before the
refunds, and both in the order that they had; so they keep it altogether if it is the order of time. -/
structure Merges (payments refunds events : List PaymentEvent) : Prop where
  sorted : InTime events
  perm : events.Perm (payments ++ refunds)
  ties : ∀ time, timed time events = timed time payments ++ timed time refunds
  payments : InTime payments → named .payment events = payments
  refunds : InTime refunds → named .refund events = refunds

/-! ## Sorting -/

theorem earlier_trans (a b c : PaymentEvent) (hab : decide (a.timestamp ≤ b.timestamp) = true)
    (hbc : decide (b.timestamp ≤ c.timestamp) = true) : decide (a.timestamp ≤ c.timestamp) = true :=
  decide_eq_true (UInt64.le_trans (of_decide_eq_true hab) (of_decide_eq_true hbc))

theorem earlier_total (a b : PaymentEvent) :
    (decide (a.timestamp ≤ b.timestamp) || decide (b.timestamp ≤ a.timestamp)) = true := by
  simpa using UInt64.le_total a.timestamp b.timestamp

theorem inTime_merged (payments refunds : List PaymentEvent) : InTime (Detector.merged payments refunds) :=
  (List.pairwise_mergeSort earlier_trans earlier_total _).imp fun h => of_decide_eq_true h

theorem merged_eq_append {payments refunds : List PaymentEvent} (h : InTime (payments ++ refunds)) :
    Detector.merged payments refunds = payments ++ refunds :=
  List.mergeSort_of_pairwise (h.imp fun hle => decide_eq_true hle)

/-- Events that are in the order of time already are kept in their order. -/
theorem filter_merged {payments refunds : List PaymentEvent} {p : PaymentEvent → Bool}
    (h : InTime ((payments ++ refunds).filter p)) :
    (Detector.merged payments refunds).filter p = (payments ++ refunds).filter p := by
  have hkept := (List.sublist_mergeSort earlier_trans earlier_total (h.imp fun hle => decide_eq_true hle)
    List.filter_sublist).filter p
  simp only [List.filter_filter, Bool.and_self] at hkept
  exact (hkept.eq_of_length ((Detector.merged_perm payments refunds).filter p).length_eq.symm).symm

theorem inTime_timed (time : Timestamp) (events : List PaymentEvent) : InTime (timed time events) := by
  refine List.pairwise_of_forall_mem_list fun a ha b hb => ?_
  have htime {e : PaymentEvent} (he : e ∈ timed time events) : e.timestamp = time :=
    of_decide_eq_true (List.mem_filter.1 he).2
  rw [htime ha, htime hb]
  exact UInt64.le_refl _

theorem named_eq_self {name : Direction} {events : List PaymentEvent} (h : ∀ e ∈ events, e.name = name) :
    named name events = events := List.filter_eq_self.2 fun e he => decide_eq_true (h e he)

theorem named_eq_nil {name name' : Direction} {events : List PaymentEvent} (h : ∀ e ∈ events, e.name = name')
    (hne : name' ≠ name) : named name events = [] :=
  List.filter_eq_nil_iff.2 fun e he hname => hne ((h e he).symm.trans (of_decide_eq_true hname))

variable {payments refunds : List PaymentEvent}

/-- Names tell payments and refunds apart. -/
theorem named_append (hpayments : ∀ e ∈ payments, e.name = .payment) (hrefunds : ∀ e ∈ refunds, e.name = .refund) :
    named .payment (payments ++ refunds) = payments ∧ named .refund (payments ++ refunds) = refunds := by
  have happend (name : Direction) : named name (payments ++ refunds) = named name payments ++ named name refunds :=
    List.filter_append _ _
  constructor
  · rw [happend, named_eq_self hpayments, named_eq_nil hrefunds (by decide), List.append_nil]
  · rw [happend, named_eq_nil hpayments (by decide), named_eq_self hrefunds, List.nil_append]

theorem merges_merged (hpayments : ∀ e ∈ payments, e.name = .payment) (hrefunds : ∀ e ∈ refunds, e.name = .refund) :
    Merges payments refunds (Detector.merged payments refunds) := by
  obtain ⟨hpaid, hrefunded⟩ := named_append hpayments hrefunds
  have hkept {name : Direction} {events : List PaymentEvent} (hnamed : named name (payments ++ refunds) = events)
      (h : InTime events) : named name (Detector.merged payments refunds) = events := by
    rw [← hnamed] at h ⊢
    exact filter_merged h
  refine ⟨inTime_merged _ _, Detector.merged_perm _ _, fun time => ?_, hkept hpaid, hkept hrefunded⟩
  rw [timed, filter_merged (inTime_timed time _), List.filter_append]
  rfl

/-! ## Sums -/

theorem total_perm {events events' : List PaymentEvent} (h : events.Perm events') : total events = total events' := by
  rw [total, total, (h.map _).sum_eq]

theorem total_named (hpayments : ∀ e ∈ payments, e.name = .payment) (hrefunds : ∀ e ∈ refunds, e.name = .refund) :
    total (named .payment (Detector.merged payments refunds)) = total payments ∧
      total (named .refund (Detector.merged payments refunds)) = total refunds := by
  obtain ⟨hpaid, hrefunded⟩ := named_append hpayments hrefunds
  have hperm (name : Direction) :=
    total_perm ((Detector.merged_perm payments refunds).filter fun e => decide (e.name = name))
  exact ⟨(hperm .payment).trans (congrArg total hpaid), (hperm .refund).trans (congrArg total hrefunded)⟩

end PaymentEvent

open PaymentEvent

/-- The numbers of a balance are the sums over its events: of what was paid less what was refunded, each at most the
largest amount, and of the fees to the fee address. All texts that are added up are amounts. -/
structure Balance.AddsUp (values : PaymentValues) (b : Balance) : Prop where
  valid : ∀ e ∈ b.events, e.Valid
  balance : b.balance =
    some (toString (((total (named .payment b.events)).value : Int) - (total (named .refund b.events)).value))
  feeBalance : b.feeBalance = some (fees values.feeAddress b.events).render
  noFee : values.feeAddress = none → b.feeBalance = some "0"

namespace Detector

/-- The events are those of the logs that are due to the address in a direction, in the order of the ledger. -/
def Lists (config : DetectionConfig) (request : Request) (extension : ExtensionState) (l : Ledger)
    (direction : Direction) (events : List PaymentEvent) : Prop :=
  match extension.values.destination direction with
  | none => events = []
  | some destination => ∃ s reference, search config request extension destination direction = .ok s ∧
    Reference.topic s.reference = .ok reference ∧
    List.Forall₂ (s.Reports l.logs l.times reference) (l.logs.filter (s.isDue l.logs reference)) events

variable {config : DetectionConfig} {request : Request} {extension : ExtensionState} {l : Ledger}

theorem lists_of_found {direction : Direction} {events : List PaymentEvent}
    (h : found config request extension l.logs l.times direction = .ok events) :
    Lists config request extension l direction events := by
  unfold Lists
  cases hdestination : extension.values.destination direction with
  | none =>
    rw [found, hdestination] at h
    exact (Except.ok.inj h).symm
  | some destination =>
    rw [found_eq hdestination] at h
    obtain ⟨s, hs, hevents⟩ := Effect.bind_eq_ok.1 h
    obtain ⟨reference, hreference, -, hreports⟩ := Search.reports_of_outcome hevents
    exact ⟨s, reference, hs, hreference, hreports⟩

theorem addsUp_balanceOf {values : PaymentValues} {payments refunds : List PaymentEvent}
    (hpayments : ∀ e ∈ payments, e.name = .payment ∧ e.Valid) (hrefunds : ∀ e ∈ refunds, e.name = .refund ∧ e.Valid) :
    (balanceOf values payments refunds).AddsUp values := by
  obtain ⟨hpaid, hrefunded⟩ := total_named (fun e he => (hpayments e he).1) fun e he => (hrefunds e he).1
  refine ⟨fun e he => ?_, ?_, rfl, fun hnone => ?_⟩
  · rcases List.mem_append.1 ((merged_perm payments refunds).mem_iff.1 he) with he | he
    · exact (hpayments e he).2
    · exact (hrefunds e he).2
  · show some _ = some _
    rw [← hpaid, ← hrefunded]
    rfl
  · show some (fees values.feeAddress _).render = _
    rw [hnone, fees_none]
    exact congrArg some (by decide)

/-- **A balance can be audited from its events.** Without an error they are the events of the payments and refunds on
the ledger, merged in the order of time, and the numbers of the balance are sums over them. With an error there are
neither events nor numbers. -/
theorem balance_audit (config : DetectionConfig) (request : Request) (l : Ledger) :
    let result := ((ledgerBalance config request).run l).1
    (result.error = none → ∃ extension payments refunds, request.extension? network.id = some extension ∧
      Lists config request extension l .payment payments ∧ Lists config request extension l .refund refunds ∧
      Merges payments refunds result.events ∧ result.AddsUp extension.values) ∧
    ∀ e, result.error = some e → result = .failed e := by
  intro result
  have hcases : outcome config request l.logs l.times = .ok result ∨ ∃ e, result = .failed e :=
    ledgerBalance_cases config request l
  clear_value result
  rcases hcases with houtcome | ⟨e, rfl⟩
  · obtain ⟨extension, payments, refunds, hextension, hpayments, hrefunds, rfl⟩ := outcome_eq_ok.1 houtcome
    have hpaid := valid_of_found hpayments
    have hrefunded := valid_of_found hrefunds
    refine ⟨fun _ => ⟨extension, payments, refunds, hextension, lists_of_found hpayments, lists_of_found hrefunds,
      ?_, ?_⟩, nofun⟩
    · exact merges_merged (fun e he => (hpaid e he).1) fun e he => (hrefunded e he).1
    · exact addsUp_balanceOf hpaid hrefunded
  · exact ⟨nofun, fun _ he => congrArg Balance.failed (Option.some.inj he)⟩

/-- The extension of the trial with a fee address. -/
def trialFeeExtension : ExtensionState :=
  { trialExtension with
    values := { trialExtension.values with feeAddress := some (Octets.replicate 0x0f : Address).render } }

def trialFeeRequest : Request :=
  { trialRequest with extensions := Dict.empty.insert network.id trialFeeExtension }

/-- A payment of the trial that pays a fee as well. -/
def trialFeePayment (transaction : Hash) (recipient : Address) (amount fee : Nat) : Payment :=
  { trialPayment transaction recipient amount with conversion := ⟨.clamp amount, .replicate 0x77, .clamp fee, .zero⟩ }

/-- A refund and, in the same second but later on the ledger, a payment. -/
def trialRefunded : Payment := trialFeePayment (.replicate 1) (.replicate 0x0b) 25 3

def trialPaid : Payment := trialFeePayment (.replicate 2) (.replicate 0x0a) 10 4

/-- The search of the trial for what reached an address. -/
def trialSearch (destination : Address) (direction : Direction) : Search :=
  searchAt .trial trialFeeRequest trialFeeExtension "ea3bc7caf64110ca" ⟨.replicate 0xcc, 1⟩ destination.render direction

/-- The ledger of the trial. -/
def trialFeeLedger : Ledger := (Ledger.empty.setTime 5 1005).payAll [trialRefunded, trialPaid]

theorem run_trialFeeLedger :
    ((ledgerBalance .trial trialFeeRequest).run trialFeeLedger).1 =
      balanceOf trialFeeExtension.values
        [(trialSearch (.replicate 0x0a) .payment).eventFor trialPaid trialPaid.transfer 1005]
        [(trialSearch (.replicate 0x0b) .refund).eventFor trialRefunded trialRefunded.transfer 1005] := by
  have hproxy : DetectionConfig.trial.deployment? "private" = some ⟨.replicate 0xcc, 1⟩ := by decide +kernel
  have hmade (transaction : Hash) (recipient : Address) (amount fee : Nat) :
      (trialFeePayment transaction recipient amount fee).MadeAt ⟨.replicate 0xcc, 1⟩ "01" "ea3bc7caf64110ca" :=
    ⟨rfl, (by decide : (1 : BlockNumber) ≤ 5), recipient.render, beq_self_eq_true _, rfl⟩
  have hmadeAt : ∀ p ∈ [trialRefunded, trialPaid], p.MadeAt ⟨.replicate 0xcc, 1⟩ "01" "ea3bc7caf64110ca" :=
    List.forall_mem_cons.2 ⟨hmade _ _ _ _, List.forall_mem_singleton.2 (hmade _ _ _ _)⟩
  have hdistinct : [trialRefunded, trialPaid].Pairwise fun p q => p.transaction ≠ q.transaction :=
    List.pairwise_pair.2 (by decide)
  have htime : (Ledger.empty.setTime 5 1005).timeOf 5 = 1005 := by decide
  have hpaid : (trialSearch (.replicate 0x0a) .payment).credits (Ledger.empty.setTime 5 1005).timeOf
      [trialRefunded, trialPaid] Payment.transfer =
        [(trialSearch (.replicate 0x0a) .payment).eventFor trialPaid trialPaid.transfer 1005] := by
    have hkept : (trialSearch (.replicate 0x0a) .payment).pays trialRefunded.transfer = false ∧
        (trialSearch (.replicate 0x0a) .payment).asks trialPaid.conversion = true ∧
        (trialSearch (.replicate 0x0a) .payment).pays trialPaid.transfer = true := by decide +kernel
    have hblock : trialPaid.block = 5 := rfl
    simp [Search.credits, hkept, hblock, htime]
  have hrefunded : (trialSearch (.replicate 0x0b) .refund).credits (Ledger.empty.setTime 5 1005).timeOf
      [trialRefunded, trialPaid] Payment.transfer =
        [(trialSearch (.replicate 0x0b) .refund).eventFor trialRefunded trialRefunded.transfer 1005] := by
    have hkept : (trialSearch (.replicate 0x0b) .refund).pays trialPaid.transfer = false ∧
        (trialSearch (.replicate 0x0b) .refund).asks trialRefunded.conversion = true ∧
        (trialSearch (.replicate 0x0b) .refund).pays trialRefunded.transfer = true := by decide +kernel
    have hblock : trialRefunded.block = 5 := rfl
    simp [Search.credits, hkept, hblock, htime]
  exact (run_ledgerBalance_payAll rfl hproxy hdistinct hmadeAt rfl Faults.quiet_never (by decide) rfl rfl rfl).trans
    (congrArg₂ (balanceOf trialFeeExtension.values) hpaid hrefunded)

/-- The payment stands before the refund of the same second, and the fees of both count. -/
theorem balance_audit_trial :
    let result := ((ledgerBalance .trial trialFeeRequest).run trialFeeLedger).1
    result.error = none ∧ result.events.map (·.name) = [.payment, .refund] ∧
      result.balance = some "-150000000000" ∧ result.feeBalance = some "70000000000" := by
  intro result
  obtain ⟨paid, hpaid⟩ : ∃ e, e = (trialSearch (.replicate 0x0a) .payment).eventFor trialPaid trialPaid.transfer 1005 :=
    ⟨_, rfl⟩
  obtain ⟨refunded, hrefunded⟩ : ∃ e,
      e = (trialSearch (.replicate 0x0b) .refund).eventFor trialRefunded trialRefunded.transfer 1005 := ⟨_, rfl⟩
  have hresult : result = balanceOf trialFeeExtension.values [paid] [refunded] := by
    rw [hpaid, hrefunded]
    exact run_trialFeeLedger
  have herror : result.error = none := by rw [hresult]; rfl
  obtain ⟨extension, payments, refunds, hextension, -, -, -, hadds⟩ := (balance_audit .trial trialFeeRequest _).1 herror
  obtain rfl : trialFeeExtension = extension := Option.some.inj hextension
  have hevents : result.events = [paid, refunded] := by
    rw [hresult]
    refine merged_eq_append (List.pairwise_pair.2 ?_)
    rw [hpaid, hrefunded]
    exact UInt64.le_refl 1005
  have hnames : [paid, refunded].map (·.name) = [.payment, .refund] := by
    rw [hpaid, hrefunded]
    rfl
  have htotals : (total (named .payment [paid, refunded])).value = 100000000000 ∧
      (total (named .refund [paid, refunded])).value = 250000000000 := by
    rw [hpaid, hrefunded]
    decide +kernel
  have hfees : feeFor trialFeeExtension.values.feeAddress paid = 40000000000 ∧
      feeFor trialFeeExtension.values.feeAddress refunded = 30000000000 := by
    rw [hpaid, hrefunded, Search.eventFor_eq, Search.eventFor_eq, Search.feeFor_eventOf, Search.feeFor_eventOf]
    decide +kernel
  refine ⟨herror, hevents ▸ hnames, ?_, ?_⟩
  · rw [hadds.balance]
    show some (toString (((total (named .payment result.events)).value : Int) -
      (total (named .refund result.events)).value)) = _
    rw [hevents, htotals.1, htotals.2]
    rfl
  · rw [hadds.feeBalance]
    show some (fees trialFeeExtension.values.feeAddress result.events).render = _
    rw [hevents, fees, List.map_cons, List.map_cons, hfees.1, hfees.2]
    decide

end Detector

end Invoicing
