import Invoicing.Proofs.Detection.Balance
import Invoicing.Proofs.Detection.Search

set_option autoImplicit false

/-! # What a balance comes to

The logs and times of a ledger determine the balance of a request while no call fails (`Detector.outcome`). Nothing can
go wrong after the searches: the amounts of their events are read back and added up without an error
(`Detector.combine_eq`), so a balance is that of the events that were found (`Detector.balanceOf`). -/

namespace Invoicing

open Ledger (Payment)

/-! ## Sums of events -/

namespace PaymentEvent

/-- The texts of the event are amounts. -/
structure Valid (e : PaymentEvent) : Prop where
  amount : Amount.isValidText e.amount = true
  fee : ∀ text, e.details.feeAmount = some text → Amount.isValidText text = true

/-- The sum of the amounts, at most the largest amount. -/
def total (events : List PaymentEvent) : Amount := .clamp (events.map fun e => Amount.worth e.amount).sum

/-- The fee that an event pays to an address. -/
def feeFor (address : Option String) (e : PaymentEvent) : Nat :=
  if address.any fun a => e.details.feeAddress.any fun b => Address.same b a then
    (e.details.feeAmount.map Amount.worth).getD 0
  else 0

/-- The sum of the fees paid to an address, at most the largest amount; nothing without one. -/
def fees (address : Option String) (events : List PaymentEvent) : Amount :=
  .clamp (events.map (feeFor address)).sum

theorem sum_eq {events : List PaymentEvent} (h : ∀ e ∈ events, e.Valid) : sum events = .ok (total events) := by
  have hvalid : ∀ text ∈ events.map (·.amount), Amount.isValidText text = true := by
    intro text htext
    obtain ⟨e, he, rfl⟩ := List.mem_map.1 htext
    exact (h e he).amount
  rw [sum, Amount.sumTexts_eq hvalid, List.map_map]
  rfl

@[simp] theorem fees_none (events : List PaymentEvent) : fees none events = .zero := by
  have hnothing : (events.map (feeFor none)).sum = 0 := by
    induction events with
    | nil => rfl
    | cons e events ih =>
      rw [List.map_cons, List.sum_cons, ih]
      rfl
  rw [fees, hnothing]
  rfl

theorem sum_worth_feesTo (address : String) (events : List PaymentEvent) :
    ((feesTo address events).map Amount.worth).sum = (events.map (feeFor (some address))).sum := by
  induction events with
  | nil => rfl
  | cons e events ih =>
    rw [List.map_cons, List.sum_cons, ← ih, feesTo, List.filter_cons, feeFor, Option.any_some]
    split
    · cases hfee : e.details.feeAmount <;> simp [feesTo, hfee]
    · simp [feesTo]

theorem feeSum_eq {events : List PaymentEvent} (h : ∀ e ∈ events, e.Valid) (address : Option String) :
    feeSum events address = .ok (fees address events) := by
  cases address with
  | none => rw [fees_none]; rfl
  | some address =>
    have hvalid : ∀ text ∈ feesTo address events, Amount.isValidText text = true := by
      intro text htext
      obtain ⟨e, he, hfee⟩ := List.mem_filterMap.1 htext
      exact (h e (List.mem_filter.1 he).1).fee text hfee
    rw [feeSum, Amount.sumTexts_eq hvalid, sum_worth_feesTo, fees]

end PaymentEvent

theorem Search.valid_eventOf (s : Search) (p : PairedTransfer) (time : Timestamp) : (s.eventOf p time).Valid where
  amount := Amount.isValidText_render _
  fee text htext := by
    obtain rfl := Option.some.inj htext
    exact Amount.isValidText_render _

theorem Search.eventFor_eq (s : Search) (p : Payment) (t : Transfer) (time : Timestamp) :
    s.eventFor p t time = s.eventOf (pairOf p t) time := rfl

theorem Search.feeFor_eventOf (s : Search) (p : PairedTransfer) (time : Timestamp) (address : Option String) :
    PaymentEvent.feeFor address (s.eventOf p time) =
      if address.any (Address.same p.transfer.feeAddress.render) then
        (s.currency.units p.conversion.feeAmount).value
      else 0 := by
  show (if address.any fun a => Address.same (Address.checksummed p.transfer.feeAddress) a then
    Amount.worth (s.currency.units p.conversion.feeAmount).render else 0) = _
  simp only [Address.same_checksummed, Amount.worth_render]

/-! ## Balances of events -/

/-- The address to which transfers in a direction go. -/
def PaymentValues.destination (values : PaymentValues) : Direction → Option String
  | .payment => values.paymentAddress
  | .refund => values.refundAddress

namespace Detector

open PaymentEvent

/-- Payments and refunds in the order of time. -/
def merged (payments refunds : List PaymentEvent) : List PaymentEvent :=
  (payments ++ refunds).mergeSort fun a b => a.timestamp ≤ b.timestamp

/-- The balance of payments and refunds. -/
def balanceOf (values : PaymentValues) (payments refunds : List PaymentEvent) : Balance :=
  ⟨some (toString (((total payments).value : Int) - (total refunds).value)),
    some (fees values.feeAddress (merged payments refunds)).render, merged payments refunds, none⟩

theorem merged_perm (payments refunds : List PaymentEvent) :
    (merged payments refunds).Perm (payments ++ refunds) := List.mergeSort_perm _ _

/-- Events with valid texts are combined without an error. -/
theorem combine_eq (values : PaymentValues) {payments refunds : List PaymentEvent} (hpayments : ∀ e ∈ payments, e.Valid)
    (hrefunds : ∀ e ∈ refunds, e.Valid) :
    combine values ⟨(total payments).render, payments⟩ ⟨(total refunds).render, refunds⟩ =
      .ok (balanceOf values payments refunds) := by
  have hvalid : ∀ e ∈ merged payments refunds, e.Valid := by
    intro e he
    rcases List.mem_append.1 ((merged_perm payments refunds).mem_iff.1 he) with he | he
    · exact hpayments e he
    · exact hrefunds e he
  rw [combine, signedBalance_render]
  show (feeSum (merged payments refunds) values.feeAddress >>= _) = _
  rw [feeSum_eq hvalid]
  rfl

/-! ## Searches of a request -/

variable {config : DetectionConfig} {request : Request} {extension : ExtensionState} {destination : String}
  {direction : Direction}

/-- The search for the transfers of a request under a salt and at a deployment. -/
def searchAt (config : DetectionConfig) (request : Request) (extension : ExtensionState) (salt : String)
    (proxy : ProxyDeployment) (destination : String) (direction : Direction) : Search where
  currency := .ofCurrency request.currency
  reference := Reference.make request.id salt destination
  proxy := proxy
  destination := destination
  direction := direction
  maxRateTimespan := extension.values.maxRateTimespan.getD config.maxRateTimespan

theorem search_eq_ok {s : Search} :
    search config request extension destination direction = .ok s ↔
      ∃ salt proxy, extension.values.salt = some salt ∧
        config.deployment? (extension.values.network.getD PaymentNetwork.defaultChain) = some proxy ∧
        s = searchAt config request extension salt proxy destination direction := by
  cases hsalt : extension.values.salt with
  | none => simp [search, hsalt]
  | some salt =>
    cases hproxy : config.deployment? (extension.values.network.getD PaymentNetwork.defaultChain) with
    | none => simp [search, hsalt, hproxy]
    | some proxy =>
      simp only [search, hsalt, hproxy]
      constructor
      · intro h
        exact ⟨salt, proxy, rfl, rfl, (Except.ok.inj h).symm⟩
      · rintro ⟨_, _, hsalt', hproxy', rfl⟩
        cases hsalt'
        cases hproxy'
        rfl

/-- The events in a direction that logs and times tell of; none without a destination. -/
def found (config : DetectionConfig) (request : Request) (extension : ExtensionState) (logs : List Log)
    (times : List (BlockNumber × Timestamp)) (direction : Direction) : Except DetectionError (List PaymentEvent) :=
  match extension.values.destination direction with
  | none => .ok []
  | some destination => search config request extension destination direction >>= fun s => s.outcome logs times

theorem found_eq {logs : List Log} {times : List (BlockNumber × Timestamp)}
    (h : extension.values.destination direction = some destination) :
    found config request extension logs times direction =
      (search config request extension destination direction >>= fun s => s.outcome logs times) := by
  rw [found, h]

/-- What the balance of a request comes to on these logs and times while no call fails. -/
def outcome (config : DetectionConfig) (request : Request) (logs : List Log)
    (times : List (BlockNumber × Timestamp)) : Except DetectionError Balance :=
  match request.extension? network.id with
  | none => .error (.missingExtension network.id)
  | some extension => do
    let payments ← found config request extension logs times .payment
    let refunds ← found config request extension logs times .refund
    return balanceOf extension.values payments refunds

variable {logs : List Log} {times : List (BlockNumber × Timestamp)}

theorem eventOf_of_outcome {s : Search} {events : List PaymentEvent} (h : s.outcome logs times = .ok events) :
    ∀ e ∈ events, ∃ p time, e = s.eventOf p time := by
  obtain ⟨reference, -, -, hreports⟩ := Search.reports_of_outcome h
  intro e he
  obtain ⟨log, -, conversion, transfer, time, -, -, -, rfl⟩ := Effect.exists_left_of_forall₂ hreports he
  exact ⟨_, _, rfl⟩

/-- Every event that is found is one of the search in its direction. -/
theorem eventOf_of_found {events : List PaymentEvent}
    (h : found config request extension logs times direction = .ok events) :
    ∀ e ∈ events, ∃ destination s p time, extension.values.destination direction = some destination ∧
      search config request extension destination direction = .ok s ∧ e = s.eventOf p time := by
  cases hdestination : extension.values.destination direction with
  | none =>
    rw [found, hdestination] at h
    cases h
    simp
  | some destination =>
    rw [found_eq hdestination] at h
    obtain ⟨s, hs, hevents⟩ := Effect.bind_eq_ok.1 h
    intro e he
    obtain ⟨p, time, rfl⟩ := eventOf_of_outcome hevents e he
    exact ⟨destination, s, p, time, rfl, hs, rfl⟩

theorem valid_of_found {events : List PaymentEvent}
    (h : found config request extension logs times direction = .ok events) :
    ∀ e ∈ events, e.name = direction ∧ e.Valid := by
  intro e he
  obtain ⟨destination, s, p, time, -, hs, rfl⟩ := eventOf_of_found h e he
  obtain ⟨salt, proxy, -, -, rfl⟩ := search_eq_ok.1 hs
  exact ⟨rfl, Search.valid_eventOf _ _ _⟩

/-! ## Answers -/

theorem comesTo_ledgerSource (destination : String) (direction : Direction) :
    Ledger.ComesTo logs times (ledgerSource config request extension destination direction)
      (search config request extension destination direction >>= fun s => s.outcome logs times >>= fun events =>
        .ok ⟨(total events).render, events⟩) := by
  refine (Ledger.comesTo_ofExcept _).bind fun s _ => s.comesTo_events.bind fun events hevents => ?_
  have hvalid : ∀ e ∈ events, e.Valid := by
    intro e he
    obtain ⟨p, time, rfl⟩ := eventOf_of_outcome hevents e he
    exact s.valid_eventOf p time
  rw [sum_eq hvalid]
  exact Ledger.comesTo_pure _

theorem comesTo_directionBalance (direction : Direction) :
    Ledger.ComesTo logs times
      (directionBalance (ledgerSource config request extension) (extension.values.destination direction) direction)
      (found config request extension logs times direction >>= fun events => .ok ⟨(total events).render, events⟩) := by
  unfold found
  cases extension.values.destination direction with
  | none => exact Ledger.comesTo_pure _
  | some destination =>
    show Ledger.ComesTo logs times _ ((_ >>= _) >>= _)
    rw [bind_assoc]
    exact comesTo_ledgerSource destination direction

theorem comesTo_bind_directionBalance {α : Type} (direction : Direction) {f : DirectionBalance → LedgerM α}
    {g : List PaymentEvent → Except DetectionError α}
    (hf : ∀ events, found config request extension logs times direction = .ok events →
      Ledger.ComesTo logs times (f ⟨(total events).render, events⟩) (g events)) :
    Ledger.ComesTo logs times
      (directionBalance (ledgerSource config request extension) (extension.values.destination direction) direction
        >>= f)
      (found config request extension logs times direction >>= g) := by
  have hdirection : Ledger.ComesTo logs times
      (directionBalance (ledgerSource config request extension) (extension.values.destination direction) direction)
      (found config request extension logs times direction >>= fun events => .ok ⟨(total events).render, events⟩) :=
    comesTo_directionBalance direction
  have hbind := hdirection.bind (f := f) (g := fun b => g b.events) fun b hb => by
    obtain ⟨events, hevents, hb⟩ := Effect.bind_eq_ok.1 hb
    obtain rfl := Except.ok.inj hb
    exact hf events hevents
  rwa [bind_assoc] at hbind

theorem comesTo_compute (config : DetectionConfig) (request : Request) :
    Ledger.ComesTo logs times (compute (ledgerSource config request) request) (outcome config request logs times) := by
  unfold compute outcome
  cases request.extension? network.id with
  | none => exact Ledger.comesTo_ofExcept (.error _)
  | some extension =>
    refine comesTo_bind_directionBalance .payment fun payments hpayments => ?_
    refine comesTo_bind_directionBalance .refund fun refunds hrefunds => ?_
    rw [combine_eq _ (fun e he => (valid_of_found hpayments e he).2) fun e he => (valid_of_found hrefunds e he).2]
    exact Ledger.comesTo_pure _

/-! ## Results -/

variable {l : Ledger}

theorem run_balanceFrom (source : ExtensionState → String → Direction → LedgerM DirectionBalance) (l : Ledger) :
    (balanceFrom source request).run l =
      ((match ((compute source request).run.run l).1 with
        | .ok b => b
        | .error e => .failed e.toBalanceError), ((compute source request).run.run l).2) := by
  rw [balanceFrom, StateT.run_bind]
  generalize (compute source request).run.run l = out
  obtain ⟨result, l'⟩ := out
  cases result <;> rfl

theorem outcome_eq_ok {b : Balance} :
    outcome config request logs times = .ok b ↔ ∃ extension payments refunds,
      request.extension? network.id = some extension ∧
      found config request extension logs times .payment = .ok payments ∧
      found config request extension logs times .refund = .ok refunds ∧
      b = balanceOf extension.values payments refunds := by
  unfold outcome
  cases request.extension? network.id with
  | none => exact ⟨nofun, fun ⟨_, _, _, h, _⟩ => nomatch h⟩
  | some extension =>
    constructor
    · intro h
      obtain ⟨payments, hpayments, h⟩ := Effect.bind_eq_ok.1 h
      obtain ⟨refunds, hrefunds, h⟩ := Effect.bind_eq_ok.1 h
      exact ⟨extension, payments, refunds, rfl, hpayments, hrefunds, (Except.ok.inj h).symm⟩
    · rintro ⟨_, payments, refunds, hextension, hpayments, hrefunds, rfl⟩
      cases hextension
      exact Effect.bind_eq_ok.2 ⟨payments, hpayments, Effect.bind_eq_ok.2 ⟨refunds, hrefunds, rfl⟩⟩

/-- A balance is the one that logs and times determine, or there is none. -/
theorem ledgerBalance_cases (config : DetectionConfig) (request : Request) (l : Ledger) :
    outcome config request l.logs l.times = .ok ((ledgerBalance config request).run l).1 ∨
      ∃ e, ((ledgerBalance config request).run l).1 = .failed e := by
  obtain ⟨-, -, hresult⟩ := (comesTo_compute config request).answers l rfl rfl
  rw [ledgerBalance, run_balanceFrom]
  rcases hresult with hresult | ⟨e, hresult⟩
  · rw [hresult]
    cases houtcome : outcome config request l.logs l.times with
    | ok b => exact .inl rfl
    | error e => exact .inr ⟨e.toBalanceError, rfl⟩
  · rw [hresult]
    exact .inr ⟨e.toBalanceError, rfl⟩

/-- While no call fails, the logs and times determine the balance. -/
theorem run_ledgerBalance {b : Balance} (hquiet : l.faults.Quiet)
    (h : outcome config request l.logs l.times = .ok b) : ((ledgerBalance config request).run l).1 = b := by
  rw [ledgerBalance, run_balanceFrom, (comesTo_compute config request).answers.run_eq hquiet, h]

/-! ## Recorded payments -/

/-- A payment with a well-formed reference leaves its two logs, and no others are left. -/
theorem mem_recorded {p : Payment} {log : Log} : log ∈ p.recorded ↔
    ∃ topic, Reference.topic p.reference = .ok topic ∧ (log = p.asked topic ∨ log = p.paid topic) := by
  unfold Payment.recorded
  cases Reference.topic p.reference with
  | error e => simp
  | ok topic => simp [Payment.logs, Payment.asked, Payment.paid]

section Recorded

variable {salt : String} {proxy : ProxyDeployment} {ps : List Payment}
  (hsalt : extension.values.salt = some salt)
  (hproxy : config.deployment? (extension.values.network.getD PaymentNetwork.defaultChain) = some proxy)
  (hdistinct : ps.Pairwise fun p q => p.transaction ≠ q.transaction)
  (hmadeAt : ∀ p ∈ ps, p.MadeAt proxy request.id salt)

include hsalt hproxy hdistinct hmadeAt

/-- On a ledger that holds payments alone those to a destination are found, each with its own transfer. -/
theorem found_payAll (hholds : l.Holds ps) (h : extension.values.destination direction = some destination) :
    found config request extension l.logs l.times direction =
      .ok ((searchAt config request extension salt proxy destination direction).credits l.timeOf ps
        Payment.transfer) := by
  obtain ⟨reference, hreference⟩ := Reference.topic_make request.id salt destination
  have hevents := Search.run_events_due (s := searchAt config request extension salt proxy destination direction) hholds
    hdistinct (decimals_le request.currency) hreference fun p hp => Search.finds_of_pays rfl (hmadeAt p hp)
  rw [(Search.answers_events _).run_eq hholds.quiet] at hevents
  rw [found_eq h]
  exact Effect.bind_eq_ok.2 ⟨_, search_eq_ok.2 ⟨salt, proxy, hsalt, hproxy, rfl⟩, hevents⟩

/-- The balance of recorded payments to two addresses is that of the credits for each. -/
theorem run_ledgerBalance_payAll (hlogs : l.logs = []) (hquiet : l.faults.Quiet)
    (htimes : ∀ p ∈ ps, (l.times.lookup p.block).isSome) (hextension : request.extension? network.id = some extension)
    {payment refund : String} (hpayment : extension.values.paymentAddress = some payment)
    (hrefund : extension.values.refundAddress = some refund) :
    ((ledgerBalance config request).run (l.payAll ps)).1 = balanceOf extension.values
      ((searchAt config request extension salt proxy payment .payment).credits l.timeOf ps Payment.transfer)
      ((searchAt config request extension salt proxy refund .refund).credits l.timeOf ps Payment.transfer) := by
  have hholds := Ledger.holds_payAll hlogs hquiet htimes
  have htime : (l.payAll ps).timeOf = l.timeOf := by
    rw [Ledger.payAll_eq]
    rfl
  rw [← htime]
  exact run_ledgerBalance hholds.quiet (outcome_eq_ok.2 ⟨extension, _, _, hextension,
    found_payAll hsalt hproxy hdistinct hmadeAt hholds hpayment,
    found_payAll hsalt hproxy hdistinct hmadeAt hholds hrefund, rfl⟩)

end Recorded

end Detector

end Invoicing
