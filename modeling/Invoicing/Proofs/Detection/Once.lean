import Invoicing.Proofs.Detection.Audit
import Invoicing.Proofs.Extension.History
import Mathlib.Algebra.BigOperators.Group.Finset.Basic
import Mathlib.Data.List.Nodup
import Mathlib.Data.List.Perm.Basic

set_option autoImplicit false

/-! # What an event comes from

Every event of a balance comes from a log that asked for a payment and from one that tells its transfer. The searches
for payments and for refunds know nothing of each other, and it takes different destinations to keep a log from being
counted for both, and its fee from being added twice (`Detector.counted_once`). -/

namespace Invoicing

open Ledger (Payment)

/-- The places on the ledger of the log that asked for a payment and of the one that tells its transfer. -/
structure Origin where
  direction : Direction
  asked : Nat
  paid : Nat
deriving DecidableEq

/-- The places of the two logs, whatever the direction. -/
def Origin.places (o : Origin) : Nat × Nat := (o.asked, o.paid)

/-- The fee that the logs at two places tell, in units of a currency. It is what the first of them asks for, if the second
pays it to the address. -/
def Ledger.feeAt (logs : List Log) (currency : PreciseCurrency) (address : Option String) (places : Nat × Nat) : Nat :=
  match logs[places.1]?.bind fun log => Conversion.decode? log.data,
    logs[places.2]?.bind fun log => Transfer.decode? log.data with
  | some conversion, some transfer =>
    if address.any (Address.same transfer.feeAddress.render) then (currency.units conversion.feeAmount).value else 0
  | _, _ => 0

/-- No two logs of a contract ask for payments in one transaction and under one reference. -/
def Ledger.AsksOnce (logs : List Log) : Prop :=
  logs.Pairwise fun a b => ¬ (a.address = b.address ∧ a.transaction = b.transaction ∧
    a.topics[0]? = some Conversion.topic ∧ b.topics[0]? = some Conversion.topic ∧ a.topics[1]? = b.topics[1]?)

namespace Search

variable {s s' : Search} {logs : List Log} {times : List (BlockNumber × Timestamp)} {reference reference' : Hash}
  {log log' : Log}

/-- The place of the first log with a transfer of a transaction. -/
def transferPlace (s : Search) (logs : List Log) (reference transaction : Hash) : Nat :=
  logs.findIdx fun log => decide (s.Concerns Transfer.topic reference log) && log.transaction == transaction

/-- The event is that of the log at a place, which is due, and of the transfer at another. -/
def Traces (s : Search) (logs : List Log) (times : List (BlockNumber × Timestamp)) (o : Origin) (e : PaymentEvent) :
    Prop :=
  ∃ reference log, Reference.topic s.reference = .ok reference ∧ o.direction = s.direction ∧
    logs[o.asked]? = some log ∧ s.isDue logs reference log = true ∧
    o.paid = s.transferPlace logs reference log.transaction ∧ s.Reports logs times reference log e

/-- At the place of the transfer of a log that is due, there is one that reaches the destination. -/
theorem pays_transferPlace (h : s.isDue logs reference log = true) :
    ∃ other transfer, logs[s.transferPlace logs reference log.transaction]? = some other ∧
      s.Concerns Transfer.topic reference other ∧ other.transaction = log.transaction ∧
      Transfer.decode? other.data = some transfer ∧ s.pays transfer = true := by
  obtain ⟨transfer, htransfer, hpays⟩ := (Option.any_eq_true _ _).1 (isDue_iff.1 h).2.2
  obtain ⟨other, hfind, hdecode⟩ := Option.bind_eq_some_iff.1 htransfer
  have hother := List.find?_some hfind
  simp only [Bool.and_eq_true, decide_eq_true_eq, beq_iff_eq] at hother
  rw [List.find?_eq_getElem?_findIdx] at hfind
  exact ⟨other, transfer, hfind, hother.1, hother.2, hdecode, hpays⟩

/-- A transfer tells the destination, and the transaction and reference of the logs that it pays. -/
theorem same_of_transferPlace (h : s.isDue logs reference log = true) (h' : s'.isDue logs reference' log' = true)
    (hplace : s.transferPlace logs reference log.transaction = s'.transferPlace logs reference' log'.transaction) :
    Address.same s.destination s'.destination = true ∧ log.transaction = log'.transaction ∧ reference = reference' := by
  obtain ⟨other, transfer, hother, hconcerns, htransaction, hdecode, hpays⟩ := pays_transferPlace h
  obtain ⟨other', transfer', hother', hconcerns', htransaction', hdecode', hpays'⟩ := pays_transferPlace h'
  obtain rfl : other = other' := Option.some.inj (hother.symm.trans (hplace ▸ hother'))
  obtain rfl : transfer = transfer' := Option.some.inj (hdecode.symm.trans hdecode')
  exact ⟨Address.same_of_same hpays hpays', htransaction.symm.trans htransaction',
    Option.some.inj (hconcerns.2.2.2.symm.trans hconcerns'.2.2.2)⟩

/-- A log that two searches find due is paid by one transfer for both. -/
theorem transferPlace_eq (hproxy : s.proxy = s'.proxy) (h : s.isDue logs reference log = true)
    (h' : s'.isDue logs reference' log = true) :
    s.transferPlace logs reference log.transaction = s'.transferPlace logs reference' log.transaction := by
  obtain rfl : reference = reference' :=
    Option.some.inj ((isDue_iff.1 h).1.2.2.2.symm.trans (isDue_iff.1 h').1.2.2.2)
  refine congrArg logs.findIdx (funext fun other => ?_)
  have hconcerns : s.Concerns Transfer.topic reference other ↔ s'.Concerns Transfer.topic reference other := by
    simp only [Concerns, hproxy]
  rw [decide_eq_decide.2 hconcerns]

theorem transferOf?_eq_bind (s : Search) (logs : List Log) (reference transaction : Hash) :
    s.transferOf? logs reference transaction =
      logs[s.transferPlace logs reference transaction]?.bind fun log => Transfer.decode? log.data := by
  rw [transferOf?, List.find?_eq_getElem?_findIdx]
  rfl

/-- The fee of an event is the one that its two logs tell. -/
theorem Traces.feeAt_eq {o : Origin} {e : PaymentEvent} (h : s.Traces logs times o e) (address : Option String) :
    Ledger.feeAt logs s.currency address o.places = PaymentEvent.feeFor address e := by
  obtain ⟨reference, log, -, -, hlog, -, hplace, conversion, transfer, time, hconversion, htransfer, -, rfl⟩ := h
  rw [transferOf?_eq_bind, ← hplace] at htransfer
  have hasked : (logs[o.asked]?.bind fun log => Conversion.decode? log.data) = some conversion := by
    rw [hlog]
    exact hconversion
  simp only [Ledger.feeAt, Origin.places, hasked, htransfer, feeFor_eventOf]

/-- The events of a search come from logs at different places. -/
theorem traces_of_outcome {events : List PaymentEvent} (h : s.outcome logs times = .ok events) :
    ∃ origins, List.Forall₂ (s.Traces logs times) origins events ∧ (origins.map (·.asked)).Nodup := by
  obtain ⟨reference, hreference, -, hreports⟩ := reports_of_outcome h
  obtain ⟨places, hplaces, hsorted⟩ :=
    List.sublist_eq_map_getElem (List.filter_sublist (l := logs) (p := s.isDue logs reference))
  have hdue : ∀ log ∈ logs.filter (s.isDue logs reference), s.isDue logs reference log = true :=
    fun log hlog => (List.mem_filter.1 hlog).2
  have htold := (List.forall₂_and_left _ _).2 ⟨hdue, hreports⟩
  rw [hplaces, List.forall₂_map_left_iff] at htold
  refine ⟨places.map fun (i : Fin logs.length) =>
    ⟨s.direction, i, s.transferPlace logs reference logs[i].transaction⟩, ?_, ?_⟩
  · rw [List.forall₂_map_left_iff]
    refine htold.imp fun i e ⟨hdue, hreports⟩ => ?_
    exact ⟨reference, logs[i], hreference, rfl, List.getElem?_eq_getElem i.isLt, hdue, rfl, hreports⟩
  · rw [List.map_map]
    exact List.Pairwise.map _ (fun i j hlt => Nat.ne_of_lt hlt) hsorted

end Search

namespace Detector

open PaymentEvent

/-- The event comes from the logs at two places, as the search of the request in its direction finds them. -/
def Traces (config : DetectionConfig) (request : Request) (logs : List Log) (times : List (BlockNumber × Timestamp))
    (o : Origin) (e : PaymentEvent) : Prop :=
  ∃ extension destination s, request.extension? network.id = some extension ∧
    extension.values.destination o.direction = some destination ∧
    search config request extension destination o.direction = .ok s ∧ s.Traces logs times o e

/-- The request has payments and refunds go to addresses that differ in more than the case of letters. -/
def Distinguishes (request : Request) : Prop :=
  ∀ extension payment refund, request.extension? network.id = some extension →
    extension.values.paymentAddress = some payment → extension.values.refundAddress = some refund →
    Address.same payment refund = false

variable {config : DetectionConfig} {request : Request} {extension : ExtensionState} {logs : List Log}
  {times : List (BlockNumber × Timestamp)} {o o' : Origin} {e e' : PaymentEvent}

theorem Distinguishes.direction_eq (h : Distinguishes request)
    (hextension : request.extension? network.id = some extension) {direction direction' : Direction}
    {destination destination' : String} (hdestination : extension.values.destination direction = some destination)
    (hdestination' : extension.values.destination direction' = some destination')
    (hsame : Address.same destination destination' = true) : direction = direction' := by
  have hsymm {a b : String} (h : Address.same a b = true) : Address.same b a = true :=
    Address.same_of_same h (beq_self_eq_true _)
  cases direction <;> cases direction'
  · rfl
  · exact nomatch (h extension destination destination' hextension hdestination hdestination').symm.trans hsame
  · exact nomatch (h extension destination' destination hextension hdestination' hdestination).symm.trans (hsymm hsame)
  · rfl

/-- Origins of one transfer are of one search. -/
theorem same_of_paid_eq (h : Distinguishes request) (ho : Traces config request logs times o e)
    (ho' : Traces config request logs times o' e') (hpaid : o.paid = o'.paid) :
    o.direction = o'.direction ∧ ∃ (s : Search) (reference : Hash) (log log' : Log),
      logs[o.asked]? = some log ∧ logs[o'.asked]? = some log' ∧ s.Concerns Conversion.topic reference log ∧
        s.Concerns Conversion.topic reference log' ∧ log.transaction = log'.transaction := by
  obtain ⟨extension, destination, s, hextension, hdestination, hs, reference, log, -, -, hlog, hdue, hplace, -⟩ := ho
  obtain ⟨_, destination', s', hextension', hdestination', hs', reference', log', -, -, hlog', hdue', hplace', -⟩ := ho'
  cases hextension.symm.trans hextension'
  obtain ⟨hsame, htransaction, rfl⟩ :=
    Search.same_of_transferPlace hdue hdue' (hplace.symm.trans (hpaid.trans hplace'))
  obtain ⟨salt, proxy, -, -, rfl⟩ := search_eq_ok.1 hs
  obtain ⟨salt', proxy', -, -, rfl⟩ := search_eq_ok.1 hs'
  have hdirection := h.direction_eq hextension hdestination hdestination' hsame
  rw [← hdirection] at hs' hdestination' hdue'
  obtain rfl : destination = destination' := Option.some.inj (hdestination.symm.trans hdestination')
  rw [← Except.ok.inj (hs.symm.trans hs')] at hdue'
  exact ⟨hdirection, _, reference, log, log', hlog, hlog', (Search.isDue_iff.1 hdue).1, (Search.isDue_iff.1 hdue').1,
    htransaction⟩

/-- Both searches pair a log with the same transfer. -/
theorem paid_eq_of_asked_eq (ho : Traces config request logs times o e) (ho' : Traces config request logs times o' e')
    (hasked : o.asked = o'.asked) : o.paid = o'.paid := by
  obtain ⟨extension, _, s, hextension, -, hs, reference, log, -, -, hlog, hdue, hplace, -⟩ := ho
  obtain ⟨_, _, s', hextension', -, hs', reference', log', -, -, hlog', hdue', hplace', -⟩ := ho'
  cases hextension.symm.trans hextension'
  obtain rfl : log = log' := Option.some.inj (hlog.symm.trans (hasked ▸ hlog'))
  obtain ⟨_, proxy, -, hproxy, rfl⟩ := search_eq_ok.1 hs
  obtain ⟨_, proxy', -, hproxy', rfl⟩ := search_eq_ok.1 hs'
  obtain rfl : proxy = proxy' := Option.some.inj (hproxy.symm.trans hproxy')
  rw [hplace, hplace']
  exact Search.transferPlace_eq (by rfl) hdue hdue'

theorem origin_eq_of_asked (h : Distinguishes request) (ho : Traces config request logs times o e)
    (ho' : Traces config request logs times o' e') (hasked : o.asked = o'.asked) : o = o' := by
  have hpaid := paid_eq_of_asked_eq ho ho' hasked
  rw [Origin.mk.injEq]
  exact ⟨(same_of_paid_eq h ho ho' hpaid).1, hasked, hpaid⟩

theorem origin_eq_of_paid (h : Distinguishes request) (honce : Ledger.AsksOnce logs)
    (ho : Traces config request logs times o e) (ho' : Traces config request logs times o' e')
    (hpaid : o.paid = o'.paid) : o = o' := by
  obtain ⟨-, s, reference, log, log', hlog, hlog', hconcerns, hconcerns', htransaction⟩ :=
    same_of_paid_eq h ho ho' hpaid
  have hnot {i j : Nat} {a b : Log} (hi : logs[i]? = some a) (hj : logs[j]? = some b) (hlt : i < j)
      (ha : s.Concerns Conversion.topic reference a) (hb : s.Concerns Conversion.topic reference b) :
      a.transaction ≠ b.transaction := by
    obtain ⟨hilt, rfl⟩ := List.getElem?_eq_some_iff.1 hi
    obtain ⟨hjlt, rfl⟩ := List.getElem?_eq_some_iff.1 hj
    intro hsame
    exact List.pairwise_iff_getElem.1 honce i j hilt hjlt hlt ⟨ha.1.trans hb.1.symm, hsame, ha.2.2.1, hb.2.2.1,
      ha.2.2.2.trans hb.2.2.2.symm⟩
  refine origin_eq_of_asked h ho ho' (Nat.le_antisymm (Nat.not_lt.1 fun hlt => ?_) (Nat.not_lt.1 fun hlt => ?_))
  · exact hnot hlog' hlog hlt hconcerns' hconcerns htransaction.symm
  · exact hnot hlog hlog' hlt hconcerns hconcerns' htransaction

/-! ## Fees -/

/-- The fees that the logs at some places tell, at most the largest amount. -/
def feesAt (request : Request) (extension : ExtensionState) (logs : List Log) (places : Finset (Nat × Nat)) : Amount :=
  .clamp (∑ p ∈ places, Ledger.feeAt logs (.ofCurrency request.currency) extension.values.feeAddress p)

theorem Traces.feeAt_eq (h : Traces config request logs times o e) (address : Option String) :
    Ledger.feeAt logs (.ofCurrency request.currency) address o.places = feeFor address e := by
  obtain ⟨extension, destination, s, -, -, hs, htraces⟩ := h
  obtain ⟨salt, proxy, -, -, rfl⟩ := search_eq_ok.1 hs
  exact htraces.feeAt_eq address

/-- If no log has two events, the fees of the events are those that the logs tell, each added once. -/
theorem fees_eq_feesAt {origins : List Origin} {events : List PaymentEvent}
    (h : List.Forall₂ (Traces config request logs times) origins events) (honce : (origins.map (·.asked)).Nodup)
    (extension : ExtensionState) :
    fees extension.values.feeAddress events =
      feesAt request extension logs (origins.map Origin.places).toFinset := by
  have hplaces : (origins.map Origin.places).Nodup := by
    refine List.Nodup.of_map Prod.fst ?_
    rwa [List.map_map]
  have hfees : (origins.map fun o =>
      Ledger.feeAt logs (.ofCurrency request.currency) extension.values.feeAddress o.places) =
        events.map (feeFor extension.values.feeAddress) := by
    rw [← List.forall₂_eq_eq_eq, List.forall₂_map_left_iff, List.forall₂_map_right_iff]
    exact h.imp fun o e ho => ho.feeAt_eq extension.values.feeAddress
  rw [fees, feesAt, List.sum_toFinset _ hplaces, List.map_map, ← hfees]
  rfl

/-! ## Both directions -/

theorem traces_of_found {direction : Direction} {events : List PaymentEvent}
    (hextension : request.extension? network.id = some extension)
    (h : found config request extension logs times direction = .ok events) :
    ∃ origins, List.Forall₂ (Traces config request logs times) origins events ∧
      (origins.map fun o => (o.direction, o.asked)).Nodup ∧ ∀ o ∈ origins, o.direction = direction := by
  cases hdestination : extension.values.destination direction with
  | none =>
    rw [found, hdestination] at h
    cases h
    exact ⟨[], .nil, .nil, by simp⟩
  | some destination =>
    rw [found_eq hdestination] at h
    obtain ⟨s, hs, hevents⟩ := Effect.bind_eq_ok.1 h
    obtain ⟨origins, htraces, hnodup⟩ := Search.traces_of_outcome hevents
    have hdirection : s.direction = direction := by
      obtain ⟨_, _, -, -, rfl⟩ := search_eq_ok.1 hs
      rfl
    have hall : ∀ o ∈ origins, o.direction = direction := by
      intro o ho
      obtain ⟨e, -, reference, log, -, ho, -⟩ := Effect.exists_left_of_forall₂ htraces.flip ho
      exact ho.trans hdirection
    refine ⟨origins, ((List.forall₂_and_left _ _).2 ⟨hall, htraces⟩).imp ?_, ?_, hall⟩
    · rintro o e ⟨rfl, htraces⟩
      exact ⟨extension, destination, s, hextension, hdestination, hs, htraces⟩
    · refine List.Nodup.of_map Prod.snd ?_
      rwa [List.map_map]

/-- The events of both directions come from logs at different places, or in different directions. -/
theorem traces_of_outcome {result : Balance} (h : outcome config request logs times = .ok result) :
    ∃ origins, List.Forall₂ (Traces config request logs times) origins result.events ∧
      (origins.map fun o => (o.direction, o.asked)).Nodup := by
  obtain ⟨extension, payments, refunds, hextension, hpayments, hrefunds, rfl⟩ := outcome_eq_ok.1 h
  obtain ⟨paid, hpaid, hpaidOnce, hpaidAll⟩ := traces_of_found hextension hpayments
  obtain ⟨refunded, hrefunded, hrefundedOnce, hrefundedAll⟩ := traces_of_found hextension hrefunds
  -- The events are sorted, and their origins with them.
  obtain ⟨origins, horigins, hperm⟩ := List.perm_comp_forall₂ (merged_perm payments refunds)
    (List.rel_append hpaid hrefunded).flip
  refine ⟨origins, horigins.flip, ?_⟩
  rw [(hperm.map _).nodup_iff, List.map_append, List.nodup_append]
  refine ⟨hpaidOnce, hrefundedOnce, fun a ha b hb hab => ?_⟩
  obtain ⟨o, ho, rfl⟩ := List.mem_map.1 ha
  obtain ⟨o', ho', rfl⟩ := List.mem_map.1 hb
  exact nomatch (hpaidAll o ho).symm.trans ((congrArg Prod.fst hab).trans (hrefundedAll o' ho'))

/-- What tells the origins of events from each other occurs once among them. -/
theorem nodup_map_of_traces {origins : List Origin} {events : List PaymentEvent} {f : Origin → Nat}
    (h : List.Forall₂ (Traces config request logs times) origins events) (hnodup : origins.Nodup)
    (hinj : ∀ o o' e e', Traces config request logs times o e → Traces config request logs times o' e' →
      f o = f o' → o = o') : (origins.map f).Nodup := by
  refine hnodup.map_on ?_
  intro o ho o' ho' hf
  obtain ⟨e, -, he⟩ := Effect.exists_left_of_forall₂ h.flip ho
  obtain ⟨e', -, he'⟩ := Effect.exists_left_of_forall₂ h.flip ho'
  exact hinj o o' e e' he he' hf

/-- **Nothing is counted twice unless payments and refunds go to one address.** Every event of a balance comes from a
log that asks for a payment, and each such log has at most one event in each direction. If the payment and the refund
address differ in more than the case of letters, then it has at most one event altogether; and if no transaction asks
twice under one reference, no transfer is told by two events, as a payment and a refund or otherwise. The fee balance
sums up the fees of the events. If the addresses differ, it sums up what the logs tell, and the fee of no log is added
twice. -/
theorem counted_once (config : DetectionConfig) (request : Request) (l : Ledger) :
    let result := ((ledgerBalance config request).run l).1
    ∃ origins, List.Forall₂ (Traces config request l.logs l.times) origins result.events ∧
      (origins.map fun o => (o.direction, o.asked)).Nodup ∧
      (Distinguishes request → (origins.map (·.asked)).Nodup ∧
        (Ledger.AsksOnce l.logs → (origins.map (·.paid)).Nodup)) ∧
      (result.error = none → ∃ extension, request.extension? network.id = some extension ∧
        result.feeBalance = some (PaymentEvent.fees extension.values.feeAddress result.events).render ∧
        (Distinguishes request → result.feeBalance =
          some (feesAt request extension l.logs (origins.map Origin.places).toFinset).render)) := by
  intro result
  have hcases : outcome config request l.logs l.times = .ok result ∨ ∃ e, result = .failed e :=
    ledgerBalance_cases config request l
  clear_value result
  rcases hcases with houtcome | ⟨e, rfl⟩
  · obtain ⟨origins, htraces, honce⟩ := traces_of_outcome houtcome
    obtain ⟨extension, payments, refunds, hextension, -, -, rfl⟩ := outcome_eq_ok.1 houtcome
    have hasked (h : Distinguishes request) : (origins.map (·.asked)).Nodup :=
      nodup_map_of_traces htraces (honce.of_map _) fun _ _ _ _ => origin_eq_of_asked h
    refine ⟨origins, htraces, honce, ?_, ?_⟩
    · intro h
      refine ⟨hasked h, fun hasks => ?_⟩
      exact nodup_map_of_traces htraces (honce.of_map _) fun _ _ _ _ => origin_eq_of_paid h hasks
    · intro _
      refine ⟨extension, hextension, rfl, fun h => ?_⟩
      rw [← fees_eq_feesAt htraces (hasked h) extension]
      rfl
  · exact ⟨[], .nil, .nil, fun _ => ⟨.nil, fun _ => .nil⟩, nofun⟩

/-! ## Payments in transactions of their own -/

/-- Of the two logs of a payment the first asks for it. -/
theorem place_logs {p : Payment} {topic : Hash} {i : Nat} {log : Log} (hlog : (p.logs topic)[i]? = some log)
    (hasks : log.topics[0]? = some Conversion.topic) : i = 0 := by
  have hlogs : p.logs topic = [p.asked topic, p.paid topic] := rfl
  have hpaid : (p.paid topic).topics[0]? = some Transfer.topic := rfl
  rw [hlogs] at hlog
  rcases i with _ | _ | i
  · rfl
  · obtain rfl : p.paid topic = log := by simpa using hlog
    exact absurd (Option.some.inj (hasks.symm.trans hpaid)) Conversion.topic_ne
  · simp at hlog

/-- Payments in transactions of their own are asked for once in each. -/
theorem asksOnce_payAll {l : Ledger} {ps : List Payment} (hlogs : l.logs = [])
    (hdistinct : ps.Pairwise fun p q => p.transaction ≠ q.transaction) : Ledger.AsksOnce (l.payAll ps).logs := by
  rw [Ledger.payAll_eq, hlogs, List.nil_append, Ledger.AsksOnce, List.pairwise_flatMap]
  have htransaction {p : Payment} {log : Log} (hlog : log ∈ p.recorded) : log.transaction = p.transaction := by
    obtain ⟨topic, -, rfl | rfl⟩ := mem_recorded.1 hlog <;> rfl
  refine ⟨fun p _ => ?_, hdistinct.imp fun hne a ha b hb h => ?_⟩
  · unfold Payment.recorded
    split
    · refine List.pairwise_pair.2 fun h => ?_
      exact Conversion.topic_ne (Option.some.inj h.2.2.2.1).symm
    · exact .nil
  · exact hne ((htransaction ha).symm.trans (h.2.1.trans (htransaction hb)))

/-- The payment and the refund of the trial come from different logs and tell different transfers, and the fee of each is
added once. -/
theorem counted_once_trial :
    let result := ((ledgerBalance .trial trialFeeRequest).run trialFeeLedger).1
    result.error = none ∧
    ∃ origins, List.Forall₂ (Traces .trial trialFeeRequest trialFeeLedger.logs trialFeeLedger.times) origins
        result.events ∧
      origins.length = 2 ∧ (origins.map (·.asked)).Nodup ∧ (origins.map (·.paid)).Nodup ∧
      result.feeBalance = some (feesAt trialFeeRequest trialFeeExtension trialFeeLedger.logs
        (origins.map Origin.places).toFinset).render := by
  intro result
  have hresult : result = _ := run_trialFeeLedger
  have herror : result.error = none := by
    rw [hresult]
    rfl
  have hlength : result.events.length = 2 := by
    rw [hresult]
    exact (merged_perm _ _).length_eq
  have hdistinguishes : Distinguishes trialFeeRequest := by
    intro extension payment refund hextension hpayment hrefund
    obtain rfl : trialFeeExtension = extension := Option.some.inj hextension
    cases hpayment
    cases hrefund
    decide +kernel
  have hasks : Ledger.AsksOnce trialFeeLedger.logs := asksOnce_payAll rfl (List.pairwise_pair.2 (by decide))
  obtain ⟨origins, htraces, -, honce, hfees⟩ := counted_once .trial trialFeeRequest trialFeeLedger
  obtain ⟨hasked, hpaid⟩ := honce hdistinguishes
  obtain ⟨extension, hextension, -, hadded⟩ := hfees herror
  obtain rfl : trialFeeExtension = extension := Option.some.inj hextension
  exact ⟨herror, origins, htraces, htraces.length_eq.trans hlength, hasked, hpaid hasks, hadded hdistinguishes⟩

/-! ## Payments and refunds to one address -/

/-- A token that can be converted on the private chain. -/
def sharedToken : Address :=
  ⟨[0x38, 0xcf, 0x23, 0xc5, 0x2b, 0xb4, 0xb1, 0x3f, 0x05, 0x1a, 0xec, 0x09, 0x58, 0x0a, 0x2d, 0xe8, 0x45, 0xa7, 0xfa,
    0x35], rfl⟩

/-- A creation that gives a payment and a fee address. -/
def sharedCreation : Submission where
  action := .ofKind .create network.id
    { PaymentValues.empty with
      paymentAddress := some (Octets.replicate 0x0a : Address).render
      feeAddress := some (Octets.replicate 0x0f : Address).render
      salt := some "ea3bc7caf64110ca"
      network := some "private"
      tokensAccepted := some [sharedToken.render] }
  request := ⟨"01", ⟨.token, sharedToken.render, none⟩, none, some .trial, "100", .empty, 5⟩
  signer := .trial
  timestamp := 7

/-- An amendment of the payer, who gives a refund address. -/
def sharedRefund (address : String) : Submission :=
  { sharedCreation with
    action := .ofKind .addRefundAddress network.id { PaymentValues.empty with refundAddress := some address } }

/-- The request with the extension that its parties made. -/
def sharedRequest (address : String) : Request :=
  { sharedCreation.request with extensions := Registry.builtin.run .empty [sharedCreation, sharedRefund address] }

def sharedExtension (address : String) : ExtensionState where
  id := network.id
  family := .paymentNetwork
  version := PaymentNetwork.currentVersion
  values := { sharedCreation.parameters with refundAddress := some address }
  events := [⟨"addRefundAddress", { PaymentValues.empty with refundAddress := some address }, 7⟩]

/-- A payment to the payment address. -/
def sharedPayment : Payment where
  proxy := .replicate 0xcc
  reference := Reference.make "01" "ea3bc7caf64110ca" (Octets.replicate 0x0a : Address).render
  block := 5
  transaction := .replicate 1
  conversion := ⟨.clamp 100, sharedToken, .clamp 2, .zero⟩
  transfer := ⟨.replicate 0x0a, .clamp 100, .clamp 2, .replicate 0x0f⟩

/-- The ledger with the payment alone. -/
def sharedLedger : Ledger := (Ledger.empty.setTime 5 1005).payAll [sharedPayment]

/-- The payment address in capitals. -/
def sharedSpelling : String := "0x0A0A0A0A0A0A0A0A0A0A0A0A0A0A0A0A0A0A0A0A"

theorem logs_sharedLedger : ∃ topic, sharedLedger.logs = sharedPayment.logs topic := by
  obtain ⟨topic, htopic⟩ : ∃ topic, Reference.topic sharedPayment.reference = .ok topic := Reference.topic_make _ _ _
  refine ⟨topic, ?_⟩
  rw [sharedLedger, Ledger.payAll_eq, List.flatMap_singleton, Payment.recorded, htopic]
  rfl

/-- The searches for payments to the address and for refunds. -/
def sharedSearch (destination : String) (direction : Direction) : Search :=
  searchAt .trial (sharedRequest sharedSpelling) (sharedExtension sharedSpelling) "ea3bc7caf64110ca"
    ⟨.replicate 0xcc, 1⟩ destination direction

/-- The event of the payment in a direction. -/
def sharedEvent (destination : String) (direction : Direction) : PaymentEvent :=
  (sharedSearch destination direction).eventFor sharedPayment sharedPayment.transfer 1005

/-- In both directions the event has the same amount and fee, at the same time. -/
theorem sharedEvent_eq (destination : String) (direction : Direction) :
    (sharedEvent destination direction).name = direction ∧ (sharedEvent destination direction).timestamp = 1005 ∧
      (sharedEvent destination direction).amount =
        ((PreciseCurrency.ofCurrency sharedCreation.request.currency).units (.clamp 100)).render ∧
      feeFor sharedCreation.parameters.feeAddress (sharedEvent destination direction) = 20000000000 := by
  refine ⟨rfl, rfl, rfl, ?_⟩
  rw [sharedEvent, Search.eventFor_eq, Search.feeFor_eventOf]
  show (if sharedCreation.parameters.feeAddress.any (Address.same sharedPayment.transfer.feeAddress.render) then
    ((PreciseCurrency.ofCurrency sharedCreation.request.currency).units sharedPayment.conversion.feeAmount).value
  else 0) = _
  decide +kernel

theorem run_sharedLedger :
    ((ledgerBalance .trial (sharedRequest sharedSpelling)).run sharedLedger).1 =
      balanceOf (sharedExtension sharedSpelling).values
        [sharedEvent (Octets.replicate 0x0a : Address).render .payment] [sharedEvent sharedSpelling .refund] := by
  have hextension : (sharedRequest sharedSpelling).extension? network.id = some (sharedExtension sharedSpelling) := by
    decide +kernel
  have hproxy : DetectionConfig.trial.deployment? "private" = some ⟨.replicate 0xcc, 1⟩ := by decide +kernel
  have hmadeAt : ∀ p ∈ [sharedPayment], p.MadeAt ⟨.replicate 0xcc, 1⟩ "01" "ea3bc7caf64110ca" :=
    List.forall_mem_singleton.2 ⟨rfl, (by decide : (1 : BlockNumber) ≤ 5), _, beq_self_eq_true _, rfl⟩
  have hcredits (destination : String) (direction : Direction)
      (hasks : (sharedSearch destination direction).asks sharedPayment.conversion = true)
      (hpays : (sharedSearch destination direction).pays sharedPayment.transfer = true) :
      (sharedSearch destination direction).credits (Ledger.empty.setTime 5 1005).timeOf [sharedPayment]
        Payment.transfer = [sharedEvent destination direction] := by
    have htime : (Ledger.empty.setTime 5 1005).timeOf 5 = 1005 := by decide
    have hblock : sharedPayment.block = 5 := rfl
    simp [Search.credits, hasks, hpays, htime, hblock, sharedEvent]
  have hpaid := hcredits (Octets.replicate 0x0a : Address).render .payment (by decide +kernel) (by decide +kernel)
  have hrefunded := hcredits sharedSpelling .refund (by decide +kernel) (by decide +kernel)
  exact (run_ledgerBalance_payAll rfl hproxy (List.pairwise_singleton _ _) hmadeAt rfl Faults.quiet_never (by decide)
    hextension rfl rfl).trans (congrArg₂ (balanceOf (sharedExtension sharedSpelling).values) hpaid hrefunded)

/-- **One payment is counted as a payment and as a refund.** The parties may give one address for both, in two
spellings, and then the payment cancels itself out and its fee counts twice. -/
theorem counted_twice :
    let result := ((ledgerBalance .trial (sharedRequest sharedSpelling)).run sharedLedger).1
    (Registry.builtin.accepted .empty [sharedCreation, sharedRefund sharedSpelling]).map (·.action.action) =
        ["create", "addRefundAddress"] ∧
      (sharedRequest sharedSpelling).extensions =
        Registry.builtin.run .empty [sharedCreation, sharedRefund sharedSpelling] ∧
      (∃ topic, sharedLedger.logs = sharedPayment.logs topic) ∧
      result.events.map (·.name) = [.payment, .refund] ∧ result.balance = some "0" ∧
      result.feeBalance = some "40000000000" ∧
      ¬ ∃ origins, List.Forall₂ (Traces .trial (sharedRequest sharedSpelling) sharedLedger.logs sharedLedger.times)
        origins result.events ∧ (origins.map (·.asked)).Nodup := by
  intro result
  obtain ⟨hpaidName, hpaidTime, hpaidAmount, hpaidFee⟩ :=
    sharedEvent_eq (Octets.replicate 0x0a : Address).render .payment
  obtain ⟨hrefundedName, hrefundedTime, hrefundedAmount, hrefundedFee⟩ := sharedEvent_eq sharedSpelling .refund
  have hresult : result = _ := run_sharedLedger
  clear_value result
  generalize sharedEvent (Octets.replicate 0x0a : Address).render .payment = paid at *
  generalize sharedEvent sharedSpelling .refund = refunded at *
  have hevents : result.events = [paid, refunded] := by
    rw [hresult]
    refine merged_eq_append (List.pairwise_pair.2 ?_)
    rw [hpaidTime, hrefundedTime]
    exact UInt64.le_refl 1005
  refine ⟨by decide +kernel, rfl, logs_sharedLedger, ?_, ?_, ?_, ?_⟩
  · rw [hevents, List.map_cons, List.map_cons, hpaidName, hrefundedName, List.map_nil]
  · rw [hresult]
    show some (toString (((total [paid]).value : Int) - (total [refunded]).value)) = _
    rw [total, total, List.map_singleton, List.map_singleton, hpaidAmount, hrefundedAmount, Int.sub_self]
    rfl
  · have hfee : result.feeBalance = some (fees sharedCreation.parameters.feeAddress result.events).render := by
      rw [hresult]
      rfl
    rw [hfee, hevents, fees, List.map_cons, List.map_cons, hpaidFee, hrefundedFee]
    decide
  · rintro ⟨origins, htraces, honce⟩
    have hplaces : ∀ o ∈ origins, o.asked = 0 := by
      intro o ho
      obtain ⟨e, -, -, -, s, -, -, -, reference, log, -, -, hlog, hdue, -⟩ :=
        Effect.exists_left_of_forall₂ htraces.flip ho
      obtain ⟨topic, hlogs⟩ := logs_sharedLedger
      exact place_logs (hlogs ▸ hlog) (Search.isDue_iff.1 hdue).1.2.2.1
    rw [hevents] at htraces
    obtain ⟨o, o', rfl⟩ := List.length_eq_two.1 htraces.length_eq
    have hsame := (hplaces o (by simp)).trans (hplaces o' (by simp)).symm
    simp [hsame] at honce

end Detector

end Invoicing
