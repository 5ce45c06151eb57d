import Invoicing.Detection.Detector
import Invoicing.Proofs.Detection.Pairing
import Invoicing.Proofs.Detection.Sum
import Invoicing.Proofs.LowerCase

set_option autoImplicit false

/-! # The balance of recorded payments

A ledger that holds payments alone, each under the reference of its own recipient and in a transaction of its own, has
an exact balance: what was paid less what was refunded (`Detector.balance_payAll`). The two searches find every
payment to their destination and none is found for both. -/

namespace Invoicing

open Ledger (Payment)

/-! ## References -/

namespace Reference

theorem dropMarks_encode (bs : List UInt8) : dropMarks (Hex.encode bs) = Hex.encode bs := by
  have hx : ∀ n < 16, Nat.digitChar n ≠ 'x' := by decide
  cases bs with
  | nil => rfl
  | cons b rest =>
    rw [Hex.encode]
    unfold dropMarks
    split
    · next h =>
      obtain ⟨-, hmark⟩ := List.cons.inj h
      have hb : b.toNat < 256 := b.toNat_lt
      exact absurd (List.cons.inj hmark).1 (hx _ (by omega))
    · rfl

/-- A reference that was made has a topic. -/
theorem topic_make (request salt address : String) :
    ∃ reference, topic (make request salt address) = .ok reference := by
  simp [topic, make, dropMarks_encode]

/-- All spellings of an address have one reference. -/
theorem make_congr {a b : String} (h : Address.same a b = true) (request salt : String) :
    make request salt a = make request salt b := by
  have hlower : a.toList.map Char.toLower = b.toList.map Char.toLower := beq_iff_eq.1 h
  have htext : (request ++ salt ++ a).toList.map Char.toLower = (request ++ salt ++ b).toList.map Char.toLower := by
    simp only [String.toList_append, List.map_append, hlower]
  rw [make, make, LowerCase.lower_congr htext]

end Reference

/-! ## Searches -/

/-- The payment is made at a deployment, under the reference of its own recipient in any spelling. -/
structure Ledger.Payment.MadeAt (p : Payment) (deployment : ProxyDeployment) (request salt : String) : Prop where
  place : p.proxy = deployment.address
  block : deployment.creationBlock ≤ p.block
  reference : ∃ spelling, Address.same p.transfer.recipient.render spelling = true ∧
    p.reference = Reference.make request salt spelling

/-- The ledger holds the logs of some payments alone, knows the times of their blocks and does not fail. -/
structure Ledger.Holds (l : Ledger) (ps : List Payment) : Prop where
  logs : l.logs = ps.flatMap Payment.recorded
  quiet : l.faults.Quiet
  times : ∀ p ∈ ps, (l.times.lookup p.block).isSome

namespace Ledger

variable {l l' : Ledger} {ps : List Payment}

theorem holds_payAll (hlogs : l.logs = []) (hquiet : l.faults.Quiet)
    (htimes : ∀ p ∈ ps, (l.times.lookup p.block).isSome) : (l.payAll ps).Holds ps := by
  rw [payAll_eq, hlogs, List.nil_append]
  exact ⟨rfl, hquiet, htimes⟩

theorem Holds.keeps (h : l.Holds ps) (hkeeps : l.Keeps l') : l'.Holds ps :=
  ⟨hkeeps.logs.trans h.logs, hkeeps.quiet, hkeeps.times ▸ h.times⟩

theorem Holds.eq_payAll (h : l.Holds ps) : ({ l with logs := [] } : Ledger).payAll ps = l := by
  rw [payAll_eq, List.nil_append, ← h.logs]

end Ledger

namespace Search

variable {s : Search} {l : Ledger} {ps : List Payment} {time : BlockNumber → Timestamp}

/-- A search finds the payments to its destination, under whatever spelling of it they were made. -/
theorem finds_of_pays {request salt : String} {p : Payment}
    (hreference : s.reference = Reference.make request salt s.destination) (hmadeAt : p.MadeAt s.proxy request salt)
    (hpays : s.pays p.transfer = true) : s.finds p = true := by
  obtain ⟨hproxy, hblock, spelling, hsame, hmade⟩ := hmadeAt
  have heq : p.reference = s.reference := by
    rw [hmade, hreference]
    exact Reference.make_congr (Address.same_of_same hsame hpays) request salt
  obtain ⟨reference, htopic⟩ := Reference.topic_make request salt s.destination
  rw [← hreference] at htopic
  simp [finds, heq, htopic, hproxy, hblock]

/-- Payments that the search does not find have no credit if none of them pays its destination. -/
theorem credits_found (h : ∀ p ∈ ps, s.pays p.transfer = true → s.finds p = true) :
    s.credits time (ps.filter s.finds) Payment.transfer = s.credits time ps Payment.transfer := by
  rw [credits, credits, List.filter_filter]
  refine congrArg _ (List.filter_congr fun p hp => ?_)
  cases hpays : s.pays p.transfer with
  | false => simp
  | true => simp [h p hp hpays]

/-- If all payments to its destination are found and each has a transaction of its own, then the search credits each
with its own transfer. -/
theorem run_events_due (hholds : l.Holds ps) (hdistinct : ps.Pairwise fun p q => p.transaction ≠ q.transaction)
    (hdecimals : s.currency.decimals ≤ PreciseCurrency.maxDecimals)
    {reference : Hash} (hreference : Reference.topic s.reference = .ok reference)
    (hfinds : ∀ p ∈ ps, s.pays p.transfer = true → s.finds p = true) :
    (s.events.run.run l).1 = .ok (s.credits l.timeOf ps Payment.transfer) := by
  have hown := ownTransfers_of_distinct (s := s) (hdistinct.filter s.finds)
  have hrun := run_events_payAll (l := { l with logs := [] }) rfl hholds.quiet hholds.times hreference
  rw [hholds.eq_payAll, hown.credits_eq, credits_found hfinds, answer, if_pos (.inl hdecimals)] at hrun
  exact hrun

/-- The amounts of the credits sum up exactly. -/
theorem sum_credits (s : Search) (time : BlockNumber → Timestamp) (ps : List Payment) :
    PaymentEvent.sum (s.credits time ps Payment.transfer) =
      .ok (.clamp ((ps.filter fun p => s.asks p.conversion && s.pays p.transfer).map fun p =>
        (s.currency.units p.conversion.amount).value).sum) := by
  have hvalid : ∀ text ∈ (s.credits time ps Payment.transfer).map (·.amount), Amount.isValidText text = true := by
    intro text htext
    obtain ⟨e, he, rfl⟩ := List.mem_map.1 htext
    obtain ⟨p, -, rfl⟩ := List.mem_map.1 he
    exact Amount.isValidText_render _
  rw [PaymentEvent.sum, Amount.sumTexts_eq hvalid, credits, List.map_map, List.map_map]
  refine congrArg (fun n => Except.ok (Amount.clamp n.sum)) (List.map_congr_left fun p _ => ?_)
  exact Amount.worth_render _

theorem isValidText_fee {e : PaymentEvent} {transfer : Payment → Transfer} (he : e ∈ s.credits time ps transfer)
    {text : String} (htext : e.details.feeAmount = some text) : Amount.isValidText text = true := by
  obtain ⟨p, -, rfl⟩ := List.mem_map.1 he
  obtain rfl := Option.some.inj htext
  exact Amount.isValidText_render _

end Search

/-! ## Directions -/

/-- The sum of the amounts of some payments, at most the largest amount. -/
def PreciseCurrency.total (c : PreciseCurrency) (kept : List Payment) : Amount :=
  .clamp (kept.map fun p => (c.units p.conversion.amount).value).sum

/-- The answer for one direction: the events of the payments that are kept, and their sum. -/
structure DirectionBalance.Covers (b : DirectionBalance) (c : PreciseCurrency) (kept : List Payment) : Prop where
  balance : b.balance = (c.total kept).render
  length : b.events.length = kept.length
  fees : ∀ e ∈ b.events, ∀ text, e.details.feeAmount = some text → Amount.isValidText text = true

namespace Detector

/-- Does a payment count for a destination? It has to be asked for in the currency of the request, at a rate that is
fresh enough, and to reach the destination. -/
def keeps (config : DetectionConfig) (request : Request) (values : PaymentValues) (destination : Option String)
    (p : Payment) : Bool :=
  decide (p.conversion.maxRateTimespan.value ≤ (values.maxRateTimespan.getD config.maxRateTimespan).toNat) &&
    (PreciseCurrency.ofCurrency request.currency).isAt p.conversion.currency &&
    destination.any fun d => Address.same p.transfer.recipient.render d

variable {config : DetectionConfig} {request : Request} {extension : ExtensionState} {salt : String}
  {proxy : ProxyDeployment} {l : Ledger} {ps : List Payment}

theorem decimals_le (c : Currency) : (PreciseCurrency.ofCurrency c).decimals ≤ PreciseCurrency.maxDecimals := by
  show PreciseCurrency.usualDecimals c ≤ _
  unfold PreciseCurrency.usualDecimals
  split
  · split <;> decide
  · decide
  · decide
  · decide

theorem run_ledgerSource {destination : String} {direction : Direction} {s : Search} {events : List PaymentEvent}
    {total : Amount} (hsearch : search config request extension destination direction = .ok s)
    (hevents : (s.events.run.run l).1 = .ok events) (hsum : PaymentEvent.sum events = .ok total) :
    (ledgerSource config request extension destination direction).run.run l =
      (.ok ⟨total.render, events⟩, (s.events.run.run l).2) := by
  have hfirst : (MonadExcept.ofExcept (search config request extension destination direction) :
      LedgerM Search).run.run l = (.ok s, l) := by rw [Effect.run_ofExcept, hsearch]
  rw [ledgerSource, Effect.run_bind_ok (congrArg Prod.fst hfirst), hfirst, Effect.run_bind_ok hevents, hsum]
  rfl

/-- All payments to a destination are counted, and the ledger has the same payments afterwards. -/
theorem run_direction (hsalt : extension.values.salt = some salt)
    (hproxy : config.deployment? (extension.values.network.getD PaymentNetwork.defaultChain) = some proxy)
    (hholds : l.Holds ps) (hdistinct : ps.Pairwise fun p q => p.transaction ≠ q.transaction)
    (hmadeAt : ∀ p ∈ ps, p.MadeAt proxy request.id salt)
    (destination : Option String) (direction : Direction) :
    ∃ b l',
      (directionBalance (ledgerSource config request extension) destination direction).run.run l = (.ok b, l') ∧
      b.Covers (.ofCurrency request.currency) (ps.filter (keeps config request extension.values destination)) ∧
      l.Keeps l' := by
  cases destination with
  | none =>
    have hnone : ps.filter (keeps config request extension.values none) = [] := by
      simp [keeps]
    refine ⟨⟨"0", []⟩, l, rfl, ?_, ⟨rfl, rfl, hholds.quiet⟩⟩
    rw [hnone]
    exact ⟨(by decide : "0" = Amount.zero.render), rfl, by simp⟩
  | some destination =>
    obtain ⟨s, hs⟩ : ∃ s : Search,
        s = ⟨.ofCurrency request.currency, Reference.make request.id salt destination, proxy, destination, direction,
          extension.values.maxRateTimespan.getD config.maxRateTimespan⟩ := ⟨_, rfl⟩
    have hsearch : search config request extension destination direction = .ok s := by
      simp only [search, hsalt, hproxy, hs]
      rfl
    have hdecimals : s.currency.decimals ≤ PreciseCurrency.maxDecimals := hs ▸ decimals_le request.currency
    have hmade : s.reference = Reference.make request.id salt s.destination := by rw [hs]
    obtain ⟨reference, hreference⟩ := Reference.topic_make request.id salt s.destination
    have hfinds : ∀ p ∈ ps, s.pays p.transfer = true → s.finds p = true := by
      intro p hp
      exact Search.finds_of_pays hmade (hs ▸ hmadeAt p hp)
    have hevents := Search.run_events_due hholds hdistinct hdecimals (hmade ▸ hreference) hfinds
    have hkept : (fun p : Payment => s.asks p.conversion && s.pays p.transfer) =
        keeps config request extension.values (some destination) := by
      rw [hs]
      rfl
    have hcurrency : s.currency = .ofCurrency request.currency := by rw [hs]
    refine ⟨_, _, run_ledgerSource hsearch hevents (s.sum_credits l.timeOf ps), ?_, s.answers_events.keeps hholds.quiet⟩
    rw [← hkept, ← hcurrency]
    exact ⟨rfl, List.length_map _, fun e he text htext => Search.isValidText_fee he htext⟩

/-! ## Both directions -/

theorem feeSum_valid {events : List PaymentEvent} {address : Option String}
    (h : ∀ e ∈ events, ∀ text, e.details.feeAmount = some text → Amount.isValidText text = true) :
    ∃ fees, PaymentEvent.feeSum events address = .ok fees := by
  cases address with
  | none => exact ⟨_, rfl⟩
  | some address =>
    refine ⟨_, Amount.sumTexts_eq fun text htext => ?_⟩
    obtain ⟨e, he, hfee⟩ := List.mem_filterMap.1 htext
    exact h e ((List.mem_filter.1 he).1) text hfee

theorem combine_covers (values : PaymentValues) {payments refunds : DirectionBalance} {c : PreciseCurrency}
    {paid refunded : List Payment} (hpayments : payments.Covers c paid) (hrefunds : refunds.Covers c refunded) :
    ∃ b, combine values payments refunds = .ok b ∧ b.error = none ∧
      b.balance = some (toString (((c.total paid).value : Int) - (c.total refunded).value)) ∧
      b.events.length = paid.length + refunded.length := by
  obtain ⟨events, hevents⟩ : ∃ events, events =
    (payments.events ++ refunds.events).mergeSort fun a b => a.timestamp ≤ b.timestamp := ⟨_, rfl⟩
  have hperm : events.Perm (payments.events ++ refunds.events) := hevents ▸ List.mergeSort_perm _ _
  obtain ⟨fees, hfees⟩ : ∃ fees, PaymentEvent.feeSum events values.feeAddress = .ok fees := by
    refine feeSum_valid fun e he => ?_
    rcases List.mem_append.1 (hperm.mem_iff.1 he) with he | he
    · exact hpayments.fees e he
    · exact hrefunds.fees e he
  have hbalance : signedBalance payments.balance refunds.balance =
      .ok (toString (((c.total paid).value : Int) - (c.total refunded).value)) := by
    rw [hpayments.balance, hrefunds.balance, signedBalance_render]
  refine ⟨⟨some _, some fees.render, events, none⟩, ?_, rfl, rfl, ?_⟩
  · rw [combine, hbalance, ← hevents]
    show (PaymentEvent.feeSum events values.feeAddress >>= _) = _
    rw [hfees]
    rfl
  · rw [hperm.length_eq, List.length_append, hpayments.length, hrefunds.length]

/-- No payment counts for two addresses that differ. -/
theorem length_keeps_add {values : PaymentValues}
    (hdifferent : ∀ payment refund, values.paymentAddress = some payment → values.refundAddress = some refund →
      Address.same payment refund = false) (ps : List Payment) :
    (ps.filter (keeps config request values values.paymentAddress)).length +
        (ps.filter (keeps config request values values.refundAddress)).length =
      (ps.filter fun p => keeps config request values values.paymentAddress p ||
        keeps config request values values.refundAddress p).length := by
  have hone (p : Payment) (hpaid : keeps config request values values.paymentAddress p = true) :
      keeps config request values values.refundAddress p = false := by
    refine Bool.eq_false_iff.2 fun hrefunded => ?_
    obtain ⟨payment, hpayment, hsame⟩ := (Option.any_eq_true _ _).1 (Bool.and_eq_true_iff.1 hpaid).2
    obtain ⟨refund, hrefund, hsame'⟩ := (Option.any_eq_true _ _).1 (Bool.and_eq_true_iff.1 hrefunded).2
    exact nomatch (hdifferent payment refund hpayment hrefund).symm.trans (Address.same_of_same hsame hsame')
  induction ps with
  | nil => rfl
  | cons p ps ih =>
    simp only [List.filter_cons]
    cases hpaid : keeps config request values values.paymentAddress p with
    | true => simp [hone p hpaid]; omega
    | false =>
      cases keeps config request values values.refundAddress p with
      | true => simp; omega
      | false => simpa using ih

theorem run_balanceFrom_ok {source : ExtensionState → String → Direction → LedgerM DirectionBalance} {b : Balance}
    (h : ((compute source request).run.run l).1 = .ok b) : ((balanceFrom source request).run l).1 = b := by
  rw [balanceFrom, StateT.run_bind]
  generalize (compute source request).run.run l = out at h ⊢
  obtain ⟨result, l'⟩ := out
  obtain rfl : result = .ok b := h
  rfl

/-- **The balance of recorded payments.** Let a request have an extension with a salt and on a deployed network, whose
payment and refund addresses, if both are there, differ in more than the case of letters. On a ledger that holds
payments alone, that knows the times of their blocks and that does not fail, let each payment be made at the deployed
proxy, under the reference of its own recipient in any spelling, and in a transaction of its own. Then the balance is
what was kept for the payment address less what was kept for the refund address, each at most the largest amount, and
there is one event for each payment that was kept. -/
theorem balance_payAll (config : DetectionConfig) (request : Request) (extension : ExtensionState) (salt : String)
    (proxy : ProxyDeployment) (l : Ledger) (ps : List Payment)
    (hextension : request.extension? network.id = some extension) (hsalt : extension.values.salt = some salt)
    (hproxy : config.deployment? (extension.values.network.getD PaymentNetwork.defaultChain) = some proxy)
    (hdifferent : ∀ payment refund, extension.values.paymentAddress = some payment →
      extension.values.refundAddress = some refund → Address.same payment refund = false)
    (hlogs : l.logs = []) (hquiet : l.faults.Quiet) (htimes : ∀ p ∈ ps, (l.times.lookup p.block).isSome)
    (hmadeAt : ∀ p ∈ ps, p.MadeAt proxy request.id salt)
    (hdistinct : ps.Pairwise fun p q => p.transaction ≠ q.transaction) :
    let currency := PreciseCurrency.ofCurrency request.currency
    let paid := keeps config request extension.values extension.values.paymentAddress
    let refunded := keeps config request extension.values extension.values.refundAddress
    let result := ((ledgerBalance config request).run (l.payAll ps)).1
    result.error = none ∧
      result.balance = some (toString
        (((currency.total (ps.filter paid)).value : Int) - (currency.total (ps.filter refunded)).value)) ∧
      result.events.length = (ps.filter fun p => paid p || refunded p).length := by
  intro currency paid refunded result
  have hholds := Ledger.holds_payAll hlogs hquiet htimes
  obtain ⟨payments, l₁, hfirst, hpayments, hkeeps⟩ := run_direction hsalt hproxy hholds hdistinct hmadeAt
    extension.values.paymentAddress .payment
  obtain ⟨refunds, l₂, hsecond, hrefunds, -⟩ := run_direction hsalt hproxy (hholds.keeps hkeeps) hdistinct hmadeAt
    extension.values.refundAddress .refund
  obtain ⟨b, hb, herror, hbalance, hlength⟩ := combine_covers extension.values hpayments hrefunds
  have hcompute : ((compute (ledgerSource config request) request).run.run (l.payAll ps)).1 = .ok b := by
    rw [compute, hextension]
    show (ExceptT.run (directionBalance (ledgerSource config request extension) _ _ >>= fun payments => _)
      |>.run (l.payAll ps)).1 = _
    rw [Effect.run_bind_ok (congrArg Prod.fst hfirst), hfirst, Effect.run_bind_ok (congrArg Prod.fst hsecond), hsecond,
      Effect.run_ofExcept, hb]
  have hresult : result = b := run_balanceFrom_ok hcompute
  rw [hresult]
  exact ⟨herror, hbalance, hlength.trans (length_keeps_add hdifferent ps)⟩

/-! ## A trial -/

/-- The extension of the trial: payments go to one address and refunds to another. -/
def trialExtension : ExtensionState where
  id := network.id
  family := .paymentNetwork
  version := "0.1.0"
  values :=
    { PaymentValues.empty with
      paymentAddress := some (Octets.replicate 0x0a : Address).render
      refundAddress := some (Octets.replicate 0x0b : Address).render
      salt := some "ea3bc7caf64110ca"
      network := some "private" }
  events := []

/-- A request in a token of two addresses alike. -/
def trialRequest : Request where
  id := "01"
  currency := ⟨.token, (Octets.replicate 0x77 : Address).render, none⟩
  payee := none
  payer := none
  expectedAmount := "100"
  extensions := Dict.empty.insert network.id trialExtension
  timestamp := 0

/-- A payment of the trial. -/
def trialPayment (transaction : Hash) (recipient : Address) (amount : Nat) : Payment where
  proxy := .replicate 0xcc
  reference := Reference.make "01" "ea3bc7caf64110ca" recipient.render
  block := 5
  transaction := transaction
  conversion := ⟨.clamp amount, .replicate 0x77, .zero, .zero⟩
  transfer := ⟨recipient, .clamp amount, .zero, .replicate 0x0f⟩

/-- A payment, a larger refund and a payment to someone else. -/
def trialPayments : List Payment :=
  [trialPayment (.replicate 1) (.replicate 0x0a) 10, trialPayment (.replicate 2) (.replicate 0x0b) 25,
   trialPayment (.replicate 3) (.replicate 0x0c) 1000]

/-- More was refunded than was paid, so the balance is negative; the stray payment is not counted. -/
theorem balance_payAll_trial :
    ∃ fees events, ((ledgerBalance .trial trialRequest).run
        ((Ledger.empty.setTime 5 1005).payAll trialPayments)).1 = ⟨some "-150000000000", fees, events, none⟩ ∧
      events.length = 2 := by
  have hproxy : DetectionConfig.trial.deployment? "private" = some ⟨.replicate 0xcc, 1⟩ := by decide +kernel
  have hdifferent : ∀ payment refund, trialExtension.values.paymentAddress = some payment →
      trialExtension.values.refundAddress = some refund → Address.same payment refund = false := by
    intro payment refund hpayment hrefund
    cases hpayment
    cases hrefund
    decide +kernel
  have hmadeAt : ∀ p ∈ trialPayments, p.MadeAt ⟨.replicate 0xcc, 1⟩ "01" "ea3bc7caf64110ca" := by
    intro p hp
    obtain ⟨transaction, recipient, amount, rfl⟩ : ∃ transaction recipient amount,
        p = trialPayment transaction recipient amount := by
      simp only [trialPayments, List.mem_cons, List.not_mem_nil, or_false] at hp
      rcases hp with rfl | rfl | rfl
      · exact ⟨_, _, _, rfl⟩
      · exact ⟨_, _, _, rfl⟩
      · exact ⟨_, _, _, rfl⟩
    exact ⟨rfl, (by decide : (1 : BlockNumber) ≤ 5), recipient.render, beq_self_eq_true _, rfl⟩
  have hdistinct : trialPayments.Pairwise fun p q => p.transaction ≠ q.transaction :=
    List.pairwise_map.1 (by decide : (trialPayments.map (·.transaction)).Pairwise (· ≠ ·))
  have hpaid : ((PreciseCurrency.ofCurrency trialRequest.currency).total (trialPayments.filter
      (keeps .trial trialRequest trialExtension.values trialExtension.values.paymentAddress))).value =
      100000000000 := by decide +kernel
  have hrefunded : ((PreciseCurrency.ofCurrency trialRequest.currency).total (trialPayments.filter
      (keeps .trial trialRequest trialExtension.values trialExtension.values.refundAddress))).value =
      250000000000 := by decide +kernel
  have hkept : (trialPayments.filter fun p =>
      keeps .trial trialRequest trialExtension.values trialExtension.values.paymentAddress p ||
        keeps .trial trialRequest trialExtension.values trialExtension.values.refundAddress p).length = 2 := by
    decide +kernel
  have hresult := balance_payAll .trial trialRequest trialExtension "ea3bc7caf64110ca" ⟨.replicate 0xcc, 1⟩
    (Ledger.empty.setTime 5 1005) trialPayments rfl rfl hproxy hdifferent rfl Faults.quiet_never (by decide) hmadeAt
    hdistinct
  generalize ((ledgerBalance .trial trialRequest).run
    ((Ledger.empty.setTime 5 1005).payAll trialPayments)).1 = result at hresult ⊢
  obtain ⟨herror, hbalance, hlength⟩ := hresult
  rw [hpaid, hrefunded] at hbalance
  rw [hkept] at hlength
  obtain ⟨balance, fees, events, error⟩ := result
  obtain rfl : error = none := herror
  obtain rfl : balance = some "-150000000000" := hbalance
  exact ⟨fees, events, rfl, hlength⟩

end Detector

end Invoicing
