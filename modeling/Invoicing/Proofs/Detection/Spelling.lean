import Invoicing.Proofs.Detection.Audit

set_option autoImplicit false

/-! # Spellings of the addresses of a request

Parties write their addresses in any case, and the ledger knows only one spelling of them. No step of a detection
depends on it: a request with its addresses respelled is answered by the same programs, with other spellings of the
destination in the events (`Detector.ledgerBalance_respell`). -/

namespace Invoicing

open Ledger (Payment)

/-! ## Respelling -/

/-- The values differ at most in the spelling of their addresses. -/
structure PaymentValues.Respells (values values' : PaymentValues) : Prop where
  paymentAddress : Option.Rel (Address.same · · = true) values.paymentAddress values'.paymentAddress
  refundAddress : Option.Rel (Address.same · · = true) values.refundAddress values'.refundAddress
  feeAddress : Option.Rel (Address.same · · = true) values.feeAddress values'.feeAddress
  others : values' = { values with
    paymentAddress := values'.paymentAddress
    refundAddress := values'.refundAddress
    feeAddress := values'.feeAddress }

namespace PaymentValues.Respells

variable {values values' : PaymentValues} (h : values.Respells values')

include h

/-- Both values have a destination in a direction, in some spelling, or neither has one. -/
theorem destination_cases (direction : Direction) :
    (values.destination direction = none ∧ values'.destination direction = none) ∨
      ∃ destination destination', values.destination direction = some destination ∧
        values'.destination direction = some destination' ∧ Address.same destination destination' = true := by
  have hrel : Option.Rel (Address.same · · = true) (values.destination direction) (values'.destination direction) := by
    cases direction with
    | payment => exact h.paymentAddress
    | refund => exact h.refundAddress
  generalize values.destination direction = address at hrel ⊢
  generalize values'.destination direction = address' at hrel ⊢
  cases hrel with
  | none => exact .inl ⟨rfl, rfl⟩
  | some hsame => exact .inr ⟨_, _, rfl, rfl, hsame⟩

theorem salt : values'.salt = values.salt := by rw [h.others]

theorem network : values'.network = values.network := by rw [h.others]

theorem maxRateTimespan : values'.maxRateTimespan = values.maxRateTimespan := by rw [h.others]

end PaymentValues.Respells

namespace PaymentEvent

/-- The event with its destination as it is spelled in some values. -/
def respell (values : PaymentValues) (e : PaymentEvent) : PaymentEvent :=
  { e with details := { e.details with destination := (values.destination e.name).getD e.details.destination } }

/-- The events differ at most in the spelling of the destination. -/
def Respelled (e e' : PaymentEvent) : Prop :=
  Address.same e.details.destination e'.details.destination = true ∧
    e' = { e with details := { e.details with destination := e'.details.destination } }

end PaymentEvent

open PaymentEvent

def DirectionBalance.respell (values : PaymentValues) (b : DirectionBalance) : DirectionBalance :=
  { b with events := b.events.map (·.respell values) }

def Balance.respell (values : PaymentValues) (b : Balance) : Balance :=
  { b with events := b.events.map (·.respell values) }

/-! ## Searches -/

theorem Address.same_congr {a b : String} (h : same a b = true) (c : String) : same c a = same c b := by
  have heq : a.toList.map Char.toLower = b.toList.map Char.toLower := beq_iff_eq.1 h
  rw [same, same, heq]

namespace Search

variable {s : Search} {destination : String} {values : PaymentValues}

theorem accepts_respell (hsame : Address.same s.destination destination = true) :
    ({ s with destination := destination } : Search).accepts = s.accepts := by
  funext p
  exact congrArg _ (Address.same_congr hsame _).symm

theorem event_respell (hdestination : values.destination s.direction = some destination) (p : PairedTransfer)
    (time : Timestamp) :
    ({ s with destination := destination } : Search).event p time =
      PaymentEvent.respell values <$> s.event p time := by
  have heventOf : ({ s with destination := destination } : Search).eventOf p time =
      (s.eventOf p time).respell values := by
    rw [PaymentEvent.respell, show (s.eventOf p time).name = s.direction from rfl, hdestination]
    rfl
  rw [event_eq, event_eq, heventOf]
  split <;> rfl

/-- A search under another spelling of its destination has the same events, with the destination respelled. -/
theorem events_respell (hsame : Address.same s.destination destination = true)
    (hdestination : values.destination s.direction = some destination) :
    ({ s with destination := destination } : Search).events = List.map (PaymentEvent.respell values) <$> s.events :=
  events_map rfl rfl (accepts_respell hsame) (event_respell hdestination)

end Search

/-! ## Sums -/

namespace PaymentEvent

variable {values values' : PaymentValues}

theorem sum_respell (events : List PaymentEvent) : sum (events.map (respell values)) = sum events := by
  rw [sum, sum, List.map_map]
  rfl

theorem feesTo_respell {address address' : String} (h : Address.same address address' = true)
    (events : List PaymentEvent) : feesTo address' (events.map (respell values)) = feesTo address events := by
  have hsame : ((fun e : PaymentEvent => e.details.feeAddress.any fun a => Address.same a address') ∘ respell values) =
      fun e => e.details.feeAddress.any fun a => Address.same a address :=
    funext fun e => congrArg e.details.feeAddress.any (funext fun a => (Address.same_congr h a).symm)
  rw [feesTo, feesTo, List.filter_map, hsame, List.filterMap_map]
  rfl

theorem feeSum_respell (h : values.Respells values') (events : List PaymentEvent) :
    feeSum (events.map (respell values')) values'.feeAddress = feeSum events values.feeAddress := by
  have hrel := h.feeAddress
  generalize values.feeAddress = address at hrel ⊢
  generalize values'.feeAddress = address' at hrel ⊢
  cases hrel with
  | none => rfl
  | some hsame => exact congrArg Amount.sumTexts (feesTo_respell hsame events)

end PaymentEvent

/-! ## Balances -/

namespace Detector

variable {config : DetectionConfig} {request : Request} {extension extension' : ExtensionState}

/-- The request with another state of its extension. -/
def withExtension (request : Request) (extension : ExtensionState) : Request :=
  { request with extensions := request.extensions.insert network.id extension }

theorem merged_respell (values : PaymentValues) (payments refunds : List PaymentEvent) :
    merged (payments.map (PaymentEvent.respell values)) (refunds.map (PaymentEvent.respell values)) =
      (merged payments refunds).map (PaymentEvent.respell values) := by
  rw [merged, ← List.map_append]
  exact (List.map_mergeSort (f := PaymentEvent.respell values) fun a _ b _ => rfl).symm

theorem combine_respell {values values' : PaymentValues} (h : values.Respells values')
    (payments refunds : DirectionBalance) :
    combine values' (payments.respell values') (refunds.respell values') =
      Balance.respell values' <$> combine values payments refunds := by
  have hmerged := merged_respell values' payments.events refunds.events
  unfold merged at hmerged
  unfold combine DirectionBalance.respell
  rw [map_bind]
  refine bind_congr fun balance => ?_
  simp only [hmerged, feeSum_respell h, map_bind]
  rfl

/-- The search for a destination in another spelling is the same search under that spelling. -/
theorem search_respell (h : extension.values.Respells extension'.values) {destination destination' : String}
    (hsame : Address.same destination destination' = true) (direction : Direction) :
    search config (withExtension request extension') extension' destination' direction =
      (fun s : Search => { s with destination := destination' }) <$>
        search config request extension destination direction := by
  have hreference (salt : String) :
      Reference.make request.id salt destination = Reference.make request.id salt destination' :=
    Reference.make_congr hsame request.id salt
  simp only [search, h.salt, h.network, h.maxRateTimespan, hreference]
  cases extension.values.salt with
  | none => rfl
  | some salt => cases config.deployment? (extension.values.network.getD PaymentNetwork.defaultChain) <;> rfl

theorem ledgerSource_respell (h : extension.values.Respells extension'.values) {destination destination' : String}
    (hsame : Address.same destination destination' = true) {direction : Direction}
    (hdestination : extension'.values.destination direction = some destination') :
    ledgerSource config (withExtension request extension') extension' destination' direction =
      DirectionBalance.respell extension'.values <$> ledgerSource config request extension destination direction := by
  rw [ledgerSource, ledgerSource, search_respell h hsame]
  cases hs : search config request extension destination direction with
  | error e => rfl
  | ok s =>
    obtain ⟨salt, proxy, -, -, rfl⟩ := search_eq_ok.1 hs
    have hpure (s : Search) : (MonadExcept.ofExcept (.ok s) : LedgerM Search) = pure s := rfl
    rw [Effect.ofExcept_map, map_bind, bind_map_left, hpure, pure_bind, pure_bind,
      Search.events_respell hsame hdestination, bind_map_left, map_bind]
    refine bind_congr fun events => ?_
    rw [sum_respell]
    cases sum events <;> rfl

theorem directionBalance_respell (h : extension.values.Respells extension'.values) (direction : Direction) :
    directionBalance (ledgerSource config (withExtension request extension') extension')
        (extension'.values.destination direction) direction =
      DirectionBalance.respell extension'.values <$>
        directionBalance (ledgerSource config request extension) (extension.values.destination direction)
          direction := by
  rcases h.destination_cases direction with
    ⟨hnone, hnone'⟩ | ⟨destination, destination', hdestination, hdestination', hsame⟩
  · rw [hnone, hnone']
    rfl
  · rw [hdestination, hdestination']
    exact ledgerSource_respell h hsame hdestination'

/-- The detection of a request with its addresses respelled is the detection of the request. -/
theorem compute_respell (h : extension.values.Respells extension'.values)
    (hextension : request.extension? network.id = some extension) :
    compute (ledgerSource config (withExtension request extension')) (withExtension request extension') =
      Balance.respell extension'.values <$> compute (ledgerSource config request) request := by
  have hextension' : (withExtension request extension').extension? network.id = some extension' := by
    rw [Request.extension?, withExtension, Dict.get?_insert, if_pos rfl]
  rw [compute, compute, hextension, hextension']
  show (directionBalance _ (extension'.values.destination .payment) .payment >>= fun payments =>
    directionBalance _ (extension'.values.destination .refund) .refund >>= fun refunds =>
      MonadExcept.ofExcept (combine extension'.values payments refunds)) =
    Balance.respell extension'.values <$>
      (directionBalance _ (extension.values.destination .payment) .payment >>= fun payments =>
        directionBalance _ (extension.values.destination .refund) .refund >>= fun refunds =>
          MonadExcept.ofExcept (combine extension.values payments refunds))
  rw [directionBalance_respell h, directionBalance_respell h, bind_map_left, map_bind]
  refine bind_congr fun payments => ?_
  rw [bind_map_left, map_bind]
  refine bind_congr fun refunds => ?_
  rw [combine_respell h, Effect.ofExcept_map]

theorem ledgerBalance_respell (h : extension.values.Respells extension'.values)
    (hextension : request.extension? network.id = some extension) (l : Ledger) :
    (ledgerBalance config (withExtension request extension')).run l =
      (((ledgerBalance config request).run l).1.respell extension'.values,
        ((ledgerBalance config request).run l).2) := by
  rw [ledgerBalance, ledgerBalance, run_balanceFrom, run_balanceFrom, compute_respell h hextension, Effect.run_map]
  cases ((compute (ledgerSource config request) request).run.run l).1 <;> rfl

/-- What is found differs at most in the spelling of the destination. -/
theorem respelled_of_found (h : extension.values.Respells extension'.values) {logs : List Log}
    {times : List (BlockNumber × Timestamp)} {direction : Direction} {events : List PaymentEvent}
    (hfound : found config request extension logs times direction = .ok events) :
    ∀ e ∈ events, Respelled e (e.respell extension'.values) := by
  intro e he
  obtain ⟨destination, s, p, time, hdestination, hs, rfl⟩ := eventOf_of_found hfound e he
  obtain ⟨salt, proxy, -, -, rfl⟩ := search_eq_ok.1 hs
  rcases h.destination_cases direction with ⟨hnone, -⟩ | ⟨_, destination', hdestination₀, hdestination', hsame⟩
  · cases hdestination.symm.trans hnone
  · cases hdestination.symm.trans hdestination₀
    refine ⟨?_, rfl⟩
    show Address.same destination ((extension'.values.destination direction).getD destination) = true
    rwa [hdestination']

/-- **The spelling of addresses changes no balance.** Let the payment, refund and fee address of an extension be written
in any other case. On every ledger, whatever it holds and whichever calls fail, the balance of the request has the same
numbers, the same error and the same events in the same order, which differ at most in the spelling of the
destination; and the ledger is asked the same. -/
theorem balance_respelled (config : DetectionConfig) (request : Request) (extension extension' : ExtensionState)
    (l : Ledger) (hextension : request.extension? network.id = some extension)
    (h : extension.values.Respells extension'.values) :
    let original := (ledgerBalance config request).run l
    let respelled := (ledgerBalance config (withExtension request extension')).run l
    respelled.1.balance = original.1.balance ∧ respelled.1.feeBalance = original.1.feeBalance ∧
      respelled.1.error = original.1.error ∧ List.Forall₂ Respelled original.1.events respelled.1.events ∧
      respelled.2 = original.2 := by
  intro original respelled
  have hevents : ∀ e ∈ ((ledgerBalance config request).run l).1.events, Respelled e (e.respell extension'.values) := by
    rcases ledgerBalance_cases config request l with houtcome | ⟨e, hfailed⟩
    · obtain ⟨extension₀, payments, refunds, hextension₀, hpayments, hrefunds, hresult⟩ := outcome_eq_ok.1 houtcome
      obtain rfl : extension = extension₀ := Option.some.inj (hextension.symm.trans hextension₀)
      intro e he
      rw [hresult] at he
      rcases List.mem_append.1 ((merged_perm payments refunds).mem_iff.1 he) with he | he
      · exact respelled_of_found h hpayments e he
      · exact respelled_of_found h hrefunds e he
    · rw [hfailed]
      simp [Balance.failed]
  have hrespelled : respelled = (original.1.respell extension'.values, original.2) :=
    ledgerBalance_respell h hextension l
  rw [hrespelled]
  exact ⟨rfl, rfl, rfl, List.forall₂_map_right_iff.2 (List.forall₂_same.2 hevents), rfl⟩

/-- The extension of the trial, with its addresses in capitals. -/
def trialCapitals : ExtensionState :=
  { trialFeeExtension with
    values := { trialFeeExtension.values with
      paymentAddress := some "0x0A0A0A0A0A0A0A0A0A0A0A0A0A0A0A0A0A0A0A0A"
      refundAddress := some "0x0B0B0B0B0B0B0B0B0B0B0B0B0B0B0B0B0B0B0B0B"
      feeAddress := some "0x0F0F0F0F0F0F0F0F0F0F0F0F0F0F0F0F0F0F0F0F" } }

/-- In capitals the trial has the balance and the fees that it has in lowercase. -/
theorem balance_respelled_trial :
    ((ledgerBalance .trial (withExtension trialFeeRequest trialCapitals)).run trialFeeLedger).1.balance =
        ((ledgerBalance .trial trialFeeRequest).run trialFeeLedger).1.balance ∧
      ((ledgerBalance .trial (withExtension trialFeeRequest trialCapitals)).run trialFeeLedger).1.events.length =
        2 := by
  have hrespells : trialFeeExtension.values.Respells trialCapitals.values :=
    ⟨.some (by decide +kernel), .some (by decide +kernel), .some (by decide +kernel), rfl⟩
  obtain ⟨hbalance, -, -, hevents, -⟩ :=
    balance_respelled .trial trialFeeRequest trialFeeExtension trialCapitals trialFeeLedger rfl hrespells
  refine ⟨hbalance, hevents.length_eq.symm.trans ?_⟩
  rw [run_trialFeeLedger]
  exact (merged_perm _ _).length_eq

end Detector

end Invoicing
