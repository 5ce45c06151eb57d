import Invoicing.Detection.Search
import Invoicing.Proofs.Address
import Invoicing.Proofs.Ledger.Answers

set_option autoImplicit false

/-! # What a search comes to

The logs and times of a ledger determine what a search comes to while no call fails (`Search.outcome`): the events of the
pairs that were asked for and that reach the destination. -/

namespace Invoicing

/-! ## Amounts of price feeds -/

namespace PreciseCurrency

/-- The most decimals of a currency whose scale is an amount. -/
def maxDecimals : Nat := 85

/-- An amount of a price feed in units of the currency, at most the largest amount. -/
def units (c : PreciseCurrency) (a : Amount) : Amount :=
  if feedDecimals ≤ c.decimals then .clamp (a.value * 10 ^ (c.decimals - feedDecimals))
  else .clamp (a.value / 10 ^ (feedDecimals - c.decimals))

theorem ofFeed?_eq (c : PreciseCurrency) (a : Amount) :
    c.ofFeed? a = if c.decimals ≤ maxDecimals then some (c.units a) else none := by
  unfold ofFeed? units
  by_cases hup : feedDecimals ≤ c.decimals
  · rw [if_pos hup, if_pos hup, Amount.tenTo?_eq, Amount.ofNat?]
    by_cases hmax : c.decimals ≤ maxDecimals
    · -- The scale is at most `10 ^ 77`, the largest power of ten that is an amount.
      have hpow : 10 ^ (c.decimals - feedDecimals) ≤ 10 ^ (maxDecimals - feedDecimals) :=
        Nat.pow_le_pow_right (by decide) (by omega)
      have hlt : 10 ^ (c.decimals - feedDecimals) < 2 ^ 256 := Nat.lt_of_le_of_lt hpow (by decide)
      rw [dif_pos hlt, if_pos hmax]
      rfl
    · have hpow : 10 ^ (maxDecimals + 1 - feedDecimals) ≤ 10 ^ (c.decimals - feedDecimals) :=
        Nat.pow_le_pow_right (by decide) (by omega)
      have hge : ¬ 10 ^ (c.decimals - feedDecimals) < 2 ^ 256 :=
        fun hlt => absurd (Nat.lt_of_le_of_lt hpow hlt) (by decide)
      rw [dif_neg hge, if_neg hmax]
      rfl
  · have hmax : c.decimals ≤ maxDecimals := by
      simp only [feedDecimals, maxDecimals] at *
      omega
    rw [if_neg hup, if_neg hup, if_pos hmax]

end PreciseCurrency

namespace Search

variable (s : Search)

/-! ## Pairs that count -/

/-- Was a payment asked for in the currency of the search, at a rate that is fresh enough? -/
def asks (c : Conversion) : Bool :=
  decide (c.maxRateTimespan.value ≤ s.maxRateTimespan.toNat) && s.currency.isAt c.currency

/-- Does a transfer reach the destination? -/
def pays (t : Transfer) : Bool := Address.same t.recipient.render s.destination

/-- The event of a pair. -/
def eventOf (p : PairedTransfer) (time : Timestamp) : PaymentEvent where
  amount := (s.currency.units p.conversion.amount).render
  name := s.direction
  details :=
    { block := p.block
      transaction := p.transaction
      destination := s.destination
      feeAddress := some (Address.checksummed p.transfer.feeAddress)
      feeAmount := some (s.currency.units p.conversion.feeAmount).render
      tokenAmount := some p.transfer.amount.render
      tokenFee := some p.transfer.feeAmount.render
      maxRateTimespan := some p.conversion.maxRateTimespan.render }
  timestamp := time

variable {s}

theorem accepts_eq (p : PairedTransfer) : s.accepts p = (s.asks p.conversion && s.pays p.transfer) := by
  show (s.asks p.conversion && Address.same (Address.checksummed p.transfer.recipient) s.destination) = _
  rw [Address.same_checksummed]
  rfl

theorem event_eq (p : PairedTransfer) (time : Timestamp) :
    s.event p time =
      if s.currency.decimals ≤ PreciseCurrency.maxDecimals then .ok (s.eventOf p time) else .error .scaleTooLarge := by
  by_cases hmax : s.currency.decimals ≤ PreciseCurrency.maxDecimals
  · simp only [event, scaled, PreciseCurrency.ofFeed?_eq, if_pos hmax]
    rfl
  · simp only [event, scaled, PreciseCurrency.ofFeed?_eq, if_neg hmax]
    rfl

/-- Two searches that ask for the same logs and count the same pairs have the same events, up to how each is told. -/
theorem events_map {s' : Search} {f : PaymentEvent → PaymentEvent} (hreference : s'.reference = s.reference)
    (hfilter : s'.filter = s.filter) (haccepts : s'.accepts = s.accepts)
    (hevent : ∀ p time, s'.event p time = f <$> s.event p time) : s'.events = List.map f <$> s.events := by
  unfold events
  rw [hreference, hfilter, haccepts, map_bind]
  refine bind_congr fun reference => ?_
  rw [map_bind]
  refine bind_congr fun conversions => ?_
  rw [map_bind]
  refine bind_congr fun transfers => ?_
  rw [map_bind]
  refine bind_congr fun paired => ?_
  rw [← Effect.mapM_map]
  refine congrArg (List.mapM · _) (funext fun p => ?_)
  rw [map_bind]
  refine bind_congr fun time => ?_
  rw [hevent, Effect.ofExcept_map]

/-! ## Logs and times -/

variable {logs : List Log} {times : List (BlockNumber × Timestamp)}

/-- The pairs of all logs that ask for a payment. -/
def pairs (s : Search) (logs : List Log) (reference : Hash) : Except DetectionError (List PairedTransfer) :=
  (logs.filter (s.filter Conversion.topic reference).selects).mapM
    (pair (logs.filter (s.filter Transfer.topic reference).selects))

/-- What a search answers on these logs and times while no call fails. -/
def outcome (s : Search) (logs : List Log) (times : List (BlockNumber × Timestamp)) :
    Except DetectionError (List PaymentEvent) := do
  let reference ← Reference.topic s.reference
  let paired ← s.pairs logs reference
  (paired.filter s.accepts).mapM fun p => Ledger.timeAt times p.block >>= s.event p

theorem comesTo_events (s : Search) : Ledger.ComesTo logs times s.events (s.outcome logs times) := by
  refine (Ledger.comesTo_ofExcept _).bind fun reference _ => ?_
  refine (Ledger.comesTo_select _).bind_ok ((Ledger.comesTo_select _).bind_ok ?_)
  refine (Ledger.comesTo_ofExcept _).bind fun paired _ => Ledger.comesTo_mapM (fun p => ?_) _
  exact (Ledger.comesTo_time p.block).bind fun time _ => Ledger.comesTo_ofExcept _

theorem answers_events (s : Search) : Ledger.Answers logs times s.events (s.outcome logs times) :=
  s.comesTo_events.answers

end Search

end Invoicing
