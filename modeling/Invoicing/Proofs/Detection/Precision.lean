import Invoicing.Proofs.Detection.Answer

set_option autoImplicit false

/-! # Precision and the addresses of price feeds

Price feeds know a symbol in any case by one address, but the number of decimals goes by the symbol as it is written.
So two currencies with one address are reported alike as long as both of them are the yen or neither is
(`Currency.reports_of_sameFeed`). The yen in small letters is found by the same logs, and every amount is reported a
hundredfold. -/

namespace Invoicing

namespace Currency

/-- The currencies are of one kind, and price feeds know both by the same address. -/
structure SameFeed (c c' : Currency) : Prop where
  kind : c.kind = c'.kind
  address : c.feedAddress = c'.feedAddress

/-- The one fiat currency that is counted without decimals, as it is usually written. -/
def IsYen (c : Currency) : Prop := c.kind = .fiat ∧ c.value = "JPY"

instance : DecidablePred IsYen := fun c => inferInstanceAs (Decidable (c.kind = .fiat ∧ c.value = "JPY"))

/-- To price feeds, the case of the letters of a symbol makes no difference. -/
theorem sameFeed_of_map_toUpper {c c' : Currency} (hkind : c.kind = c'.kind) (hsymbol : c.kind ≠ .token)
    (h : c.value.toList.map Char.toUpper = c'.value.toList.map Char.toUpper) : c.SameFeed c' := by
  have hupper : c.value.map Char.toUpper = c'.value.map Char.toUpper := by
    apply String.toList_injective
    rw [String.toList_map, String.toList_map, h]
  refine ⟨hkind, ?_⟩
  unfold feedAddress
  rw [← hkind]
  cases hk : c.kind with
  | token => exact absurd hk hsymbol
  | _ => simp only [symbolAddress, hupper]

end Currency

open Currency

/-! ## Decimals -/

namespace PreciseCurrency

variable {c c' : Currency}

theorem isAt_congr (h : c.SameFeed c') : (ofCurrency c).isAt = (ofCurrency c').isAt := by
  funext a
  simp only [isAt, ofCurrency, h.address]

theorem usualDecimals_of_isYen (h : c.IsYen) : usualDecimals c = 0 := by
  simp [usualDecimals, h.1, h.2]

theorem usualDecimals_of_fiat (hkind : c.kind = .fiat) (h : ¬ c.IsYen) : usualDecimals c = 2 := by
  have hvalue : c.value ≠ "JPY" := fun hvalue => h ⟨hkind, hvalue⟩
  simp [usualDecimals, hkind, hvalue]

/-- Two currencies of one kind have the same precision, unless just one of them is the yen. -/
theorem usualDecimals_eq_iff (h : c.kind = c'.kind) :
    usualDecimals c = usualDecimals c' ↔ (c.IsYen ↔ c'.IsYen) := by
  by_cases hfiat : c.kind = .fiat
  · by_cases hyen : c.IsYen <;> by_cases hyen' : c'.IsYen <;>
      simp [hyen, hyen', usualDecimals_of_isYen, usualDecimals_of_fiat, hfiat, h ▸ hfiat]
  · have hyen : ¬ c.IsYen := fun hyen => hfiat hyen.1
    have hyen' : ¬ c'.IsYen := fun hyen => hfiat (h.trans hyen.1)
    have hsame : usualDecimals c = usualDecimals c' := by
      unfold usualDecimals
      rw [← h]
      cases hkind : c.kind with
      | fiat => exact absurd hkind hfiat
      | _ => rfl
    simp [hyen, hyen', hsame]

end PreciseCurrency

/-! ## Events -/

namespace PaymentEvent

/-- A hundredth of an amount, without the rest. -/
def hundredth (text : String) : String := (Amount.clamp (Amount.worth text / 100)).render

/-- The event with a hundredth of its amount and of its fee. -/
def cut (e : PaymentEvent) : PaymentEvent :=
  { e with
    amount := hundredth e.amount
    details := { e.details with feeAmount := e.details.feeAmount.map hundredth } }

end PaymentEvent

open PaymentEvent

namespace PreciseCurrency

variable {c c' : Currency}

/-- Whole yen are the hundredths of what another fiat currency would have. -/
theorem units_of_isYen (h : c.IsYen) (hkind : c'.kind = .fiat) (h' : ¬ c'.IsYen) (a : Amount) :
    ((ofCurrency c).units a).render = hundredth ((ofCurrency c').units a).render := by
  have hlt := a.value_lt
  have hyen : (ofCurrency c).units a = .clamp (a.value / 10 ^ 8) := by
    simp [units, ofCurrency, usualDecimals_of_isYen h, feedDecimals]
  have hother : (ofCurrency c').units a = .clamp (a.value / 10 ^ 6) := by
    simp [units, ofCurrency, usualDecimals_of_fiat hkind h', feedDecimals]
  have hfits : min (a.value / 10 ^ 6) (2 ^ 256 - 1) = a.value / 10 ^ 6 := by
    have hle := Nat.div_le_self a.value (10 ^ 6)
    omega
  rw [hundredth, hyen, hother, Amount.worth_render, Amount.value_clamp, hfits, Nat.div_div_eq_div_mul]

theorem decimals_le_maxDecimals (c : Currency) : (ofCurrency c).decimals ≤ maxDecimals := by
  show usualDecimals c ≤ maxDecimals
  unfold usualDecimals maxDecimals
  split
  · split <;> omega
  · omega
  · omega
  · omega

end PreciseCurrency

open PreciseCurrency

namespace Search

/-- The search in another currency. -/
def inCurrency (s : Search) (c : Currency) : Search := { s with currency := .ofCurrency c }

variable {c c' : Currency}

theorem accepts_inCurrency (h : c.SameFeed c') (s : Search) : (s.inCurrency c).accepts = (s.inCurrency c').accepts := by
  funext p
  show (_ && (ofCurrency c).isAt _ && _) = (_ && (ofCurrency c').isAt _ && _)
  rw [isAt_congr h]
  rfl

/-- No currency has so many decimals that its amounts cannot be told. -/
theorem event_inCurrency (s : Search) (c : Currency) (p : PairedTransfer) (time : Timestamp) :
    (s.inCurrency c).event p time = .ok ((s.inCurrency c).eventOf p time) := by
  have hmax : (s.inCurrency c).currency.decimals ≤ maxDecimals := decimals_le_maxDecimals c
  rw [event_eq, if_pos hmax]

/-- Under the yen, an event is told with a hundredth of what another fiat currency would have. -/
theorem event_of_isYen (h : c.IsYen) (hkind : c'.kind = .fiat) (h' : ¬ c'.IsYen) (s : Search) (p : PairedTransfer)
    (time : Timestamp) : (s.inCurrency c).event p time = PaymentEvent.cut <$> (s.inCurrency c').event p time := by
  have hcut : (s.inCurrency c).eventOf p time = ((s.inCurrency c').eventOf p time).cut := by
    unfold eventOf PaymentEvent.cut inCurrency
    simp only [units_of_isYen h hkind h', Option.map_some]
  rw [event_inCurrency, event_inCurrency, hcut]
  rfl

theorem event_congr (h : usualDecimals c = usualDecimals c') (s : Search) :
    (s.inCurrency c).event = (s.inCurrency c').event := by
  have hdecimals : (ofCurrency c).decimals = (ofCurrency c').decimals := h
  have hunits : (ofCurrency c).units = (ofCurrency c').units := by
    funext a
    rw [units, units, hdecimals]
  funext p time
  rw [event_inCurrency, event_inCurrency]
  simp only [eventOf, inCurrency, hunits]

/-- Currencies with one address and the same precision have the same events. -/
theorem events_inCurrency (h : c.SameFeed c') (hyen : c.IsYen ↔ c'.IsYen) (s : Search) :
    (s.inCurrency c).events = (s.inCurrency c').events := by
  have hevent := event_congr ((usualDecimals_eq_iff h.kind).2 hyen) s
  have hevents : (s.inCurrency c).events = List.map id <$> (s.inCurrency c').events := by
    refine events_map rfl rfl (accepts_inCurrency h s) fun p time => ?_
    rw [hevent, id_map]
  rw [hevents, List.map_id_fun, id_map]

/-- The yen has the events of the other currencies with its address, cut down to hundredths. -/
theorem events_of_isYen (h : c.SameFeed c') (hyen : c.IsYen) (hyen' : ¬ c'.IsYen) (s : Search) :
    (s.inCurrency c).events = List.map PaymentEvent.cut <$> (s.inCurrency c').events :=
  events_map rfl rfl (accepts_inCurrency h s) (event_of_isYen hyen (h.kind ▸ hyen.1) hyen' s)

end Search

/-! ## Balances -/

namespace Detector

variable {c c' : Currency}

/-- The search for the transfers of a request in another currency is its search, in that currency. -/
theorem search_withCurrency (config : DetectionConfig) (request : Request) (c : Currency) (extension : ExtensionState)
    (destination : String) (direction : Direction) :
    search config { request with currency := c } extension destination direction =
      (fun s : Search => s.inCurrency c) <$> search config request extension destination direction := by
  unfold search
  dsimp only
  cases extension.values.salt with
  | none => rfl
  | some salt => cases config.deployment? (extension.values.network.getD PaymentNetwork.defaultChain) <;> rfl

theorem ledgerSource_withCurrency (h : c.SameFeed c') (hyen : c.IsYen ↔ c'.IsYen) (config : DetectionConfig)
    (request : Request) :
    ledgerSource config { request with currency := c } = ledgerSource config { request with currency := c' } := by
  funext extension destination direction
  rw [ledgerSource, ledgerSource, search_withCurrency config request c, search_withCurrency config request c',
    Effect.ofExcept_map, Effect.ofExcept_map, bind_map_left, bind_map_left]
  simp only [Search.events_inCurrency h hyen]

theorem ledgerBalance_withCurrency (h : c.SameFeed c') (hyen : c.IsYen ↔ c'.IsYen) (config : DetectionConfig)
    (request : Request) :
    ledgerBalance config { request with currency := c } = ledgerBalance config { request with currency := c' } := by
  rw [ledgerBalance, ledgerBalance, ledgerSource_withCurrency h hyen]
  rfl

end Detector

namespace Currency

/-- **Currencies with one address are reported alike, but for the yen.** If price feeds know two currencies of one kind
by the same address, then they are found by the same logs. They have the same precision unless just one of them is
written as the yen, and then every search has the same events in either currency, and every balance is the same. If
just one of them is, the other is reported with two decimals: every amount and every fee of an event in yen is a
hundredth of the one in the other currency. -/
theorem reports_of_sameFeed {c c' : Currency} (h : c.SameFeed c') :
    (∀ a, (ofCurrency c).isAt a = (ofCurrency c').isAt a) ∧
    (usualDecimals c = usualDecimals c' ↔ (c.IsYen ↔ c'.IsYen)) ∧
    ((c.IsYen ↔ c'.IsYen) →
      (∀ s : Search, (s.inCurrency c).events = (s.inCurrency c').events) ∧
      ∀ (config : DetectionConfig) (request : Request),
        Detector.ledgerBalance config { request with currency := c } =
          Detector.ledgerBalance config { request with currency := c' }) ∧
    (c.IsYen → ¬ c'.IsYen → ∀ s : Search,
      (s.inCurrency c).events = List.map PaymentEvent.cut <$> (s.inCurrency c').events) := by
  refine ⟨congrFun (isAt_congr h), usualDecimals_eq_iff h.kind, fun hyen => ⟨?_, ?_⟩, fun hyen hyen' s => ?_⟩
  · exact Search.events_inCurrency h hyen
  · exact Detector.ledgerBalance_withCurrency h hyen
  · exact Search.events_of_isYen h hyen hyen' s

def yen : Currency := ⟨.fiat, "JPY", none⟩

/-- The yen in small letters. -/
def smallYen : Currency := ⟨.fiat, "jpy", none⟩

/-- Searches find the yen in either spelling by the same logs, and tell amounts in small letters a hundredfold. To the
euro its spelling makes no difference. -/
theorem reports_of_sameFeed_trial :
    yen.feedAddress = smallYen.feedAddress ∧ usualDecimals yen ≠ usualDecimals smallYen ∧
      (∀ s : Search, (s.inCurrency yen).events = List.map PaymentEvent.cut <$> (s.inCurrency smallYen).events) ∧
      ∀ s : Search, (s.inCurrency ⟨.fiat, "EUR", none⟩).events = (s.inCurrency ⟨.fiat, "eur", none⟩).events := by
  have hyen : SameFeed yen smallYen := sameFeed_of_map_toUpper rfl (by decide) (by decide)
  have heuro : SameFeed ⟨.fiat, "EUR", none⟩ ⟨.fiat, "eur", none⟩ :=
    sameFeed_of_map_toUpper rfl (by decide) (by decide)
  have hyes : IsYen yen := by decide
  have hno : ¬ IsYen smallYen := by decide
  obtain ⟨-, hdecimals, -, hcut⟩ := reports_of_sameFeed hyen
  obtain ⟨-, -, hsame, -⟩ := reports_of_sameFeed heuro
  refine ⟨hyen.address, fun h => hno ((hdecimals.1 h).1 hyes), hcut hyes hno, ?_⟩
  exact (hsame (by decide)).1

/-- A payment of a hundred yen. -/
example : ((ofCurrency yen).units (.clamp (10 ^ 10))).render = "100" ∧
    ((ofCurrency smallYen).units (.clamp (10 ^ 10))).render = "10000" := by
  decide +kernel

end Currency

end Invoicing
