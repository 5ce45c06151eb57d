import Invoicing.Proofs.Decimal
import Invoicing.Proofs.Detection.Answer

set_option autoImplicit false

/-! # Arithmetic that is exact up to the largest amount

Nothing is lost in a sum, a difference or a scaled amount but what exceeds the largest amount, and that only once, at the
end (`PaymentEvent.amounts_exact`). So a sum does not depend on the order of the events and a scaled amount grows with the
amount, and what fails is only a sum of a text that is no amount. -/

namespace Invoicing

namespace Amount

/-! ## Sums of texts -/

variable {texts : List String}

theorem eq_clamp_iff {a : Amount} {n : Nat} : a = clamp n ↔ a.value = min (2 ^ 256 - 1) n := by
  rw [Amount.ext_iff, value_clamp, Nat.min_comm]

theorem parse_eq_error {s : String} (h : isValidText s = false) : parse s = .error (.invalidAmount s) := by
  have hnone : ofText? s = none := by simpa [isValidText] using h
  rw [parse, hnone]

/-- A sum ends at the first text that is no amount. -/
theorem sumTextsFrom_error {s : String} (h : texts.find? (fun s => !isValidText s) = some s) (total : Amount) :
    sumTextsFrom total texts = .error (.invalidAmount s) := by
  induction texts generalizing total with
  | nil => simp at h
  | cons t texts ih =>
    by_cases ht : isValidText t
    · obtain ⟨a, ha, -⟩ := parse_eq ht
      rw [List.find?_cons_of_neg (by simpa using ht)] at h
      rw [sumTextsFrom, ha]
      exact ih h (total.add a)
    · rw [List.find?_cons_of_pos (by simpa using ht), Option.some.injEq] at h
      subst h
      rw [sumTextsFrom, parse_eq_error (by simpa using ht)]
      rfl

theorem find?_invalid_eq_none : texts.find? (fun s => !isValidText s) = none ↔ ∀ s ∈ texts, isValidText s = true := by
  simp

/-- A sum of texts succeeds exactly if all of them are amounts, with the exact sum up to the largest amount. -/
theorem sumTexts_eq_ok_iff {total : Amount} :
    sumTexts texts = .ok total ↔
      (∀ s ∈ texts, isValidText s = true) ∧ total.value = min (2 ^ 256 - 1) (texts.map worth).sum := by
  cases hfind : texts.find? (fun s => !isValidText s) with
  | none =>
    have hvalid := find?_invalid_eq_none.1 hfind
    rw [sumTexts_eq hvalid, Except.ok.injEq, eq_comm, eq_clamp_iff]
    exact (and_iff_right hvalid).symm
  | some s =>
    rw [sumTexts, sumTextsFrom_error hfind]
    constructor
    · intro h
      cases h
    · rintro ⟨hvalid, -⟩
      rw [find?_invalid_eq_none.2 hvalid] at hfind
      cases hfind

/-- It fails with the first text that is no amount. -/
theorem sumTexts_eq_error_iff {e : DetectionError} :
    sumTexts texts = .error e ↔ ∃ s, texts.find? (fun s => !isValidText s) = some s ∧ e = .invalidAmount s := by
  cases hfind : texts.find? (fun s => !isValidText s) with
  | none =>
    rw [sumTexts_eq (find?_invalid_eq_none.1 hfind)]
    simp
  | some s =>
    rw [sumTexts, sumTextsFrom_error hfind]
    simp [eq_comm]

theorem exists_sumTexts_eq_error_iff :
    (∃ e, sumTexts texts = .error e) ↔ ∃ s ∈ texts, isValidText s = false := by
  simp only [sumTexts_eq_error_iff]
  constructor
  · rintro ⟨e, s, hfind, -⟩
    exact ⟨s, List.mem_of_find?_eq_some hfind, by simpa using List.find?_some hfind⟩
  · rintro ⟨s, hs, hinvalid⟩
    have hsome : (texts.find? fun s => !isValidText s).isSome := List.find?_isSome.2 ⟨s, hs, by simp [hinvalid]⟩
    obtain ⟨first, hfirst⟩ := Option.isSome_iff_exists.1 hsome
    exact ⟨_, first, hfirst, rfl⟩

/-- The order of the texts makes no difference to a sum. -/
theorem sumTexts_perm {texts' : List String} (h : texts.Perm texts') {total : Amount} :
    sumTexts texts = .ok total ↔ sumTexts texts' = .ok total := by
  rw [sumTexts_eq_ok_iff, sumTexts_eq_ok_iff, (h.map worth).sum_nat]
  simp only [h.mem_iff]

end Amount

/-! ## Differences -/

theorem signedBalance_eq_ok_iff {paid refunded text : String} :
    signedBalance paid refunded = .ok text ↔
      (Amount.isValidText paid = true ∧ Amount.isValidText refunded = true) ∧
        text = toString ((Amount.worth paid : Int) - Amount.worth refunded) := by
  by_cases hpaid : Amount.isValidText paid
  · by_cases hrefunded : Amount.isValidText refunded
    · obtain ⟨a, ha, hworth⟩ := Amount.parse_eq hpaid
      obtain ⟨b, hb, hworth'⟩ := Amount.parse_eq hrefunded
      have hbalance : signedBalance paid refunded = .ok (a.difference b) := by
        rw [signedBalance, ha, hb]
        rfl
      simp [hbalance, hpaid, hrefunded, Amount.difference_eq, hworth, hworth', eq_comm]
    · obtain ⟨a, ha, -⟩ := Amount.parse_eq hpaid
      have hbalance : signedBalance paid refunded = .error (.invalidAmount refunded) := by
        rw [signedBalance, ha, Amount.parse_eq_error (by simpa using hrefunded)]
        rfl
      simp [hbalance, hrefunded]
  · have hbalance : signedBalance paid refunded = .error (.invalidAmount paid) := by
      rw [signedBalance, Amount.parse_eq_error (by simpa using hpaid)]
      rfl
    simp [hbalance, hpaid]

/-! ## Scaled amounts -/

namespace PreciseCurrency

theorem value_units (c : PreciseCurrency) (a : Amount) :
    (c.units a).value =
      if feedDecimals ≤ c.decimals then min (2 ^ 256 - 1) (a.value * 10 ^ (c.decimals - feedDecimals))
      else a.value / 10 ^ (feedDecimals - c.decimals) := by
  unfold units
  split
  · rw [Amount.value_clamp, Nat.min_comm]
  · have hle := Nat.div_le_self a.value (10 ^ (feedDecimals - c.decimals))
    have hlt := a.value_lt
    rw [Amount.value_clamp]
    omega

theorem units_mono (c : PreciseCurrency) {a b : Amount} (h : a.value ≤ b.value) :
    (c.units a).value ≤ (c.units b).value := by
  rw [value_units, value_units]
  split
  · have hmul := Nat.mul_le_mul_right (10 ^ (c.decimals - feedDecimals)) h
    omega
  · exact Nat.div_le_div_right h

end PreciseCurrency

/-! ## Sums of events -/

namespace PaymentEvent

/-- The event pays a fee to an address, and this is the text of the fee. -/
def PaysFee (e : PaymentEvent) (address : Option String) (text : String) : Prop :=
  (∃ a ∈ address, ∃ b ∈ e.details.feeAddress, Address.same b a = true) ∧ e.details.feeAmount = some text

variable {events events' : List PaymentEvent} {address : String}

theorem mem_feesTo {text : String} :
    text ∈ feesTo address events ↔ ∃ e ∈ events, e.PaysFee (some address) text := by
  simp [feesTo, PaysFee, Option.any_eq_true, and_assoc]

theorem feesTo_perm (h : events.Perm events') : (feesTo address events).Perm (feesTo address events') :=
  (h.filter _).filterMap _

theorem sum_perm (h : events.Perm events') {total : Amount} : sum events = .ok total ↔ sum events' = .ok total :=
  Amount.sumTexts_perm (h.map _)

theorem feeSum_perm (h : events.Perm events') (address : Option String) {total : Amount} :
    feeSum events address = .ok total ↔ feeSum events' address = .ok total := by
  cases address with
  | none => rfl
  | some address => exact Amount.sumTexts_perm (feesTo_perm h)

theorem sum_eq_ok_iff (events : List PaymentEvent) {total : Amount} :
    sum events = .ok total ↔
      (∀ e ∈ events, Amount.isValidText e.amount = true) ∧
        total.value = min (2 ^ 256 - 1) (events.map fun e => Amount.worth e.amount).sum := by
  rw [sum, Amount.sumTexts_eq_ok_iff, List.map_map]
  simp [Function.comp_def]

theorem feeSum_eq_ok_iff (events : List PaymentEvent) (address : Option String) {total : Amount} :
    feeSum events address = .ok total ↔
      (∀ e ∈ events, ∀ text, e.PaysFee address text → Amount.isValidText text = true) ∧
        total.value = min (2 ^ 256 - 1) (events.map (feeFor address)).sum := by
  cases address with
  | none =>
    have hnone : feeSum events none = .ok (fees none events) := by
      rw [fees_none]
      rfl
    rw [hnone, Except.ok.injEq, eq_comm, fees, Amount.eq_clamp_iff]
    simp [PaysFee]
  | some address =>
    rw [feeSum, Amount.sumTexts_eq_ok_iff, sum_worth_feesTo]
    simp only [mem_feesTo]
    constructor
    · rintro ⟨hvalid, hvalue⟩
      refine ⟨?_, hvalue⟩
      intro e he text htext
      exact hvalid text ⟨e, he, htext⟩
    · rintro ⟨hvalid, hvalue⟩
      refine ⟨?_, hvalue⟩
      rintro text ⟨e, he, htext⟩
      exact hvalid e he text htext

theorem exists_sum_eq_error_iff (events : List PaymentEvent) :
    (∃ e, sum events = .error e) ↔ ∃ e ∈ events, Amount.isValidText e.amount = false := by
  rw [sum, Amount.exists_sumTexts_eq_error_iff]
  simp

theorem exists_feeSum_eq_error_iff (events : List PaymentEvent) (address : Option String) :
    (∃ e, feeSum events address = .error e) ↔
      ∃ e ∈ events, ∃ text, e.PaysFee address text ∧ Amount.isValidText text = false := by
  cases address with
  | none => simp [feeSum, PaysFee]
  | some address =>
    rw [feeSum, Amount.exists_sumTexts_eq_error_iff]
    simp only [mem_feesTo]
    constructor
    · rintro ⟨text, ⟨e, he, hpays⟩, hinvalid⟩
      exact ⟨e, he, text, hpays, hinvalid⟩
    · rintro ⟨e, he, text, hpays, hinvalid⟩
      exact ⟨text, ⟨e, he, hpays⟩, hinvalid⟩

/-! ## What is lost -/

/-- **The arithmetic of events is exact up to the largest amount.** The amounts of events have a sum exactly if all of them
are amounts, and so do the fees that are paid to an address. It is the exact sum or the largest amount, whichever is less, in
any order of the events. A balance is spelled by the canonical decimal of the difference, without a minus before a zero. With
fewer than 86 decimals an amount of a price feed is told in units of the currency, scaled up as far as the largest amount
or cut down to whole units, and a larger amount is not told as a smaller one. -/
theorem amounts_exact (events : List PaymentEvent) (address : Option String) (paid refunded : String)
    (c : PreciseCurrency) (hdecimals : c.decimals < 86) :
    (∀ total, sum events = .ok total ↔
      (∀ e ∈ events, Amount.isValidText e.amount = true) ∧
        total.value = min (2 ^ 256 - 1) (events.map fun e => Amount.worth e.amount).sum) ∧
    ((∃ e, sum events = .error e) ↔ ∃ e ∈ events, Amount.isValidText e.amount = false) ∧
    (∀ total, feeSum events address = .ok total ↔
      (∀ e ∈ events, ∀ text, e.PaysFee address text → Amount.isValidText text = true) ∧
        total.value = min (2 ^ 256 - 1) (events.map (feeFor address)).sum) ∧
    ((∃ e, feeSum events address = .error e) ↔
      ∃ e ∈ events, ∃ text, e.PaysFee address text ∧ Amount.isValidText text = false) ∧
    (∀ events', events.Perm events' → ∀ total,
      (sum events = .ok total ↔ sum events' = .ok total) ∧
        (feeSum events address = .ok total ↔ feeSum events' address = .ok total)) ∧
    (∀ text, signedBalance paid refunded = .ok text ↔
      (Amount.isValidText paid = true ∧ Amount.isValidText refunded = true) ∧
        Decimal.Spells text ((Amount.worth paid : Int) - Amount.worth refunded)) ∧
    (∀ text, signedBalance paid refunded = .ok text → text.toList.take 2 ≠ ['-', '0']) ∧
    ∃ scaled : Amount → Amount, (∀ a, c.ofFeed? a = some (scaled a)) ∧
      (∀ a, (scaled a).value =
        if 8 ≤ c.decimals then min (2 ^ 256 - 1) (a.value * 10 ^ (c.decimals - 8))
        else a.value / 10 ^ (8 - c.decimals)) ∧
      ∀ a b, a.value ≤ b.value → (scaled a).value ≤ (scaled b).value := by
  have hbalance : ∀ text, signedBalance paid refunded = .ok text ↔
      (Amount.isValidText paid = true ∧ Amount.isValidText refunded = true) ∧
        Decimal.Spells text ((Amount.worth paid : Int) - Amount.worth refunded) := by
    intro text
    rw [signedBalance_eq_ok_iff, Decimal.spells_iff]
  refine ⟨fun total => sum_eq_ok_iff events, exists_sum_eq_error_iff events, fun total => feeSum_eq_ok_iff events address,
    exists_feeSum_eq_error_iff events address, fun events' hperm total => ⟨sum_perm hperm, feeSum_perm hperm address⟩,
    hbalance, fun text htext => ((hbalance text).1 htext).2.take_two_ne, c.units, ?_, c.value_units, ?_⟩
  · intro a
    have hmax : c.decimals ≤ PreciseCurrency.maxDecimals := Nat.le_of_lt_succ hdecimals
    rw [PreciseCurrency.ofFeed?_eq, if_pos hmax]
  · intro a b hle
    exact c.units_mono hle

/-- A transfer with a fee. -/
def trialEvent (amount fee : String) : PaymentEvent where
  amount := amount
  name := .payment
  details := ⟨5, .replicate 0xab, "to", some "Fee", some fee, none, none, none⟩
  timestamp := 1005

/-- The largest amount stays what it is when more is added, and a fee that is no amount keeps the fees from being added
up. -/
theorem amounts_exact_trial :
    (⟨⟨.fiat, "EUR", none⟩, 85⟩ : PreciseCurrency).decimals < 86 ∧
      sum [trialEvent Amount.max.render "5", trialEvent "1" "x"] = .ok .max ∧
      (∃ e, feeSum [trialEvent Amount.max.render "5", trialEvent "1" "x"] (some "fee") = .error e) ∧
      signedBalance "200" "1000" = .ok "-800" := by
  have hdecimals : (⟨⟨.fiat, "EUR", none⟩, 85⟩ : PreciseCurrency).decimals < 86 := by decide
  obtain ⟨hsum, -, -, hfees, -, hbalance, -⟩ := amounts_exact
    [trialEvent Amount.max.render "5", trialEvent "1" "x"] (some "fee") "200" "1000" _ hdecimals
  refine ⟨hdecimals, (hsum _).2 ⟨?_, ?_⟩, hfees.2 ⟨trialEvent "1" "x", by simp, "x", ⟨?_, rfl⟩, by decide⟩,
    (hbalance _).2 ⟨?_, ?_⟩⟩
  · simp [trialEvent]
    decide
  · have hone : Amount.worth "1" = 1 := by decide
    simp [trialEvent, hone, Amount.max]
  · exact ⟨"fee", rfl, "Fee", rfl, by decide⟩
  · decide
  · rw [Decimal.spells_iff]
    decide

end PaymentEvent

end Invoicing
