import Invoicing.Proofs.Decimal
import Invoicing.Proofs.Detection.Sum

set_option autoImplicit false

/-! # Reading amounts

An amount is read from a row of digits, with any number of zeros in front, exactly if the number of the digits is below
`2 ^ 256` (`Amount.reading_exact`). A number only grows from digit to digit, so a text may also be refused at the first
digit with which its number does not fit any more (`Amount.ofText?_eq_foldlM`). -/

namespace Invoicing.Amount

variable {s : String} {a : Amount}

/-! ## Digit by digit -/

/-- The amount with one more digit at its end. The tenfold has to fit, and so does the sum with the digit. -/
def push? (a : Amount) (c : Char) : Option Amount := do
  let tenfold ← ofNat? (10 * a.value)
  ofNat? (tenfold.value + (c.toNat - '0'.toNat))

theorem push?_eq (a : Amount) (c : Char) : a.push? c = ofNat? (10 * a.value + (c.toNat - '0'.toNat)) := by
  by_cases htenfold : 10 * a.value < 2 ^ 256
  · rw [push?, ofNat?, dif_pos htenfold]
    rfl
  · have hsum : ¬ 10 * a.value + (c.toNat - '0'.toNat) < 2 ^ 256 := by omega
    rw [push?, ofNat?, dif_neg htenfold, ofNat?, dif_neg hsum]
    rfl

/-- A number does not get less by further digits. -/
theorem le_ofDigitChars (digits : List Char) (n : Nat) : n ≤ Nat.ofDigitChars 10 digits n := by
  rw [Nat.ofDigitChars_eq_ofDigitChars_zero]
  have hscaled : n ≤ 10 ^ digits.length * n := Nat.le_mul_of_pos_left n (Nat.pow_pos (by decide))
  omega

/-- Digits that are taken in one after another are refused exactly if their whole number does not fit. -/
theorem foldlM_push?_eq (digits : List Char) (a : Amount) :
    digits.foldlM push? a = ofNat? (Nat.ofDigitChars 10 digits a.value) := by
  induction digits generalizing a with
  | nil =>
    rw [Nat.ofDigitChars_nil, ofNat?, dif_pos a.value_lt]
    rfl
  | cons c rest ih =>
    rw [List.foldlM_cons, push?_eq, Nat.ofDigitChars_cons]
    generalize 10 * a.value + (c.toNat - '0'.toNat) = next
    by_cases hfits : next < 2 ^ 256
    · rw [ofNat?, dif_pos hfits]
      exact ih ⟨next, hfits⟩
    · -- What does not fit at this digit does not fit at any later one either.
      have hgrown := le_ofDigitChars rest next
      have hlarge : ¬ Nat.ofDigitChars 10 rest next < 2 ^ 256 := by omega
      rw [ofNat?, dif_neg hfits, ofNat?, dif_neg hlarge]
      rfl

/-- Nothing changes if the bound is checked after every digit and not once for the whole number. -/
theorem ofText?_eq_foldlM (s : String) :
    ofText? s = if s.toList ≠ [] ∧ s.toList.all Char.isDigit then s.toList.foldlM push? zero else none := by
  rw [foldlM_push?_eq]
  rfl

/-! ## Whole texts -/

theorem map_value_ofNat? {m n : Nat} : (ofNat? m).map value = some n ↔ m = n ∧ n < 2 ^ 256 := by
  unfold ofNat?
  split
  · next hfits =>
    rw [Option.map_some, Option.some.injEq]
    constructor
    · rintro rfl
      exact ⟨rfl, hfits⟩
    · exact And.left
  · next hlarge =>
    simp only [Option.map_none, reduceCtorEq, false_iff]
    rintro ⟨rfl, hfits⟩
    exact hlarge hfits

/-- A text is read as a number exactly if its digits have that number and the number fits. -/
theorem map_value_ofText? {n : Nat} : (ofText? s).map value = some n ↔ Decimal.Denotes s n ∧ n < 2 ^ 256 := by
  rw [Decimal.denotes_iff_all]
  by_cases hdigits : s.toList ≠ [] ∧ s.toList.all Char.isDigit = true
  · rw [ofText?, if_pos hdigits, map_value_ofNat?, Decimal.ofDigitChars_eq_number, ← and_assoc, and_iff_right hdigits]
  · rw [ofText?, if_neg hdigits]
    simp only [Option.map_none, reduceCtorEq, false_iff]
    rintro ⟨⟨hne, hall, -⟩, -⟩
    exact hdigits ⟨hne, hall⟩

theorem ofText?_eq_some_iff : ofText? s = some a ↔ Decimal.Denotes s a.value := by
  have hvalue : ofText? s = some a ↔ (ofText? s).map value = some a.value := by
    simp [Option.map_eq_some_iff, ← Amount.ext_iff]
  rw [hvalue, map_value_ofText?]
  exact and_iff_left a.value_lt

theorem ofText?_eq_none_iff : ofText? s = none ↔ ∀ n, Decimal.Denotes s n → 2 ^ 256 ≤ n := by
  rw [← Option.map_eq_none_iff (f := value), Option.eq_none_iff_forall_ne_some]
  simp only [ne_eq, map_value_ofText?, not_and, Nat.not_lt]

theorem isValidText_iff : isValidText s = true ↔ ∃ n < 2 ^ 256, Decimal.Denotes s n := by
  rw [isValidText, ← Option.isSome_map (f := value), Option.isSome_iff_exists]
  simp only [map_value_ofText?, and_comm]

theorem spells_render (a : Amount) : Decimal.Spells a.render a.value :=
  ⟨_, Decimal.isNumeral_toDigits a.value, Nat.ofDigitChars_ten_toDigits, by simp [render]⟩

/-- **Reading amounts is exact.** A text is read as a number exactly if it is a row of digits with that number and the
number is below `2 ^ 256`, and these are the valid texts. Nothing changes if the bound is checked digit by digit. The texts
of a number are its decimal with any number of zeros in front. Detection reads the same amounts and fails at every other
text with the text itself. Every amount is read back from its canonical decimal. -/
theorem reading_exact (s : String) :
    (∀ n, (ofText? s).map value = some n ↔ Decimal.Denotes s n ∧ n < 2 ^ 256) ∧
    (isValidText s = true ↔ ∃ n < 2 ^ 256, Decimal.Denotes s n) ∧
    (ofText? s = if s.toList ≠ [] ∧ s.toList.all Char.isDigit then s.toList.foldlM push? zero else none) ∧
    (∀ n, Decimal.Denotes s n ↔ ∃ zeros, s.toList = List.replicate zeros '0' ++ (toString n).toList) ∧
    (∀ a, parse s = .ok a ↔ Decimal.Denotes s a.value) ∧
    (∀ e, parse s = .error e ↔ e = .invalidAmount s ∧ ∀ n, Decimal.Denotes s n → 2 ^ 256 ≤ n) ∧
    ∀ a : Amount, Decimal.Spells a.render a.value ∧ ofText? a.render = some a := by
  refine ⟨fun n => map_value_ofText?, isValidText_iff, ofText?_eq_foldlM s, ?_, ?_, ?_, ?_⟩
  · intro n
    rw [Decimal.denotes_iff, Nat.toString_eq_repr, Nat.toList_repr]
  · intro a
    rw [parse_eq_ok_iff, ofText?_eq_some_iff]
  · intro e
    rw [parse_eq_error_iff, ofText?_eq_none_iff]
  · intro a
    exact ⟨spells_render a, ofText?_render a⟩

/-- The largest amount is read, also with zeros in front, and the next number is not. -/
theorem reading_exact_bound :
    parse ("00" ++ max.render) = .ok max ∧
      parse (toString (2 ^ 256)) = .error (.invalidAmount (toString (2 ^ 256))) := by
  obtain ⟨-, -, -, hzeros, hread, -⟩ := reading_exact ("00" ++ max.render)
  obtain ⟨-, -, -, hplain, -, hrefused, -⟩ := reading_exact (toString (2 ^ 256))
  have hfront : "00".toList = List.replicate 2 '0' := rfl
  have hmax : ("00" ++ max.render).toList = List.replicate 2 '0' ++ (toString max.value).toList := by
    rw [String.toList_append, hfront, render, String.toList_ofList, Nat.toString_eq_repr, Nat.toList_repr]
  have hnext : Decimal.Denotes (toString (2 ^ 256)) (2 ^ 256) := (hplain _).2 ⟨0, (List.nil_append _).symm⟩
  refine ⟨(hread max).2 ((hzeros max.value).2 ⟨2, hmax⟩), (hrefused _).2 ⟨rfl, ?_⟩⟩
  intro n hn
  exact Nat.le_of_eq (hnext.unique hn)

end Invoicing.Amount
