import Invoicing.Power
import Mathlib.Data.List.Basic
import Mathlib.Data.List.Induction

set_option autoImplicit false

/-! # Decimals of integers

Every integer has one canonical decimal: digits that start with a zero only if the zero is all there is, after a minus if
the integer is negative. It is the text under which the integer is written (`Decimal.spells_iff`), so there is no minus
before a zero. A natural number is also what its digits come to, place by place, and zeros in front make no difference to
that (`Decimal.denotes_iff`). -/

namespace Invoicing.Decimal

/-! ## Digits -/

/-- Digits that start with a zero only if it stands alone. -/
structure IsNumeral (digits : List Char) : Prop where
  ne_nil : digits ≠ []
  isDigit : ∀ c ∈ digits, c.isDigit = true
  leading : digits.head? = some '0' → digits = ['0']

theorem exists_digitChar {c : Char} (h : c.isDigit = true) : ∃ d < 10, c = Nat.digitChar d := by
  rw [Char.isDigit_iff_toNat] at h
  obtain ⟨hlow, hhigh⟩ := h
  rw [show '0'.toNat = 48 from rfl] at hlow
  rw [show '9'.toNat = 57 from rfl] at hhigh
  refine ⟨c.toNat - 48, by omega, Char.toNat_inj.1 ?_⟩
  rw [Nat.toNat_digitChar_of_lt_ten (by omega)]
  omega

/-- A number is written with a zero in front only if it is zero. -/
theorem head?_toDigits {n : Nat} (h : (Nat.toDigits 10 n).head? = some '0') : n = 0 := by
  induction n using Nat.strongRecOn with
  | _ n ih =>
    by_cases hn : n < 10
    · rw [Nat.toDigits_of_lt_base hn] at h
      simpa using h
    · rw [Nat.toDigits_of_base_le (by decide) (by omega),
        List.head?_append_of_ne_nil _ Nat.toDigits_ne_nil] at h
      have := ih (n / 10) (by omega) h
      omega

theorem isNumeral_toDigits (n : Nat) : IsNumeral (Nat.toDigits 10 n) where
  ne_nil := Nat.toDigits_ne_nil
  isDigit c hc := Nat.isDigit_of_mem_toDigits (by decide) (by decide) hc
  leading h := by rw [head?_toDigits h, Nat.toDigits_zero]

/-- Digits without leading zeros are those under which their number is written. -/
theorem IsNumeral.toDigits_ofDigitChars {digits : List Char} (h : IsNumeral digits) :
    Nat.toDigits 10 (Nat.ofDigitChars 10 digits 0) = digits := by
  induction digits using List.reverseRecOn with
  | nil => exact absurd rfl h.ne_nil
  | append_singleton front c ih =>
    obtain ⟨d, hd, rfl⟩ := exists_digitChar (h.isDigit c (by simp))
    have hvalue : Nat.ofDigitChars 10 (front ++ [d.digitChar]) 0 = 10 * Nat.ofDigitChars 10 front 0 + d := by
      rw [Nat.ofDigitChars_append, Nat.ofDigitChars_cons_digitChar_of_lt_ten hd, Nat.ofDigitChars_nil]
    rw [hvalue]
    by_cases hfront : front = []
    · subst hfront
      simp [Nat.toDigits_of_lt_base hd]
    · have hhead : (front ++ [d.digitChar]).head? = front.head? := List.head?_append_of_ne_nil _ hfront
      have hlead : front.head? ≠ some '0' := by
        intro hzero
        have := congrArg List.length (h.leading (hhead.trans hzero))
        simp at this
        exact hfront this
      have hwritten := ih ⟨hfront, fun c hc => h.isDigit c (by simp [hc]), fun hzero => absurd hzero hlead⟩
      -- A number with digits before its last one is not zero, so the digits are those of its quotient and rest.
      have hpos : 0 < Nat.ofDigitChars 10 front 0 := by
        rw [Nat.pos_iff_ne_zero]
        intro hzero
        rw [hzero, Nat.toDigits_zero] at hwritten
        rw [← hwritten] at hlead
        exact hlead rfl
      rw [← Nat.toDigits_append_toDigits (by decide) hpos hd, hwritten, Nat.toDigits_of_lt_base hd]

/-! ## Numbers -/

/-- The number of a row of digits. Each of them counts as many times as the power of ten of its place says. -/
def number : List Char → Nat
  | [] => 0
  | c :: rest => (c.toNat - '0'.toNat) * 10 ^ rest.length + number rest

/-- The text is a row of digits, and this is their number. -/
structure Denotes (text : String) (n : Nat) : Prop where
  ne_nil : text.toList ≠ []
  isDigit : ∀ c ∈ text.toList, '0' ≤ c ∧ c ≤ '9'
  number_eq : number text.toList = n

/-- A text stands for one number at most. -/
theorem Denotes.unique {text : String} {m n : Nat} (hm : Denotes text m) (hn : Denotes text n) : m = n :=
  hm.number_eq.symm.trans hn.number_eq

theorem ofDigitChars_eq_number (digits : List Char) : Nat.ofDigitChars 10 digits 0 = number digits := by
  induction digits with
  | nil => rfl
  | cons c rest ih =>
    rw [Nat.ofDigitChars_cons, Nat.ofDigitChars_eq_ofDigitChars_zero, ih, number, Nat.mul_zero, Nat.zero_add,
      Nat.mul_comm]

theorem number_toDigits (n : Nat) : number (Nat.toDigits 10 n) = n := by
  rw [← ofDigitChars_eq_number, Nat.ofDigitChars_ten_toDigits]

theorem number_zeros_append (zeros : Nat) (digits : List Char) :
    number (List.replicate zeros '0' ++ digits) = number digits := by
  rw [← ofDigitChars_eq_number, Nat.ofDigitChars_append, Nat.ofDigitChars_replicate_zero, Nat.mul_zero,
    ofDigitChars_eq_number]

theorem all_isDigit_iff {digits : List Char} :
    digits.all Char.isDigit = true ↔ ∀ c ∈ digits, '0' ≤ c ∧ c ≤ '9' := by
  simp only [List.all_eq_true, Char.isDigit, Bool.and_eq_true, decide_eq_true_eq]
  rfl

theorem denotes_iff_all {text : String} {n : Nat} :
    Denotes text n ↔ text.toList ≠ [] ∧ text.toList.all Char.isDigit = true ∧ number text.toList = n := by
  rw [all_isDigit_iff]
  exact ⟨fun h => ⟨h.ne_nil, h.isDigit, h.number_eq⟩, fun h => ⟨h.1, h.2.1, h.2.2⟩⟩

instance (text : String) (n : Nat) : Decidable (Denotes text n) := decidable_of_iff' _ denotes_iff_all

example : Denotes "0070" 70 ∧ ¬ Denotes "" 0 ∧ ¬ Denotes "7e1" 70 := by decide

/-- A row of digits consists of zeros and, after them, the digits under which its number is written. -/
theorem exists_eq_zeros_append {digits : List Char} (hne : digits ≠ []) (hall : digits.all Char.isDigit = true) :
    ∃ zeros, digits = List.replicate zeros '0' ++ Nat.toDigits 10 (number digits) := by
  induction digits with
  | nil => exact absurd rfl hne
  | cons c rest ih =>
    by_cases hzero : c = '0' ∧ rest ≠ []
    · obtain ⟨rfl, hrest⟩ := hzero
      rw [List.all_cons, Bool.and_eq_true] at hall
      obtain ⟨zeros, hzeros⟩ := ih hrest hall.2
      have hnumber : number ('0' :: rest) = number rest := number_zeros_append 1 rest
      refine ⟨zeros + 1, ?_⟩
      rw [hnumber, List.replicate_succ, List.cons_append, ← hzeros]
    · -- There is nothing to leave out, since the first digit is no zero or stands alone.
      have hnumeral : IsNumeral (c :: rest) := by
        refine ⟨hne, List.all_eq_true.1 hall, ?_⟩
        intro hhead
        rw [List.head?_cons, Option.some.injEq] at hhead
        subst hhead
        have hrest : rest = [] := Classical.not_not.1 fun hrest => hzero ⟨rfl, hrest⟩
        rw [hrest]
      refine ⟨0, ?_⟩
      rw [← ofDigitChars_eq_number, hnumeral.toDigits_ofDigitChars]
      rfl

/-- The texts of a number are its decimal with any number of zeros in front. -/
theorem denotes_iff {text : String} {n : Nat} :
    Denotes text n ↔ ∃ zeros, text.toList = List.replicate zeros '0' ++ Nat.toDigits 10 n := by
  rw [denotes_iff_all]
  constructor
  · rintro ⟨hne, hall, rfl⟩
    exact exists_eq_zeros_append hne hall
  · rintro ⟨zeros, hzeros⟩
    rw [hzeros]
    refine ⟨List.append_ne_nil_of_right_ne_nil _ Nat.toDigits_ne_nil, ?_, ?_⟩
    · rw [List.all_append, Bool.and_eq_true, List.all_eq_true, List.all_eq_true]
      refine ⟨?_, (isNumeral_toDigits n).isDigit⟩
      intro c hc
      rw [List.eq_of_mem_replicate hc]
      rfl
    · rw [number_zeros_append, number_toDigits]

/-! ## Integers -/

/-- The text is the canonical decimal of an integer. -/
def Spells (text : String) (z : Int) : Prop :=
  ∃ digits, IsNumeral digits ∧ Nat.ofDigitChars 10 digits 0 = z.natAbs ∧
    text.toList = if z < 0 then '-' :: digits else digits

theorem toList_toString (z : Int) :
    (toString z).toList = if z < 0 then '-' :: Nat.toDigits 10 z.natAbs else Nat.toDigits 10 z.natAbs := by
  cases z with
  | ofNat n =>
    show (toString n).toList = _
    simp
  | negSucc n =>
    show ("-" ++ toString (n + 1)).toList = _
    simp [Int.negSucc_lt_zero]

/-- **The canonical decimal of an integer is the text under which it is written.** -/
theorem spells_iff {text : String} {z : Int} : Spells text z ↔ text = toString z := by
  constructor
  · rintro ⟨digits, hdigits, hvalue, htext⟩
    apply String.toList_inj.1
    rw [toList_toString, htext, ← hvalue, hdigits.toDigits_ofDigitChars]
  · rintro rfl
    exact ⟨_, isNumeral_toDigits z.natAbs, Nat.ofDigitChars_ten_toDigits, toList_toString z⟩

/-- There is no minus before a zero. -/
theorem Spells.take_two_ne {text : String} {z : Int} (h : Spells text z) : text.toList.take 2 ≠ ['-', '0'] := by
  obtain ⟨digits, hdigits, hvalue, htext⟩ := h
  rw [htext]
  intro htake
  split at htake
  · next hneg =>
    obtain ⟨c, rest, rfl⟩ := List.exists_cons_of_ne_nil hdigits.ne_nil
    simp only [List.take_succ_cons, List.take_zero, List.cons.injEq, and_true, true_and] at htake
    subst htake
    have hzero := hdigits.leading rfl
    rw [hzero] at hvalue
    have hnone : Nat.ofDigitChars 10 ['0'] 0 = 0 := rfl
    omega
  · have hmem : '-' ∈ digits := by
      apply List.mem_of_mem_take
      rw [htake]
      simp
    have hdigit := hdigits.isDigit '-' hmem
    simp at hdigit

end Invoicing.Decimal
