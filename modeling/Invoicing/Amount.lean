import Invoicing.Power

set_option autoImplicit false

/-! # Amounts

Whole numbers below `2 ^ 256`, read from and written as decimal digits. Sums and products that would not fit
stop at the largest amount. -/

namespace Invoicing

/-- A whole number of 256 bits. -/
@[ext] structure Amount where
  value : Nat
  value_lt : value < 2 ^ 256
deriving DecidableEq

namespace Amount

def zero : Amount := ⟨0, by decide⟩

instance : Inhabited Amount := ⟨zero⟩

/-- The largest amount. -/
def max : Amount := ⟨2 ^ 256 - 1, by decide⟩

/-- The amount, unless the number is too large for one. -/
def ofNat? (n : Nat) : Option Amount := if h : n < 2 ^ 256 then some ⟨n, h⟩ else none

/-- The number, or the largest amount if that is smaller. -/
def clamp (n : Nat) : Amount := ⟨min n (2 ^ 256 - 1), by omega⟩

/-- A power of ten, unless it is too large for an amount. -/
def tenTo? (n : Nat) : Option Amount := if n < 78 then ofNat? (10 ^ n) else none

/-- The amount that a nonempty string of digits spells. -/
def ofText? (s : String) : Option Amount :=
  if s.toList ≠ [] ∧ s.toList.all Char.isDigit then ofNat? (Nat.ofDigitChars 10 s.toList 0) else none

/-- Is the text an amount? -/
def isValidText (s : String) : Bool := (ofText? s).isSome

/-- The decimal digits, without leading zeros. -/
def render (a : Amount) : String := String.ofList (Nat.toDigits 10 a.value)

/-- The sum, at most the largest amount. -/
def add (a b : Amount) : Amount := clamp (a.value + b.value)

/-- The sum of a list, at most the largest amount. -/
def sum (as : List Amount) : Amount := as.foldl add zero

@[simp] theorem value_clamp (n : Nat) : (clamp n).value = min n (2 ^ 256 - 1) := rfl

/-- The bound on the exponent refuses nothing that would be an amount. -/
theorem tenTo?_eq (n : Nat) : tenTo? n = ofNat? (10 ^ n) := by
  unfold tenTo?
  split
  · rfl
  · next h =>
    have hle : 10 ^ 78 ≤ 10 ^ n := Nat.pow_le_pow_right (by decide) (Nat.le_of_not_lt h)
    have hlarge : ¬ 10 ^ n < 2 ^ 256 := fun hlt => absurd (Nat.lt_of_le_of_lt hle hlt) (by decide)
    rw [ofNat?, dif_neg hlarge]

@[simp] theorem ofText?_render (a : Amount) : ofText? a.render = some a := by
  have hall : ((render a).toList.all Char.isDigit) = true := by
    simp only [render, String.toList_ofList, List.all_eq_true]
    exact fun c h => Nat.isDigit_of_mem_toDigits (by decide) (by decide) h
  have hne : (render a).toList ≠ [] := by simp [render]
  rw [ofText?, if_pos ⟨hne, hall⟩, render, String.toList_ofList, Nat.ofDigitChars_ten_toDigits, ofNat?,
    dif_pos a.value_lt]

theorem render_injective {a b : Amount} (h : a.render = b.render) : a = b := by
  have htext := congrArg ofText? h
  rwa [ofText?_render, ofText?_render, Option.some.injEq] at htext

end Amount

end Invoicing
