set_option autoImplicit false

/-! # Number lexemes

The grammar of numbers, and the whole numbers among them. A whole number has one spelling in the grammar, and
reading takes it back (`nat?_ofNat`). -/

namespace Invoicing.Json.Number

/-- The characters of which numbers consist. -/
def isPart (c : Char) : Bool := c.isDigit || c == '-' || c == '+' || c == '.' || c == 'e' || c == 'E'

/-! ## Grammar -/

/-- What follows the digits at the head, of which there has to be one. -/
def skipDigits? : List Char → Option (List Char)
  | c :: rest => if c.isDigit then some (rest.dropWhile Char.isDigit) else none
  | [] => none

/-- What follows the whole part: a zero alone, or digits that start with another one. -/
def skipWhole? : List Char → Option (List Char)
  | '0' :: rest => some rest
  | cs => skipDigits? cs

/-- What follows the fraction, where there is one. -/
def skipFraction? : List Char → Option (List Char)
  | '.' :: rest => skipDigits? rest
  | cs => some cs

/-- What follows the exponent, where there is one. -/
def skipExponent? : List Char → Option (List Char)
  | c :: rest =>
    if c = 'e' ∨ c = 'E' then
      match rest with
      | '+' :: digits => skipDigits? digits
      | '-' :: digits => skipDigits? digits
      | digits => skipDigits? digits
    else some (c :: rest)
  | [] => some []

def skipSign : List Char → List Char
  | '-' :: rest => rest
  | cs => cs

/-- A lexeme of the grammar: a sign, a whole part, a fraction and an exponent, of which only the
whole part has to be there. -/
def isLexeme (cs : List Char) : Bool :=
  ((skipWhole? (skipSign cs)).bind skipFraction?).bind skipExponent? == some []

/-! ## Whole numbers -/

/-- The lexeme of a whole number. -/
def ofNat (n : Nat) : List Char := Nat.toDigits 10 n

/-- The whole number that a lexeme of digits alone spells. -/
def nat? (cs : List Char) : Option Nat :=
  if cs ≠ [] ∧ cs.all Char.isDigit then some (Nat.ofDigitChars 10 cs 0) else none

theorem isDigit_of_mem_ofNat {n : Nat} {c : Char} (h : c ∈ ofNat n) : c.isDigit = true :=
  Nat.isDigit_of_mem_toDigits (by decide) (by decide) h

@[simp] theorem nat?_ofNat (n : Nat) : nat? (ofNat n) = some n := by
  have hne : ofNat n ≠ [] := by simp [ofNat]
  have hall : (ofNat n).all Char.isDigit = true :=
    List.all_eq_true.2 fun c h => isDigit_of_mem_ofNat h
  rw [nat?, if_pos ⟨hne, hall⟩, ofNat, Nat.ofDigitChars_ten_toDigits]

end Invoicing.Json.Number
