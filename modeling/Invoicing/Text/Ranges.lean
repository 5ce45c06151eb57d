set_option autoImplicit false

/-! # Ranges of characters

Properties of characters are given by the ranges of code points that have them, in increasing order. -/

namespace Invoicing.CharRange

/-- Is a code point in one of the ranges? The search ends at the first range that starts above it. -/
def contains : List (Nat × Nat) → Nat → Bool
  | [], _ => false
  | (first, last) :: rest, n => first ≤ n && (n ≤ last || contains rest n)

end Invoicing.CharRange
