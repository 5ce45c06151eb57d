import Invoicing.Power

set_option autoImplicit false

/-! # Binary fractions of 53 bits

The non-negative numbers `mantissa * 2 ^ exponent` with a mantissa of at most 53 bits, as exact
fractions. A quotient is rounded to the nearest of them, a tie to the even mantissa (`ofRatio?`), and
products and quotients are rounded once. -/

namespace Invoicing.Decimal

/-- The number `mantissa * 2 ^ exponent`. -/
structure Binary64 where
  mantissa : Nat
  exponent : Int
deriving DecidableEq, Repr

namespace Binary64

/-- The exponent of the smallest positive number. -/
def minExponent : Int := -1074

/-- The exponent above which numbers are too large. -/
def maxExponent : Int := 971

def zero : Binary64 := ⟨0, minExponent⟩

/-- The numerator of the exact value. -/
def num (x : Binary64) : Nat := x.mantissa * 2 ^ x.exponent.toNat

/-- The denominator of the exact value. -/
def den (x : Binary64) : Nat := 2 ^ (-x.exponent).toNat

/-- The quotient of two numbers, rounded to the nearest whole number, a tie to the even one. -/
def roundDiv (n d : Nat) : Nat :=
  let q := n / d
  let r := n % d
  if d < 2 * r ∨ (2 * r = d ∧ q % 2 = 1) then q + 1 else q

/-- The exponent for which `n / d` has a mantissa of 53 bits, or the smallest exponent. -/
def exponentOf (n d : Nat) : Int :=
  let guess : Int := (n.log2 : Int) - d.log2 - 52
  let tight := if n * 2 ^ (-guess).toNat < d * 2 ^ guess.toNat * 2 ^ 52 then guess - 1 else guess
  max tight minExponent

/-- The nearest number to `n / d`, unless that is too large. -/
def ofRatio? (n d : Nat) : Option Binary64 :=
  if n = 0 then some zero
  else
    let e := exponentOf n d
    let m := roundDiv (n * 2 ^ (-e).toNat) (d * 2 ^ e.toNat)
    let x : Binary64 := if m = 2 ^ 53 then ⟨2 ^ 52, e + 1⟩ else ⟨m, e⟩
    if x.exponent ≤ maxExponent then some x else none

def mul? (x y : Binary64) : Option Binary64 := ofRatio? (x.num * y.num) (x.den * y.den)

def div? (x y : Binary64) : Option Binary64 := ofRatio? (x.num * y.den) (x.den * y.num)

/-- The largest power of ten that scales in one step. -/
def maxPower : Nat := 308

/-- `x` times a power of ten, which is rounded first. Powers below the smallest are reached in several
steps, each of them rounded; three of them bring every whole number of 64 bits to zero. -/
def scale? : Nat → Binary64 → Int → Option Binary64
  | 0, _, _ => some zero
  | steps + 1, x, e =>
    if x.mantissa = 0 then some zero
    else if 0 ≤ e then
      if e ≤ maxPower then (ofRatio? (10 ^ e.toNat) 1).bind x.mul? else none
    else if -e ≤ maxPower then (ofRatio? (10 ^ (-e).toNat) 1).bind x.div?
    else do
      let smaller ← (ofRatio? (10 ^ maxPower) 1).bind x.div?
      scale? steps smaller (e + maxPower)

/-- `significand * 10 ^ e`: the significand is rounded, then scaled. -/
def ofDecimal? (significand : Nat) (e : Int) : Option Binary64 :=
  (ofRatio? significand 1).bind fun x => scale? 4 x e

end Binary64

end Invoicing.Decimal
