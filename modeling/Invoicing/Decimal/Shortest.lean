import Invoicing.Decimal.Binary64

set_option autoImplicit false

/-! # Shortest decimals

The decimal with the fewest digits among those that lie nearer to a binary fraction than to its
neighbours; of two with equally many digits, the nearer one. A bound of that interval belongs to it
when the mantissa is even. -/

namespace Invoicing.Decimal

/-- The number `digits * 10 ^ exponent`. -/
structure Scientific where
  digits : Nat
  exponent : Int
deriving DecidableEq, Repr

/-- The exponent of the highest decimal digit of `n / d`. -/
def leadingExponent (n d : Nat) : Int :=
  if d ≤ n then ((Nat.toDigits 10 (n / d)).length : Int) - 1
  else
    let r := (d + n - 1) / n
    0 - ((Nat.toDigits 10 (r - 1)).length : Int)

/-- Drops the zeros at the end. -/
def Scientific.trim : Nat → Scientific → Scientific
  | 0, s => s
  | fuel + 1, s =>
    if s.digits ≠ 0 ∧ s.digits % 10 = 0 then trim fuel ⟨s.digits / 10, s.exponent + 1⟩ else s

namespace Binary64

/-- Is `c * 10 ^ e` nearer to `x` than to its neighbours? All numbers are counted in quarters of the
last bit of `x`. -/
def isNearest (x : Binary64) (c : Nat) (e : Int) : Bool :=
  let scaled := c * 10 ^ e.toNat * 2 ^ (2 - x.exponent).toNat
  let unit := 10 ^ (-e).toNat * 2 ^ (x.exponent - 2).toNat
  let low := if x.mantissa = 2 ^ 52 ∧ minExponent < x.exponent then 4 * x.mantissa - 1
    else 4 * x.mantissa - 2
  let high := 4 * x.mantissa + 2
  if x.mantissa % 2 = 0 then low * unit ≤ scaled && scaled ≤ high * unit
  else low * unit < scaled && scaled < high * unit

/-- The nearest decimal with `count` digits that reads back, where there is one. -/
def withDigits? (x : Binary64) (count : Nat) : Option Scientific :=
  let e := leadingExponent x.num x.den - count + 1
  let n := x.num * 10 ^ (-e).toNat
  let d := x.den * 10 ^ e.toNat
  let below := n / d
  let nearer := Binary64.roundDiv n d
  let other := if nearer = below then below + 1 else below
  if x.isNearest nearer e then some ⟨nearer, e⟩
  else if x.isNearest other e then some ⟨other, e⟩
  else none

/-- The shortest decimal that reads back; seventeen digits always do. -/
def shortest (x : Binary64) : Scientific :=
  if x.mantissa = 0 then ⟨0, 0⟩
  else
    (((List.range 17).findSome? fun k => x.withDigits? (k + 1)).getD ⟨x.mantissa, 0⟩).trim 20

end Binary64

/-- A decimal in the notation of plain numbers: positional from `10 ^ -5` up to `10 ^ 16`, with a digit after
the point, and with an exponent outside that range, which always has its sign. -/
def Scientific.render (s : Scientific) : List Char :=
  let digits := Nat.toDigits 10 s.digits
  let point : Int := digits.length + s.exponent
  if s.digits = 0 then ['0', '.', '0']
  else if 0 ≤ s.exponent ∧ point ≤ 16 then
    digits ++ List.replicate s.exponent.toNat '0' ++ ['.', '0']
  else if 0 < point ∧ point ≤ 16 then
    digits.take point.toNat ++ '.' :: digits.drop point.toNat
  else if -5 < point ∧ point ≤ 0 then
    '0' :: '.' :: List.replicate (-point).toNat '0' ++ digits
  else
    let power := (if 0 < point then '+' else '-') :: Nat.toDigits 10 (point - 1).natAbs
    match digits with
    | [d] => d :: 'e' :: power
    | d :: rest => d :: '.' :: rest ++ 'e' :: power
    | [] => power

end Invoicing.Decimal
