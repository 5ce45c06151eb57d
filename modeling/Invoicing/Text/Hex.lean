import Invoicing.Bytes

set_option autoImplicit false

/-! # Hexadecimal text

Bytes are written with lowercase digits and read in either case, so reading inverts writing
(`decode?_encode`) and writing after reading only lowers the case. -/

namespace Invoicing.Hex

/-- The value of a digit of either case. -/
def value? (c : Char) : Option Nat :=
  if '0' ≤ c ∧ c ≤ '9' then some (c.toNat - 48)
  else if 'a' ≤ c ∧ c ≤ 'f' then some (c.toNat - 87)
  else if 'A' ≤ c ∧ c ≤ 'F' then some (c.toNat - 55)
  else none

def isDigit (c : Char) : Bool := (value? c).isSome

/-- A digit as the writer spells it: no uppercase letters. -/
def isLowerDigit (c : Char) : Bool := ('0' ≤ c && c ≤ '9') || ('a' ≤ c && c ≤ 'f')

/-- Two lowercase digits per byte. -/
def encode : List UInt8 → List Char
  | [] => []
  | b :: rest => Nat.digitChar (b.toNat / 16) :: Nat.digitChar (b.toNat % 16) :: encode rest

/-- Reads pairs of digits; a digit that stands alone is refused. -/
def decode? : List Char → Option (List UInt8)
  | [] => some []
  | [_] => none
  | hi :: lo :: rest => do
    let hi ← value? hi
    let lo ← value? lo
    let bytes ← decode? rest
    return UInt8.ofNat (16 * hi + lo) :: bytes

theorem value?_digitChar : ∀ n < 16, value? (Nat.digitChar n) = some n := by decide

theorem isLowerDigit_digitChar : ∀ n < 16, isLowerDigit (Nat.digitChar n) = true := by decide

@[simp] theorem decode?_encode (bs : List UInt8) : decode? (encode bs) = some bs := by
  induction bs with
  | nil => rfl
  | cons b rest ih =>
    have hb : b.toNat < 256 := b.toNat_lt
    have hi := value?_digitChar (b.toNat / 16) (by omega)
    have lo := value?_digitChar (b.toNat % 16) (by omega)
    have : 16 * (b.toNat / 16) + b.toNat % 16 = b.toNat := Nat.div_add_mod ..
    simp only [encode, decode?, hi, lo, ih, this, Option.bind_eq_bind, Option.bind_some,
      Option.pure_def, UInt8.ofNat_toNat]

@[simp] theorem length_encode (bs : List UInt8) : (encode bs).length = 2 * bs.length := by
  induction bs with
  | nil => rfl
  | cons b rest ih => simp [encode, ih]; omega

theorem isLowerDigit_of_mem_encode {bs : List UInt8} {c : Char} (h : c ∈ encode bs) :
    isLowerDigit c = true := by
  induction bs with
  | nil => simp [encode] at h
  | cons b rest ih =>
    have hb : b.toNat < 256 := b.toNat_lt
    simp only [encode, List.mem_cons] at h
    rcases h with rfl | rfl | h
    · exact isLowerDigit_digitChar _ (by omega)
    · exact isLowerDigit_digitChar _ (by omega)
    · exact ih h

end Invoicing.Hex
