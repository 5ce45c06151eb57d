import Invoicing.Power

set_option autoImplicit false

/-! # Bytes

Numbers as byte strings of a fixed width in both byte orders, and byte strings of a fixed length.
The two directions are inverse to each other: `toNatLE_ofNatLE` needs the number to fit the width,
`ofNatLE_toNatLE` needs nothing. -/

namespace Invoicing

namespace Bytes

/-! ## Numbers, lowest byte first -/

/-- The `width` lowest bytes of a number, lowest first. -/
def ofNatLE : Nat → Nat → List UInt8
  | 0, _ => []
  | width + 1, n => UInt8.ofNat n :: ofNatLE width (n / 256)

/-- The number that bytes spell, lowest first. -/
def toNatLE : List UInt8 → Nat
  | [] => 0
  | b :: rest => b.toNat + 256 * toNatLE rest

@[simp] theorem length_ofNatLE (width n : Nat) : (ofNatLE width n).length = width := by
  induction width generalizing n with
  | zero => rfl
  | succ width ih => simp [ofNatLE, ih]

theorem toNatLE_ofNatLE {width n : Nat} (h : n < 256 ^ width) : toNatLE (ofNatLE width n) = n := by
  induction width generalizing n with
  | zero => simp at h; simp [ofNatLE, toNatLE, h]
  | succ width ih =>
    have : n / 256 < 256 ^ width := by
      rw [Nat.div_lt_iff_lt_mul (by decide)]
      simpa [Nat.pow_succ] using h
    simp only [ofNatLE, toNatLE, ih this, UInt8.toNat_ofNat']
    omega

theorem ofNatLE_toNatLE (bs : List UInt8) : ofNatLE bs.length (toNatLE bs) = bs := by
  induction bs with
  | nil => rfl
  | cons b rest ih =>
    have hb : b.toNat < 256 := b.toNat_lt
    have hdiv : (b.toNat + 256 * toNatLE rest) / 256 = toNatLE rest := by omega
    have hmod : UInt8.ofNat (b.toNat + 256 * toNatLE rest) = b := by
      apply UInt8.toNat_inj.1
      rw [UInt8.toNat_ofNat']
      omega
    simp [ofNatLE, toNatLE, hdiv, hmod, ih]

theorem toNatLE_lt (bs : List UInt8) : toNatLE bs < 256 ^ bs.length := by
  induction bs with
  | nil => simp [toNatLE]
  | cons b rest ih =>
    have hb : b.toNat < 256 := b.toNat_lt
    rw [toNatLE, List.length_cons, Nat.pow_succ]
    omega

/-! ## Numbers, highest byte first -/

/-- The `width` lowest bytes of a number, highest first. -/
def ofNatBE (width n : Nat) : List UInt8 := (ofNatLE width n).reverse

/-- The number that bytes spell, highest first. -/
def toNatBE (bs : List UInt8) : Nat := toNatLE bs.reverse

@[simp] theorem length_ofNatBE (width n : Nat) : (ofNatBE width n).length = width := by
  simp [ofNatBE]

theorem toNatBE_ofNatBE {width n : Nat} (h : n < 256 ^ width) : toNatBE (ofNatBE width n) = n := by
  simp [toNatBE, ofNatBE, toNatLE_ofNatLE h]

theorem ofNatBE_toNatBE (bs : List UInt8) : ofNatBE bs.length (toNatBE bs) = bs := by
  rw [ofNatBE, toNatBE, ← List.length_reverse, ofNatLE_toNatLE, List.reverse_reverse]

theorem toNatBE_lt (bs : List UInt8) : toNatBE bs < 256 ^ bs.length := by
  simpa [toNatBE] using toNatLE_lt bs.reverse

end Bytes

/-! ## Byte strings of a fixed length -/

/-- A byte string of length `n`. -/
@[ext] structure Octets (n : Nat) where
  bytes : List UInt8
  length_eq : bytes.length = n

namespace Octets

variable {n : Nat}

instance : DecidableEq (Octets n) := fun a b =>
  decidable_of_iff (a.bytes = b.bytes) ⟨Octets.ext, fun h => h ▸ rfl⟩

def ofList? (bs : List UInt8) : Option (Octets n) :=
  if h : bs.length = n then some ⟨bs, h⟩ else none

/-- The same byte `n` times. -/
def replicate (b : UInt8) : Octets n := ⟨List.replicate n b, List.length_replicate⟩

@[simp] theorem ofList?_bytes (a : Octets n) : ofList? a.bytes = some a := by
  simp [ofList?, a.length_eq]

end Octets

end Invoicing
