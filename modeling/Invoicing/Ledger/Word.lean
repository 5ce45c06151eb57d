import Invoicing.Amount
import Invoicing.Octets

set_option autoImplicit false

/-! # Words of log data

The data of a log is a row of words of 32 bytes, highest byte first. An address fills the low bytes of its word, and
the others are zero. -/

namespace Invoicing.Word

/-- Bytes per word. -/
def size : Nat := 32

/-- The zero bytes before an address. -/
def padding : List UInt8 := List.replicate 12 0

def ofAmount (a : Amount) : List UInt8 := Bytes.ofNatBE size a.value

def ofAddress (a : Address) : List UInt8 := padding ++ a.bytes

theorem amount_lt {bs : List UInt8} (h : size ≤ bs.length) :
    Bytes.toNatBE (bs.take size) < 2 ^ 256 := by
  have hlt := Bytes.toNatBE_lt (bs.take size)
  rw [List.length_take, Nat.min_eq_left h] at hlt
  exact hlt

theorem address_length {bs : List UInt8} (h : size ≤ bs.length) :
    ((bs.take size).drop padding.length).length = 20 := by
  rw [List.length_drop, List.length_take, Nat.min_eq_left h]
  rfl

/-- The amount in the first word, and the bytes after it. -/
def amount? (bs : List UInt8) : Option (Amount × List UInt8) :=
  if h : size ≤ bs.length then
    some (⟨Bytes.toNatBE (bs.take size), amount_lt h⟩, bs.drop size)
  else none

/-- The address in the first word, and the bytes after it. -/
def address? (bs : List UInt8) : Option (Address × List UInt8) :=
  if h : size ≤ bs.length then
    if bs.take padding.length = padding then
      some (⟨(bs.take size).drop padding.length, address_length h⟩, bs.drop size)
    else none
  else none

end Invoicing.Word
