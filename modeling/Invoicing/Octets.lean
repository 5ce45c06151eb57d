import Invoicing.Bytes
import Invoicing.Json.Fields

set_option autoImplicit false

/-! # Fixed-length bytes as text

Addresses and hashes are written as `0x` and lowercase digits. -/

namespace Invoicing

/-- An account or contract of the ledger. -/
abbrev Address := Octets 20

/-- A digest, such as a transaction hash or a topic of a log. -/
abbrev Hash := Octets 32

namespace Hex

/-- The text without one leading `0x`. -/
def dropMark : List Char → List Char
  | '0' :: 'x' :: rest => rest
  | cs => cs

/-- Pairs of digits; a last one that stands alone is dropped. -/
def pairs : List Char → List UInt8
  | hi :: lo :: rest => UInt8.ofNat (16 * (value? hi).getD 0 + (value? lo).getD 0) :: pairs rest
  | _ => []

end Hex

namespace Octets

variable {n : Nat}

/-- `0x` and two lowercase digits per byte. -/
def render (a : Octets n) : String := String.ofList ('0' :: 'x' :: Hex.encode a.bytes)

/-- Reads `2 * n` characters with or without `0x` before them. Blanks among them are skipped, and bytes that
this leaves out are zero at the end. -/
def ofText? (s : String) : Option (Octets n) :=
  let body := Hex.dropMark s.toList
  if body.length = 2 * n ∧ body.all (fun c => Hex.isDigit c || Json.Token.isBlank c) then
    let bytes := Hex.pairs (body.filter Hex.isDigit)
    ofList? (bytes ++ List.replicate (n - bytes.length) 0)
  else none

instance : Wire (Octets n) where
  toJson a := Json.ofText a.render
  ofJson? j := j.text?.bind ofText?

end Octets

end Invoicing
