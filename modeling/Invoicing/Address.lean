import Invoicing.Keccak
import Invoicing.Octets

set_option autoImplicit false

/-! # Addresses as text

An address is `0x` and forty digits. The case of its letters may carry a checksum: a letter is a capital when the
matching digit of the digest of the lowercase spelling is at least eight. An address in mixed case is valid only
with its checksum; one in a single case carries none and is valid as it is. -/

namespace Invoicing.Address

/-- The forty digits of an address. -/
def digits? (s : String) : Option (List Char) :=
  match s.toList with
  | '0' :: 'x' :: digits =>
    if digits.length = 40 ∧ digits.all Hex.isDigit then some digits else none
  | _ => none

/-- The digits of a digest, as numbers. -/
def nibbles : List UInt8 → List Nat
  | [] => []
  | b :: rest => b.toNat / 16 :: b.toNat % 16 :: nibbles rest

/-- The digits with the checksum in their case. -/
def checksumDigits (digits : List Char) : List Char :=
  let lower := digits.map Char.toLower
  let digest := Keccak.digestText (String.ofList lower)
  List.zipWith (fun c n => if 8 ≤ n then c.toUpper else c) lower (nibbles digest.bytes)

/-- The spelling that carries the checksum. -/
def checksum? (s : String) : Option String :=
  (digits? s).map fun digits => String.ofList ('0' :: 'x' :: checksumDigits digits)

/-- Are both cases among the letters? -/
def isMixedCase (digits : List Char) : Bool := digits.any Char.isLower && digits.any Char.isUpper

/-- Is the text an address, with its checksum where the case is mixed? -/
def isValid (s : String) : Bool :=
  match digits? s with
  | none => false
  | some digits => !isMixedCase digits || checksum? s == some s

/-- Do two texts differ at most in the case of letters? -/
def same (a b : String) : Bool := a.toList.map Char.toLower == b.toList.map Char.toLower

/-- The spelling of an account with the checksum. -/
def checksummed (a : Address) : String := (checksum? a.render).getD a.render

end Invoicing.Address
