import Invoicing.Detection.Error
import Invoicing.Keccak
import Invoicing.Text.LowerCase

set_option autoImplicit false

/-! # Payment references

A payment carries a short reference by which it is found again. It is made from the request, a salt that only the
parties know, and the destination, so payments to two addresses have different references. -/

namespace Invoicing.Reference

/-- Bytes of a reference. -/
def size : Nat := 8

/-- The end of the digest of request, salt and address in lower case. -/
def make (request salt address : String) : String :=
  let digest := Keccak.digestText (LowerCase.lower (request ++ salt ++ address))
  String.ofList (Hex.encode (digest.bytes.drop (32 - size)))

/-- The text without any `0x` at its start. -/
def dropMarks : List Char → List Char
  | '0' :: 'x' :: rest => dropMarks rest
  | cs => cs

/-- The topic of logs with a reference: the digest of its bytes. -/
def topic (reference : String) : Except DetectionError Hash :=
  match Hex.decode? (dropMarks reference.toList) with
  | some bytes => .ok (Keccak.digest bytes)
  | none => .error (.invalidReference reference)

end Invoicing.Reference
