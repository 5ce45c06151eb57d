import Invoicing.Keccak
import Invoicing.Text.Hex

set_option autoImplicit false

/-! # Content hashes

Channel ids, topics and storage locations are digests with a format mark: `01` for Keccak-256, then 64 lowercase
digits. -/

namespace Invoicing.ContentHash

/-- The mark and the digest of a byte string. -/
def ofBytes (bytes : List UInt8) : String :=
  String.ofList ('0' :: '1' :: Hex.encode (Keccak.digest bytes).bytes)

/-- The hash of a text's bytes. -/
def ofText (s : String) : String := ofBytes (Utf8.encode s)

/-- Is the text a mark and 64 lowercase digits? -/
def isWellFormed (s : String) : Bool :=
  match s.toList with
  | '0' :: '1' :: digits => digits.length == 64 && digits.all Hex.isLowerDigit
  | _ => false

theorem isWellFormed_ofBytes (bytes : List UInt8) : isWellFormed (ofBytes bytes) = true := by
  have hall : (Hex.encode (Keccak.digest bytes).bytes).all Hex.isLowerDigit = true :=
    List.all_eq_true.2 fun _ h => Hex.isLowerDigit_of_mem_encode h
  simp [isWellFormed, ofBytes, hall, (Keccak.digest bytes).length_eq]

end Invoicing.ContentHash
