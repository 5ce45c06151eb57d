import Invoicing.Keccak
import Invoicing.Ledger.Log
import Invoicing.Ledger.Word

set_option autoImplicit false

/-! # The logs of a payment

A payment through the conversion proxy leaves two logs in one transaction: what was asked for, in the currency of the
request, and what was transferred, in a token. Each is told by the digest of its signature. -/

namespace Invoicing

/-- The topic by which logs of a signature are told. -/
def signatureTopic (signature : String) : Hash := Keccak.digestText signature

/-- What a payment was asked for. -/
structure Conversion where
  amount : Amount
  currency : Address
  feeAmount : Amount
  maxRateTimespan : Amount
deriving DecidableEq

namespace Conversion

def name : String := "TransferWithConversionAndReference"

def signature : String := "TransferWithConversionAndReference(uint256,address,bytes,uint256,uint256)"

def topic : Hash := signatureTopic signature

/-- The four words of the log's data. -/
def encode (c : Conversion) : List UInt8 :=
  Word.ofAmount c.amount ++ Word.ofAddress c.currency ++ Word.ofAmount c.feeAmount ++
    Word.ofAmount c.maxRateTimespan

/-- Reads the first four words of a log's data. -/
def decode? (data : List UInt8) : Option Conversion := do
  let (amount, rest) ← Word.amount? data
  let (currency, rest) ← Word.address? rest
  let (feeAmount, rest) ← Word.amount? rest
  let (maxRateTimespan, _) ← Word.amount? rest
  return { amount, currency, feeAmount, maxRateTimespan }

end Conversion

/-- What a payment transferred. -/
structure Transfer where
  recipient : Address
  amount : Amount
  feeAmount : Amount
  feeAddress : Address
deriving DecidableEq

namespace Transfer

def name : String := "TransferWithReferenceAndFee"

def signature : String := "TransferWithReferenceAndFee(address,uint256,bytes,uint256,address)"

def topic : Hash := signatureTopic signature

/-- The four words of the log's data. -/
def encode (t : Transfer) : List UInt8 :=
  Word.ofAddress t.recipient ++ Word.ofAmount t.amount ++ Word.ofAmount t.feeAmount ++
    Word.ofAddress t.feeAddress

/-- Reads the first four words of a log's data. -/
def decode? (data : List UInt8) : Option Transfer := do
  let (recipient, rest) ← Word.address? data
  let (amount, rest) ← Word.amount? rest
  let (feeAmount, rest) ← Word.amount? rest
  let (feeAddress, _) ← Word.address? rest
  return { recipient, amount, feeAmount, feeAddress }

end Transfer

end Invoicing
