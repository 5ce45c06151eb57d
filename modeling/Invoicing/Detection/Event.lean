import Invoicing.Ledger.Log
import Invoicing.Time

set_option autoImplicit false

/-! # Payment events and balances

A payment event is one transfer that a request caused, with amounts as decimal text. A balance comes with the events it
was computed from, or with the reason why there is none. -/

namespace Invoicing

/-- The direction of a transfer. -/
inductive Direction where
  | payment
  | refund
deriving DecidableEq, Repr

namespace Direction

def name : Direction → String
  | payment => "payment"
  | refund => "refund"

def ofName? : String → Option Direction
  | "payment" => some payment
  | "refund" => some refund
  | _ => none

instance : Wire Direction := ⟨fun d => .ofText d.name, fun j => j.name?.bind ofName?⟩

end Direction

/-- What the ledger says of a transfer. -/
structure EventDetails where
  block : BlockNumber
  transaction : Hash
  /-- The destination for which the balance is asked. -/
  destination : String
  feeAddress : Option String
  /-- The fee in the currency of the request. -/
  feeAmount : Option String
  /-- What reached the destination, in the token that was paid. -/
  tokenAmount : Option String
  /-- What reached the fee address, in the token that was paid. -/
  tokenFee : Option String
  maxRateTimespan : Option String
deriving DecidableEq

instance : Wire EventDetails where
  toJson d := .ofFields
    [("block", toJson d.block), ("txHash", toJson d.transaction), ("to", toJson d.destination),
     ("feeAddress", d.feeAddress.map toJson), ("feeAmount", d.feeAmount.map toJson),
     ("amountInCrypto", d.tokenAmount.map toJson), ("feeAmountInCrypto", d.tokenFee.map toJson),
     ("maxRateTimespan", d.maxRateTimespan.map toJson)]
  ofJson? j := do
    let fields ← j.fields? ["block", "txHash", "to", "feeAddress", "feeAmount", "amountInCrypto",
      "feeAmountInCrypto", "maxRateTimespan"]
    return {
      block := ← fields.required "block" Wire.ofJson?
      transaction := ← fields.required "txHash" Wire.ofJson?
      destination := ← fields.required "to" Wire.ofJson?
      feeAddress := ← fields.optional "feeAddress" Wire.ofJson?
      feeAmount := ← fields.optional "feeAmount" Wire.ofJson?
      tokenAmount := ← fields.optional "amountInCrypto" Wire.ofJson?
      tokenFee := ← fields.optional "feeAmountInCrypto" Wire.ofJson?
      maxRateTimespan := ← fields.optional "maxRateTimespan" Wire.ofJson? }

/-- One transfer, with its amount in the currency of the request. -/
structure PaymentEvent where
  amount : String
  name : Direction
  details : EventDetails
  timestamp : Timestamp
deriving DecidableEq

instance : Wire PaymentEvent where
  toJson e := .ofFields
    [("amount", toJson e.amount), ("name", toJson e.name), ("parameters", toJson e.details),
     ("timestamp", toJson e.timestamp)]
  ofJson? j := do
    let fields ← j.fields? ["amount", "name", "parameters", "timestamp"]
    return {
      amount := ← fields.required "amount" Wire.ofJson?
      name := ← fields.required "name" Wire.ofJson?
      details := ← fields.required "parameters" Wire.ofJson?
      timestamp := ← fields.required "timestamp" Wire.ofJson? }

/-- The events of one direction and their sum. -/
structure DirectionBalance where
  balance : String
  events : List PaymentEvent
deriving DecidableEq

instance : Wire DirectionBalance where
  toJson b := .ofFields [("balance", toJson b.balance), ("events", toJson b.events)]
  ofJson? j := do
    let fields ← j.fields? ["balance", "events"]
    return {
      balance := ← fields.required "balance" Wire.ofJson?
      events := ← fields.required "events" Wire.ofJson? }

/-! ## Balances -/

/-- What kind of failure kept a balance from being computed. -/
inductive BalanceErrorCode where
  | unknown
  | wrongExtension
  | networkNotSupported
deriving DecidableEq, Repr

namespace BalanceErrorCode

def name : BalanceErrorCode → String
  | unknown => "UNKNOWN"
  | wrongExtension => "WRONG_EXTENSION"
  | networkNotSupported => "NETWORK_NOT_SUPPORTED"

def ofName? : String → Option BalanceErrorCode
  | "UNKNOWN" => some unknown
  | "WRONG_EXTENSION" => some wrongExtension
  | "NETWORK_NOT_SUPPORTED" => some networkNotSupported
  | _ => none

instance : Wire BalanceErrorCode := ⟨fun c => .ofText c.name, fun j => j.name?.bind ofName?⟩

end BalanceErrorCode

/-- Why there is no balance. -/
structure BalanceError where
  code : BalanceErrorCode
  message : String
deriving DecidableEq, Repr

instance : Wire BalanceError where
  toJson e := .ofFields [("code", toJson e.code), ("message", toJson e.message)]
  ofJson? j := do
    let fields ← j.fields? ["code", "message"]
    return {
      code := ← fields.required "code" Wire.ofJson?
      message := ← fields.required "message" Wire.ofJson? }

/-- The balance of a request and the events behind it, or an error instead. -/
structure Balance where
  balance : Option String
  feeBalance : Option String
  events : List PaymentEvent
  error : Option BalanceError
deriving DecidableEq

namespace Balance

/-- No balance, for a reason. -/
def failed (e : BalanceError) : Balance := ⟨none, none, [], some e⟩

instance : Wire Balance where
  toJson b := .ofFields
    [("balance", some (.ofOption toJson b.balance)), ("feeBalance", some (.ofOption toJson b.feeBalance)),
     ("events", some (toJson b.events)), ("error", some (.ofOption toJson b.error))]
  ofJson? j := do
    let fields ← j.fields? ["balance", "feeBalance", "events", "error"]
    return {
      balance := ← fields.nullable "balance" Wire.ofJson?
      feeBalance := ← fields.nullable "feeBalance" Wire.ofJson?
      events := ← fields.required "events" Wire.ofJson?
      error := ← fields.nullable "error" Wire.ofJson? }

end Balance

end Invoicing
