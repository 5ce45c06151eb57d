import Invoicing.Currency
import Invoicing.Identity
import Invoicing.Time

set_option autoImplicit false

/-! # Requests and their extensions

A request asks one party for an amount in some currency. Extensions hold how it can be paid; each has an id, values and the
log of the actions that filled them in. -/

namespace Invoicing

/-- The values of a payment network, as an action brings them and as an extension holds them. -/
structure PaymentValues where
  paymentAddress : Option String
  refundAddress : Option String
  feeAddress : Option String
  feeAmount : Option String
  /-- Makes payment references hard to guess. -/
  salt : Option String
  network : Option String
  /-- The tokens in which the request may be paid. -/
  tokensAccepted : Option (List String)
  /-- The greatest age of a conversion rate, in seconds. -/
  maxRateTimespan : Option UInt64
deriving DecidableEq, Repr

namespace PaymentValues

def empty : PaymentValues := ⟨none, none, none, none, none, none, none, none⟩

instance : Wire PaymentValues where
  toJson v := .ofFields
    [("paymentAddress", v.paymentAddress.map toJson), ("refundAddress", v.refundAddress.map toJson),
     ("feeAddress", v.feeAddress.map toJson), ("feeAmount", v.feeAmount.map toJson),
     ("salt", v.salt.map toJson), ("network", v.network.map toJson),
     ("tokensAccepted", v.tokensAccepted.map toJson),
     ("maxRateTimespan", v.maxRateTimespan.map toJson)]
  ofJson? j := do
    let fields ← j.fields? ["paymentAddress", "refundAddress", "feeAddress", "feeAmount", "salt",
      "network", "tokensAccepted", "maxRateTimespan"]
    return {
      paymentAddress := ← fields.optional "paymentAddress" Wire.ofJson?
      refundAddress := ← fields.optional "refundAddress" Wire.ofJson?
      feeAddress := ← fields.optional "feeAddress" Wire.ofJson?
      feeAmount := ← fields.optional "feeAmount" Wire.ofJson?
      salt := ← fields.optional "salt" Wire.ofJson?
      network := ← fields.optional "network" Wire.ofJson?
      tokensAccepted := ← fields.optional "tokensAccepted" Wire.ofJson?
      maxRateTimespan := ← fields.optional "maxRateTimespan" Wire.ofJson? }

end PaymentValues

/-! ## Extensions -/

/-- The families of extensions. -/
inductive ExtensionFamily where
  | paymentNetwork
deriving DecidableEq, Repr

namespace ExtensionFamily

def name : ExtensionFamily → String
  | paymentNetwork => "payment-network"

def ofName? : String → Option ExtensionFamily
  | "payment-network" => some paymentNetwork
  | _ => none

instance : Wire ExtensionFamily := ⟨fun f => .ofText f.name, fun j => j.name?.bind ofName?⟩

end ExtensionFamily

/-- An entry of an extension's log. -/
structure ExtensionEvent where
  name : String
  parameters : PaymentValues
  timestamp : Timestamp
deriving DecidableEq, Repr

instance : Wire ExtensionEvent where
  toJson e := .ofFields
    [("name", toJson e.name), ("parameters", toJson e.parameters), ("timestamp", toJson e.timestamp)]
  ofJson? j := do
    let fields ← j.fields? ["name", "parameters", "timestamp"]
    return {
      name := ← fields.required "name" Wire.ofJson?
      parameters := ← fields.required "parameters" Wire.ofJson?
      timestamp := ← fields.required "timestamp" Wire.ofJson? }

/-- What a request knows of one extension. -/
structure ExtensionState where
  id : String
  family : ExtensionFamily
  version : String
  values : PaymentValues
  events : List ExtensionEvent
deriving DecidableEq, Repr

instance : Wire ExtensionState where
  toJson s := .ofFields
    [("id", toJson s.id), ("type", toJson s.family), ("version", toJson s.version),
     ("values", toJson s.values), ("events", toJson s.events)]
  ofJson? j := do
    let fields ← j.fields? ["id", "type", "version", "values", "events"]
    return {
      id := ← fields.required "id" Wire.ofJson?
      family := ← fields.required "type" Wire.ofJson?
      version := ← fields.required "version" Wire.ofJson?
      values := ← fields.required "values" Wire.ofJson?
      events := ← fields.required "events" Wire.ofJson? }

/-- The extensions of a request by their ids. -/
abbrev Extensions := Dict String ExtensionState

/-! ## Requests -/

/-- A request for payment. -/
structure Request where
  id : String
  currency : Currency
  payee : Option Identity
  payer : Option Identity
  expectedAmount : String
  extensions : Extensions
  timestamp : Timestamp
deriving DecidableEq

namespace Request

def extension? (r : Request) (id : String) : Option ExtensionState := r.extensions.get? id

instance : Wire Request where
  toJson r := .ofFields
    [("requestId", toJson r.id), ("currency", toJson r.currency), ("payee", r.payee.map toJson),
     ("payer", r.payer.map toJson), ("expectedAmount", toJson r.expectedAmount),
     ("extensions", toJson r.extensions), ("timestamp", toJson r.timestamp)]
  ofJson? j := do
    let fields ← j.fields? ["requestId", "currency", "payee", "payer", "expectedAmount",
      "extensions", "timestamp"]
    return {
      id := ← fields.required "requestId" Wire.ofJson?
      currency := ← fields.required "currency" Wire.ofJson?
      payee := ← fields.optional "payee" Wire.ofJson?
      payer := ← fields.optional "payer" Wire.ofJson?
      expectedAmount := ← fields.required "expectedAmount" Wire.ofJson?
      extensions := ← fields.default "extensions" Wire.ofJson? .empty
      timestamp := ← fields.required "timestamp" Wire.ofJson? }

end Request

end Invoicing
