import Invoicing.Currency

set_option autoImplicit false

/-! # Errors of extensions -/

namespace Invoicing

/-- A party whose signature an action needs. -/
inductive Party where
  | payee
  | payer
deriving DecidableEq, Repr

def Party.name : Party → String
  | payee => "payee"
  | payer => "payer"

/-- A value that can be given once. -/
inductive ValueField where
  | paymentAddress
  | refundAddress
  | feeAddress
  | feeAmount
deriving DecidableEq, Repr

namespace ValueField

def name : ValueField → String
  | paymentAddress => "paymentAddress"
  | refundAddress => "refundAddress"
  | feeAddress => "feeAddress"
  | feeAmount => "feeAmount"

/-- The field in plain words. -/
def label : ValueField → String
  | paymentAddress => "Payment address"
  | refundAddress => "Refund address"
  | feeAddress => "Fee address"
  | feeAmount => "Fee amount"

end ValueField

/-- Why an action cannot be built or applied. -/
inductive ExtensionError where
  | alreadyCreated
  | uncreated
  | unknownAction (name : String)
  | unknownExtension (id : String)
  | missingParty (party : Party)
  | wrongSigner (party : Party)
  | alreadyGiven (field : ValueField)
  /-- An address in an action that is applied. -/
  | invalidAddress (field : ValueField)
  /-- An address for an action that is built. -/
  | unusableAddress (field : ValueField)
  | invalidAmount (field : ValueField)
  | missingTokens
  | invalidTokens
  | unsupportedNetwork (network : String)
  | unsupportedCurrencyKind (kind : CurrencyKind)
  | unsupportedCurrency (value : String)
deriving DecidableEq, Repr

def ExtensionError.message : ExtensionError → String
  | alreadyCreated => "This extension has already been created"
  | uncreated => "The extension should be created before receiving any other action"
  | unknownAction name => s!"Unknown action: {name}"
  | unknownExtension id => s!"Unknown extension: {id}"
  | missingParty party => s!"The request must have a {party.name}"
  | wrongSigner party => s!"The signer must be the {party.name}"
  | alreadyGiven field => s!"{field.label} already given"
  | invalidAddress field => s!"{field.name} is not a valid address"
  | unusableAddress field => s!"{field.name} is not a valid ethereum address"
  | invalidAmount field => s!"{field.name} is not a valid amount"
  | missingTokens => "tokensAccepted is required"
  | invalidTokens => "tokensAccepted must contains only valid ethereum addresses"
  | unsupportedNetwork network =>
    s!"The network ({network}) is not supported for this payment network."
  | unsupportedCurrencyKind kind =>
    s!"The currency type ({kind.name}) of the request is not supported for this payment network."
  | unsupportedCurrency value =>
    s!"The currency ({value}) of the request is not supported for this payment network."

end Invoicing
