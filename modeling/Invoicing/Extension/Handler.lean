import Invoicing.Extension.Network

set_option autoImplicit false

/-! # Handlers

A handler makes the next state of an extension from an action. It first looks at the values that the action
brings, and then at the state, the parties and the signer. A value that is given stays; there is no second one. -/

namespace Invoicing

/-- An action on its way into a request. -/
structure Submission where
  action : ExtensionAction
  request : Request
  signer : Identity
  timestamp : Timestamp

namespace Submission

def parameters (s : Submission) : PaymentValues := s.action.parameters

end Submission

namespace PaymentValues

/-! ## Checks of values -/

/-- Refuses a missing or malformed address. -/
def checkAddress (value : Option String) (field : ValueField) : Except ExtensionError Unit :=
  if value.any Address.isValid then .ok () else .error (.invalidAddress field)

/-- Refuses a malformed address. -/
def checkOptionalAddress (value : Option String) (field : ValueField) : Except ExtensionError Unit :=
  if value.all Address.isValid then .ok () else .error (.invalidAddress field)

/-- Refuses a missing or malformed amount. -/
def checkAmount (value : Option String) (field : ValueField) : Except ExtensionError Unit :=
  if value.any Amount.isValidText then .ok () else .error (.invalidAmount field)

/-- Refuses a malformed amount. -/
def checkOptionalAmount (value : Option String) (field : ValueField) : Except ExtensionError Unit :=
  if value.all Amount.isValidText then .ok () else .error (.invalidAmount field)

end PaymentValues

open PaymentValues

/-- What to do with an action. -/
inductive Handler where
  | create (network : PaymentNetwork) (version : String)
  | addPaymentAddress
  | addRefundAddress
  | addFee
deriving DecidableEq, Repr

namespace Handler

/-! ## Preconditions -/

def requireState (current : Option ExtensionState) : Except ExtensionError ExtensionState :=
  match current with
  | some state => .ok state
  | none => .error .uncreated

/-- The party's identity in a request. -/
def partyOf (request : Request) : Party → Option Identity
  | .payee => request.payee
  | .payer => request.payer

/-- Refuses an action that the party did not sign. -/
def requireSigner (party : Party) (s : Submission) : Except ExtensionError Unit :=
  match partyOf s.request party with
  | none => .error (.missingParty party)
  | some identity => if identity.isSame s.signer then .ok () else .error (.wrongSigner party)

/-- Refuses a value that is there already. -/
def requireAbsent (given : Bool) (field : ValueField) : Except ExtensionError Unit :=
  if given then .error (.alreadyGiven field) else .ok ()

/-- The state with new values and the event of an action in its log. -/
def record (state : ExtensionState) (s : Submission) (values logged : PaymentValues) :
    ExtensionState :=
  { state with values, events := state.events ++ [⟨s.action.action, logged, s.timestamp⟩] }

/-! ## The handlers -/

def applyCreate (network : PaymentNetwork) (version : String) (current : Option ExtensionState)
    (s : Submission) : Except ExtensionError ExtensionState := do
  if current.isSome then throw .alreadyCreated
  network.check s.parameters s.request
  checkOptionalAddress s.parameters.paymentAddress .paymentAddress
  checkOptionalAddress s.parameters.refundAddress .refundAddress
  checkOptionalAddress s.parameters.feeAddress .feeAddress
  checkOptionalAmount s.parameters.feeAmount .feeAmount
  return {
    id := s.action.id
    family := .paymentNetwork
    version := s.action.version.getD version
    values := s.parameters
    events := [] }

def applyPaymentAddress (current : Option ExtensionState) (s : Submission) :
    Except ExtensionError ExtensionState := do
  let address := s.parameters.paymentAddress
  checkAddress address .paymentAddress
  let state ← requireState current
  requireSigner .payee s
  requireAbsent state.values.paymentAddress.isSome .paymentAddress
  return record state s { state.values with paymentAddress := address }
    { PaymentValues.empty with paymentAddress := address }

def applyRefundAddress (current : Option ExtensionState) (s : Submission) :
    Except ExtensionError ExtensionState := do
  let address := s.parameters.refundAddress
  checkAddress address .refundAddress
  let state ← requireState current
  requireSigner .payer s
  requireAbsent state.values.refundAddress.isSome .refundAddress
  return record state s { state.values with refundAddress := address }
    { PaymentValues.empty with refundAddress := address }

def applyFee (current : Option ExtensionState) (s : Submission) :
    Except ExtensionError ExtensionState := do
  let address := s.parameters.feeAddress
  let amount := s.parameters.feeAmount
  checkAddress address .feeAddress
  checkAmount amount .feeAmount
  let state ← requireState current
  requireSigner .payee s
  requireAbsent (state.values.feeAddress.isSome || state.values.feeAmount.isSome) .feeAddress
  return record state s { state.values with feeAddress := address, feeAmount := amount }
    { PaymentValues.empty with feeAddress := address, feeAmount := amount }

/-- The next state of an extension. -/
def apply (h : Handler) (current : Option ExtensionState) (s : Submission) :
    Except ExtensionError ExtensionState :=
  match h with
  | create network version => applyCreate network version current s
  | addPaymentAddress => applyPaymentAddress current s
  | addRefundAddress => applyRefundAddress current s
  | addFee => applyFee current s

end Handler

end Invoicing
