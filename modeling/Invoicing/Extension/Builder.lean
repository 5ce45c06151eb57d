import Invoicing.Extension.Handler

set_option autoImplicit false

/-! # Building actions

Actions for a payment network, with the checks that can be made before there is a request. A creation gets
the current version; the other actions have none. -/

namespace Invoicing.PaymentNetwork

/-- Refuses an address that could not be used. -/
def checkUsable (value : Option String) (field : ValueField) : Except ExtensionError Unit :=
  if value.all Address.isValid then .ok () else .error (.unusableAddress field)

/-- The checks that creations of all networks share. -/
def checkCreation (parameters : PaymentValues) : Except ExtensionError Unit := do
  checkUsable parameters.paymentAddress .paymentAddress
  checkUsable parameters.refundAddress .refundAddress
  checkUsable parameters.feeAddress .feeAddress
  PaymentValues.checkOptionalAmount parameters.feeAmount .feeAmount

/-- An action that creates the network's extension. -/
def creation (network : PaymentNetwork) (parameters : PaymentValues) :
    Except ExtensionError ExtensionAction := do
  checkCreation parameters
  if network = .conversion then checkTokens parameters.tokensAccepted
  return { ExtensionAction.ofKind .create network.id parameters with version := some currentVersion }

/-- An action that gives the payment address. -/
def paymentAddressAction (network : PaymentNetwork) (address : String) :
    Except ExtensionError ExtensionAction := do
  checkUsable (some address) .paymentAddress
  return .ofKind .addPaymentAddress network.id
    { PaymentValues.empty with paymentAddress := some address }

/-- An action that gives the refund address. -/
def refundAddressAction (network : PaymentNetwork) (address : String) :
    Except ExtensionError ExtensionAction := do
  checkUsable (some address) .refundAddress
  return .ofKind .addRefundAddress network.id
    { PaymentValues.empty with refundAddress := some address }

/-- An action that gives the fee. -/
def feeAction (network : PaymentNetwork) (address amount : String) :
    Except ExtensionError ExtensionAction := do
  checkUsable (some address) .feeAddress
  PaymentValues.checkOptionalAmount (some amount) .feeAmount
  return .ofKind .addFee network.id
    { PaymentValues.empty with feeAddress := some address, feeAmount := some amount }

end Invoicing.PaymentNetwork
