import Invoicing.Detection.Search
import Invoicing.Detection.Sum
import Invoicing.Extension.Builder

set_option autoImplicit false

/-! # The balance of a request

A balance is what was paid less what was refunded, with all events in the order of time. Where the transfers come from
is a parameter (`balanceFrom`); the detector takes them from the ledger (`ledgerBalance`). A request that cannot
be searched for has a balance without numbers that says why. -/

namespace Invoicing

namespace Detector

/-- The network whose payments are detected. -/
def network : PaymentNetwork := .conversion

/-! ## Balances -/

variable {m : Type → Type} [Monad m]

/-- The transfers in one direction; none without a destination. -/
def directionBalance (source : String → Direction → ExceptT DetectionError m DirectionBalance)
    (destination : Option String) (direction : Direction) : ExceptT DetectionError m DirectionBalance :=
  match destination with
  | none => return ⟨"0", []⟩
  | some destination => source destination direction

/-- Payments and refunds as one balance, with the events in the order of time and payments before refunds of the same
second. -/
def combine (values : PaymentValues) (payments refunds : DirectionBalance) :
    Except DetectionError Balance := do
  let balance ← signedBalance payments.balance refunds.balance
  -- The sort is stable, so events of the same second keep their order.
  let events := (payments.events ++ refunds.events).mergeSort fun a b => a.timestamp ≤ b.timestamp
  let fees ← PaymentEvent.feeSum events values.feeAddress
  return ⟨some balance, some fees.render, events, none⟩

/-- The balance of a request whose extension is known to a source of transfers. -/
def compute (source : ExtensionState → String → Direction → ExceptT DetectionError m DirectionBalance)
    (request : Request) : ExceptT DetectionError m Balance := do
  match request.extension? network.id with
  | none => throw (.missingExtension network.id)
  | some extension =>
    let payments ← directionBalance (source extension) extension.values.paymentAddress .payment
    let refunds ← directionBalance (source extension) extension.values.refundAddress .refund
    MonadExcept.ofExcept (combine extension.values payments refunds)

/-- The balance of a request, or the reason why there is none. -/
def balanceFrom
    (source : ExtensionState → String → Direction → ExceptT DetectionError m DirectionBalance)
    (request : Request) : m Balance := do
  match (← (compute source request).run) with
  | .ok balance => return balance
  | .error e => return .failed e.toBalanceError

/-! ## Transfers on the ledger -/

/-- The search for the transfers of a request to a destination. -/
def search (config : DetectionConfig) (request : Request) (extension : ExtensionState)
    (destination : String) (direction : Direction) : Except DetectionError Search := do
  let values := extension.values
  match values.salt with
  | none => throw (.missingValue "salt")
  | some salt =>
    let chain := values.network.getD PaymentNetwork.defaultChain
    match config.deployment? chain with
    | none => throw (.unsupportedNetwork chain)
    | some proxy =>
      return {
        currency := .ofCurrency request.currency
        reference := Reference.make request.id salt destination
        proxy := proxy
        destination := destination
        direction := direction
        maxRateTimespan := values.maxRateTimespan.getD config.maxRateTimespan }

/-- The transfers of a request to a destination, and their sum. -/
def ledgerSource (config : DetectionConfig) (request : Request) (extension : ExtensionState)
    (destination : String) (direction : Direction) : LedgerM DirectionBalance := do
  let s ← MonadExcept.ofExcept (search config request extension destination direction)
  let events ← s.events
  let total ← MonadExcept.ofExcept (PaymentEvent.sum events)
  return ⟨total.render, events⟩

/-- The balance of a request on the ledger. -/
def ledgerBalance (config : DetectionConfig) (request : Request) : StateM Ledger Balance :=
  balanceFrom (ledgerSource config request) request

/-! ## Actions -/

/-- A creation for a request that is to be detected; without a salt it gets the fresh one. -/
def creation (freshSalt : String) (parameters : PaymentValues) :
    Except DetectionError ExtensionAction :=
  (network.creation { parameters with salt := some (parameters.salt.getD freshSalt) }).mapError
    .extension

def paymentAddressAction (address : String) : Except DetectionError ExtensionAction :=
  (network.paymentAddressAction address).mapError .extension

def refundAddressAction (address : String) : Except DetectionError ExtensionAction :=
  (network.refundAddressAction address).mapError .extension

def feeAction (address amount : String) : Except DetectionError ExtensionAction :=
  (network.feeAction address amount).mapError .extension

end Detector

end Invoicing
