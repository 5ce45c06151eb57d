import Invoicing.Detection.Event
import Invoicing.Extension.Error

set_option autoImplicit false

/-! # Errors of payment detection -/

namespace Invoicing

/-- Why payments cannot be detected. -/
inductive DetectionError where
  | missingExtension (id : String)
  | unsupportedNetwork (network : String)
  | missingValue (name : String)
  | missingTransfer (transaction : Hash)
  | malformedLog (event : String) (transaction : Hash)
  | invalidReference (reference : String)
  | invalidAmount (text : String)
  | ledger (reason : String)
  /-- The decimals of a currency are so many that their scale is no amount. -/
  | scaleTooLarge
  | extension (error : ExtensionError)
deriving DecidableEq

namespace DetectionError

def message : DetectionError → String
  | missingExtension id => s!"The request does not have the extension : {id}"
  | unsupportedNetwork network => s!"The network ({network}) is not supported by the conversion proxy"
  | missingValue name => s!"The extension has no {name}"
  | missingTransfer transaction => s!"proxy log not found in transaction {transaction.render}"
  | malformedLog event transaction => s!"malformed {event} log in transaction {transaction.render}"
  | invalidReference reference => s!"invalid payment reference: {reference}"
  | invalidAmount text => s!"invalid amount: {text}"
  | ledger reason => s!"ledger error: {reason}"
  | scaleTooLarge => "the scale of the currency does not fit an amount"
  | extension error => error.message

/-- The kind of failure that a balance reports. -/
def code : DetectionError → BalanceErrorCode
  | missingExtension _ => .wrongExtension
  | unsupportedNetwork _ => .networkNotSupported
  | _ => .unknown

def toBalanceError (e : DetectionError) : BalanceError := ⟨e.code, e.message⟩

end DetectionError

end Invoicing
