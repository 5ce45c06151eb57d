import Invoicing.Extension.Handler

set_option autoImplicit false

/-! # The registry

The registry says which handler an action on an extension goes to. An action that does not find one leaves all
extensions as they were, and one that does changes only the extension that it names. -/

namespace Invoicing

/-- The handlers of an extension, for the kinds of action that it knows. -/
abbrev HandlerTable := List (ActionKind × Handler)

/-- The handler tables of all extensions. -/
structure Registry where
  tables : Dict String HandlerTable

namespace Registry

def empty : Registry := ⟨.empty⟩

/-- Gives an action of an extension a handler, in place of the one that it had. -/
def register (r : Registry) (id : String) (kind : ActionKind) (handler : Handler) : Registry :=
  ⟨r.tables.insert id ((kind, handler) :: (r.tables.get? id).getD [])⟩

/-- Registers the four actions of a payment network. -/
def registerNetwork (r : Registry) (network : PaymentNetwork) : Registry :=
  r.register network.id .create (.create network PaymentNetwork.currentVersion)
    |>.register network.id .addPaymentAddress .addPaymentAddress
    |>.register network.id .addRefundAddress .addRefundAddress
    |>.register network.id .addFee .addFee

/-- The registry of the known payment networks. -/
def builtin : Registry := empty.registerNetwork .conversion |>.registerNetwork .token

def isRegistered (r : Registry) (id : String) : Bool := r.tables.contains id

/-- The registered extensions, in order. -/
def ids (r : Registry) : List String := r.tables.keys

/-- The handler for an action. -/
def handler (r : Registry) (action : ExtensionAction) : Except ExtensionError Handler :=
  match action.kind? with
  | none => .error (.unknownAction action.action)
  | some kind =>
    match r.tables.get? action.id with
    | none => .error (.unknownExtension action.id)
    | some table =>
      match table.lookup kind with
      | none => .error (.unknownAction action.action)
      | some handler => .ok handler

/-- The extensions after an action. -/
def apply (r : Registry) (extensions : Extensions) (s : Submission) :
    Except ExtensionError Extensions := do
  let current := extensions.get? s.action.id
  if current.isNone ∧ s.action.kind? ≠ some .create then throw .uncreated
  let handler ← r.handler s.action
  let next ← handler.apply current s
  return extensions.insert s.action.id next

end Registry

end Invoicing
