import Invoicing.Extension.State

set_option autoImplicit false

/-! # Actions

An action names an extension, what to do with it and the values to do it with. The name is kept as it
comes, so that an unknown one can be reported. -/

namespace Invoicing

inductive ActionKind where
  | create
  | addPaymentAddress
  | addRefundAddress
  | addFee
deriving DecidableEq, Repr

namespace ActionKind

def name : ActionKind → String
  | create => "create"
  | addPaymentAddress => "addPaymentAddress"
  | addRefundAddress => "addRefundAddress"
  | addFee => "addFee"

def ofName? : String → Option ActionKind
  | "create" => some create
  | "addPaymentAddress" => some addPaymentAddress
  | "addRefundAddress" => some addRefundAddress
  | "addFee" => some addFee
  | _ => none

@[simp] theorem ofName?_name (k : ActionKind) : ofName? k.name = some k := by cases k <;> rfl

/-- All kinds, in the order in which they are listed. -/
def all : List ActionKind := [create, addPaymentAddress, addRefundAddress, addFee]

end ActionKind

/-- An action on one extension. -/
structure ExtensionAction where
  action : String
  id : String
  parameters : PaymentValues
  version : Option String
deriving DecidableEq, Repr

namespace ExtensionAction

/-- What the action does, unless its name is unknown. -/
def kind? (a : ExtensionAction) : Option ActionKind := ActionKind.ofName? a.action

/-- An action without a version. -/
def ofKind (kind : ActionKind) (id : String) (parameters : PaymentValues) : ExtensionAction :=
  ⟨kind.name, id, parameters, none⟩

instance : Wire ExtensionAction where
  toJson a := .ofFields
    [("action", toJson a.action), ("id", toJson a.id), ("parameters", toJson a.parameters),
     ("version", a.version.map toJson)]
  ofJson? j := do
    let fields ← j.fields? ["action", "id", "parameters", "version"]
    return {
      action := ← fields.required "action" Wire.ofJson?
      id := ← fields.required "id" Wire.ofJson?
      parameters := ← fields.required "parameters" Wire.ofJson?
      version := ← fields.optional "version" Wire.ofJson? }

end ExtensionAction

end Invoicing
