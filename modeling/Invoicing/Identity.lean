import Invoicing.Address

set_option autoImplicit false

/-! # Identities

A party of a request: an account or a contract, named by its address. Addresses have several spellings, so
being the same party (`Identity.isSame`) is coarser than equality. -/

namespace Invoicing

inductive IdentityKind where
  | account
  | contract
deriving DecidableEq, Repr

namespace IdentityKind

def name : IdentityKind → String
  | account => "ethereumAddress"
  | contract => "ethereumSmartContract"

def ofName? : String → Option IdentityKind
  | "ethereumAddress" => some account
  | "ethereumSmartContract" => some contract
  | _ => none

instance : Wire IdentityKind := ⟨fun k => .ofText k.name, fun j => j.name?.bind ofName?⟩

end IdentityKind

/-- A party of a request. -/
structure Identity where
  kind : IdentityKind
  value : String
deriving DecidableEq, Repr

namespace Identity

/-- The same party: of one kind, with addresses that differ at most in case. -/
def isSame (a b : Identity) : Bool := a.kind == b.kind && Address.same a.value b.value

instance : Wire Identity where
  toJson a := .ofFields [("type", toJson a.kind), ("value", toJson a.value)]
  ofJson? j := do
    let fields ← j.fields? ["type", "value"]
    return {
      kind := ← fields.required "type" Wire.ofJson?
      value := ← fields.required "value" Wire.ofJson? }

end Identity

end Invoicing
