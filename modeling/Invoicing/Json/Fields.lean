import Invoicing.Json.Canonical

set_option autoImplicit false

/-! # Records in JSON

A record is written as an object of its fields, and read from such an object or from an array of the values in
declaration order. Unknown fields are skipped whatever they hold; a declared field may stand there only once. -/

namespace Invoicing

namespace Json

/-! ## Leaves and containers -/

/-- The leaf of a whole number. -/
def ofNat (n : Nat) : Json := number (Number.ofNat n)

/-- A whole number up to `max`. -/
def nat? (max : Nat) : Json → Option Nat
  | number lexeme => (Number.nat? lexeme).filter (· ≤ max)
  | _ => none

def ofUInt8 (n : UInt8) : Json := ofNat n.toNat

def uint8? (j : Json) : Option UInt8 := (j.nat? (2 ^ 8 - 1)).map Nat.toUInt8

def ofUInt32 (n : UInt32) : Json := ofNat n.toNat

def uint32? (j : Json) : Option UInt32 := (j.nat? (2 ^ 32 - 1)).map Nat.toUInt32

def ofUInt64 (n : UInt64) : Json := ofNat n.toNat

def uint64? (j : Json) : Option UInt64 := (j.nat? (2 ^ 64 - 1)).map Nat.toUInt64

/-- A value, or `null` in its place. -/
def ofOption {α : Type} (write : α → Json) : Option α → Json
  | none => null
  | some a => write a

def option? {α : Type} (read : Json → Option α) : Json → Option (Option α)
  | null => some none
  | j => (read j).map some

def ofList {α : Type} (write : α → Json) (as : List α) : Json := array (as.map write)

def list? {α : Type} (read : Json → Option α) : Json → Option (List α)
  | array elements => elements.mapM read
  | _ => none

def ofDict {α : Type} (write : α → Json) (d : Dict String α) : Json :=
  object (d.entries.map fun (key, a) => (Text.escape key.toList, write a))

/-- The members of an object, with their keys as text. -/
def members? : Json → Option (List (String × Json))
  | object members => members.mapM fun (key, v) => (text key).text?.map fun key => (key, v)
  | _ => none

/-- A map; of a repeated key the last value stays. -/
def dict? {α : Type} (read : Json → Option α) (j : Json) : Option (Dict String α) := do
  let members ← j.members?
  let entries ← members.mapM fun (key, v) => (read v).map fun a => (key, a)
  return Dict.ofList entries

/-! ## Variants -/

/-- A name alone or as the one key of an object, with the value that the object gives it. -/
def variant? : Json → Option (String × Option Json)
  | text body => (text body).text?.map fun name => (name, none)
  | object [(key, v)] => (text key).text?.map fun name => (name, some v)
  | _ => none

/-- The name of a variant without a value. -/
def name? (j : Json) : Option String :=
  match j.variant? with
  | some (name, none) => some name
  | some (name, some null) => some name
  | _ => none

/-! ## Fields -/

/-- The declared fields that are there, and whether the record was written as an array. -/
structure Fields where
  positional : Bool
  values : List (String × Json)

/-- The fields of a record with these names. -/
def fields? (names : List String) : Json → Option Fields
  | array elements =>
    if elements.length ≤ names.length then some ⟨true, names.zip elements⟩ else none
  | j => do
    let known := (← j.members?).filter fun (key, _) => names.contains key
    if (known.map Prod.fst).Nodup then some ⟨false, known⟩ else none

namespace Fields

variable {α : Type}

/-- A field that has to be there. -/
def required (fs : Fields) (name : String) (read : Json → Option α) : Option α :=
  (fs.values.lookup name).bind read

/-- A field that has a value even where it is absent. -/
def default (fs : Fields) (name : String) (read : Json → Option α) (absent : α) : Option α :=
  match fs.values.lookup name with
  | none => some absent
  | some j => read j

/-- A field that may be absent or `null`. -/
def optional (fs : Fields) (name : String) (read : Json → Option α) : Option (Option α) :=
  fs.default name (option? read) none

/-- A field that may be `null`, and absent only from an object. -/
def nullable (fs : Fields) (name : String) (read : Json → Option α) : Option (Option α) :=
  match fs.values.lookup name with
  | none => if fs.positional then none else some none
  | some j => option? read j

end Fields

/-- An object of the fields that have a value. -/
def ofFields (fields : List (String × Option Json)) : Json :=
  object (fields.filterMap fun (name, v) => v.map fun v => (Text.escape name.toList, v))

end Json

/-- A type with a written form, of which reading takes back every value. -/
class Wire (α : Type) where
  toJson : α → Json
  ofJson? : Json → Option α

export Wire (toJson)

namespace Wire

variable {α : Type} [Wire α]

/-- The text of a value. -/
def render (a : α) : String := (toJson a).render

/-- The value that a text spells. -/
def parse? (s : String) : Option α := (Json.parse? s).bind ofJson?

end Wire

instance : Wire String := ⟨Json.ofText, Json.text?⟩

instance : Wire UInt64 := ⟨Json.ofUInt64, Json.uint64?⟩

instance {α : Type} [Wire α] : Wire (List α) := ⟨Json.ofList toJson, Json.list? Wire.ofJson?⟩

instance {α : Type} [Wire α] : Wire (Dict String α) := ⟨Json.ofDict toJson, Json.dict? Wire.ofJson?⟩

end Invoicing
