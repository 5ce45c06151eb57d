import Invoicing.Time

set_option autoImplicit false

/-! # Stored data

What the storage says about its blobs. The meta data of a blob has a timestamp and any other members, which
are kept as they come: nobody here interprets them. -/

namespace Invoicing

/-- The meta data of a stored blob. -/
structure StorageMeta where
  timestamp : Timestamp
  /-- All other members, each in the one form of its value. -/
  extra : Dict String Json

namespace StorageMeta

/-- Meta data with a timestamp alone. -/
def ofTimestamp (timestamp : Timestamp) : StorageMeta := ⟨timestamp, .empty⟩

instance : Inhabited StorageMeta := ⟨ofTimestamp 0⟩

def toJson (m : StorageMeta) : Json :=
  match Json.ofDict id m.extra with
  | .object members => .object (("timestamp".toList, Json.ofUInt64 m.timestamp) :: members)
  | j => j

/-- How many arrays and objects may be open at one place of a text. -/
def maxOpen : Nat := 127

/-- Reads an object that stands inside `outer` arrays and objects; only there is nesting limited, as
nothing else of what is read can nest freely. -/
def ofJson? (outer : Nat) (j : Json) : Option StorageMeta := do
  let .object _ := j | none
  let members ← j.members?
  let [timestamp] := (members.filter fun (key, _) => key == "timestamp").map Prod.snd | none
  let extra ← (members.filter fun (key, _) => key != "timestamp").mapM fun (key, v) =>
    (v.canonical? (maxOpen - (outer + 1))).map fun v => (key, v)
  return ⟨← timestamp.uint64?, Dict.ofList extra⟩

instance : Wire StorageMeta := ⟨toJson, ofJson? 0⟩

end StorageMeta

/-! ## Answers of the storage -/

/-- Where a blob was put. -/
structure AppendResult where
  location : String
  info : StorageMeta

namespace AppendResult

instance : Wire AppendResult where
  toJson r := .ofFields [("dataId", toJson r.location), ("meta", toJson r.info)]
  ofJson? j := do
    let fields ← j.fields? ["dataId", "meta"]
    return {
      location := ← fields.required "dataId" Wire.ofJson?
      info := ← fields.required "meta" (StorageMeta.ofJson? 1) }

end AppendResult

/-- A blob that was asked for by its location. -/
structure ReadResult where
  content : String
  info : StorageMeta

namespace ReadResult

instance : Wire ReadResult where
  toJson r := .ofFields [("content", toJson r.content), ("meta", toJson r.info)]
  ofJson? j := do
    let fields ← j.fields? ["content", "meta"]
    return {
      content := ← fields.required "content" Wire.ofJson?
      info := ← fields.required "meta" (StorageMeta.ofJson? 1) }

end ReadResult

/-- The blobs of a window, in three lists side by side, and how far the answer reaches. -/
structure StorageData where
  contents : Option (List String)
  locations : Option (List String)
  lastTimestamp : Timestamp
  infos : List StorageMeta

namespace StorageData

instance : Wire StorageData where
  toJson d := .ofFields
    [("data", some (.ofOption toJson d.contents)), ("dataIds", some (.ofOption toJson d.locations)),
     ("meta", some (.ofFields
       [("lastTimestamp", toJson d.lastTimestamp), ("metaData", toJson d.infos)]))]
  ofJson? j := do
    let fields ← j.fields? ["data", "dataIds", "meta"]
    let report ← fields.required "meta" fun j => do
      let fields ← j.fields? ["lastTimestamp", "metaData"]
      return (← fields.required "lastTimestamp" Wire.ofJson?,
        ← fields.required "metaData" (Json.list? (StorageMeta.ofJson? 3)))
    return {
      contents := ← fields.optional "data" Wire.ofJson?
      locations := ← fields.optional "dataIds" Wire.ofJson?
      lastTimestamp := report.1
      infos := report.2 }

end StorageData

end Invoicing
