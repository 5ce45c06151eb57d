import Invoicing.Record
import Invoicing.Store
import Invoicing.Time

set_option autoImplicit false

/-! # Records of the index

The index keeps four families of records under keys that tell the family: the time of a location, the locations of a
channel, the latest time of each channel of a topic, and the latest time of all. -/

namespace Invoicing

/-- Why the index gives no answer. -/
inductive IndexError where
  | alreadyReady
  | store (failure : Store.Failure)
  | corrupted (key : String)
deriving DecidableEq, Repr

namespace IndexError

def message : IndexError → String
  | alreadyReady => "already initialized"
  | store failure => failure.describe
  | corrupted key => s!"Index record corrupted under key {key}"

end IndexError

/-- The name of a record. -/
inductive RecordKey where
  | location (location : String)
  | channel (channel : String)
  | topic (topic : String)
  | lastTimestamp
deriving DecidableEq, Repr

namespace RecordKey

def text : RecordKey → String
  | location l => "location:" ++ l
  | channel c => "channel:" ++ c
  | topic t => "topic:" ++ t
  | lastTimestamp => "meta:last-timestamp"

/-- The key under which the record is stored. -/
def bytes (k : RecordKey) : Key := Utf8.encode k.text

/-- A write of the record. -/
def put {α : Type} [Record α] (k : RecordKey) (value : α) : Key × List UInt8 :=
  (k.bytes, Record.encode value)

end RecordKey

/-- A computation over the store that may end in an error. Calls that were made count even then. -/
abbrev StoreM := ExceptT IndexError (StateM Store)

namespace StoreM

/-- The value of a record, if there is one. A record that spells no value is corrupted. -/
def load? (α : Type) [Record α] (k : RecordKey) : StoreM (Option α) := do
  match (← modifyGet fun s => s.get k.bytes) with
  | .error failure => throw (.store failure)
  | .ok none => return none
  | .ok (some bytes) =>
    match Record.decode? bytes with
    | some a => return some a
    | none => throw (.corrupted k.text)

/-- Writes a batch, unless it is empty. -/
def commit (batch : Batch) : StoreM Unit := do
  if batch.isEmpty then return
  match (← modifyGet fun s => s.write batch) with
  | .error failure => throw (.store failure)
  | .ok () => return

end StoreM

end Invoicing
