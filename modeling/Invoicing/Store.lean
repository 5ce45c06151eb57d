import Invoicing.Dict
import Invoicing.Faults

set_option autoImplicit false

/-! # The key-value store

A store holds a record per key, and a batch of writes takes effect as a whole: later writes of a key win over
earlier ones. Calls can fail as a schedule of faults says, and a call that fails changes no record. -/

namespace Invoicing

abbrev Key := List UInt8

/-- Writes that take effect together, in order. -/
abbrev Batch := List (Key × List UInt8)

/-- The records of a store. -/
abbrev Records := Dict Key (List UInt8)

/-- The records after a batch. -/
def Records.write (records : Records) (batch : Batch) : Records :=
  batch.foldl (fun rs (key, value) => rs.insert key value) records

/-- A store whose calls may fail. -/
structure Store where
  records : Records
  reading : Faults
  writing : Faults
  /-- How many batches took effect. -/
  writes : Nat

namespace Store

def empty : Store := ⟨.empty, .never, .never, 0⟩

instance : Inhabited Store := ⟨empty⟩

/-- A failed call. -/
structure Failure where
  message : String
deriving DecidableEq, Repr

def Failure.describe (f : Failure) : String := s!"KV store I/O error: {f.message}"

/-- The record of a key. -/
def get (s : Store) (key : Key) : Except Failure (Option (List UInt8)) × Store :=
  let counted := { s with reading := s.reading.tick }
  if s.reading.failing then (.error ⟨"injected get failure"⟩, counted)
  else (.ok (s.records.get? key), counted)

/-- Writes a batch as a whole. -/
def write (s : Store) (batch : Batch) : Except Failure Unit × Store :=
  let counted := { s with writing := s.writing.tick }
  if s.writing.failing then (.error ⟨"injected write failure"⟩, counted)
  else (.ok (), { counted with records := s.records.write batch, writes := s.writes + 1 })

/-- Puts a record into the store without a call. -/
def poke (s : Store) (key : Key) (value : List UInt8) : Store :=
  { s with records := s.records.insert key value }

def failReads (s : Store) (count : Nat) : Store := { s with reading := s.reading.next count }

def failWrites (s : Store) (count : Nat) : Store := { s with writing := s.writing.next count }

end Store

end Invoicing
