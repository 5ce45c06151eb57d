import Invoicing.Detection.Reference
import Invoicing.Faults
import Invoicing.Ledger.Transfer

set_option autoImplicit false

/-! # The ledger

A ledger holds logs in the order of their emission and the times of blocks. Calls to it can fail as a schedule of faults
says, and it counts the queries for logs that it served. -/

namespace Invoicing

structure Ledger where
  logs : List Log
  /-- The times of blocks, the latest entry of a block first. -/
  times : List (BlockNumber × Timestamp)
  faults : Faults
  queries : Nat

/-- A computation that asks the ledger. Calls that were made count even if it ends in an error. -/
abbrev LedgerM := ExceptT DetectionError (StateM Ledger)

namespace Ledger

def empty : Ledger := ⟨[], [], .never, 0⟩

instance : Inhabited Ledger := ⟨empty⟩

/-! ## Filling -/

def push (l : Ledger) (log : Log) : Ledger := { l with logs := l.logs ++ [log] }

def setTime (l : Ledger) (block : BlockNumber) (time : Timestamp) : Ledger :=
  { l with times := (block, time) :: l.times }

/-- The next `count` calls fail. -/
def failNext (l : Ledger) (count : Nat) : Ledger := { l with faults := l.faults.next count }

/-- A payment through the conversion proxy. -/
structure Payment where
  proxy : Address
  reference : String
  block : BlockNumber
  transaction : Hash
  conversion : Conversion
  transfer : Transfer
deriving DecidableEq

/-- The two logs of a payment. -/
def Payment.logs (p : Payment) (topic : Hash) : List Log :=
  [⟨p.proxy, [Conversion.topic, topic], p.conversion.encode, p.block, p.transaction⟩,
   ⟨p.proxy, [Transfer.topic, topic], p.transfer.encode, p.block, p.transaction⟩]

/-- Adds the logs of a payment. -/
def pay (l : Ledger) (p : Payment) : Except DetectionError Ledger := do
  let topic ← Reference.topic p.reference
  return { l with logs := l.logs ++ p.logs topic }

/-! ## Calls -/

/-- Counts a call, and fails if the schedule says so. -/
def call : LedgerM Unit := do
  let l ← get
  set { l with faults := l.faults.tick }
  if l.faults.failing then throw (.ledger "injected failure")

/-- The logs that a filter selects, in order. -/
def select (filter : LogFilter) : LedgerM (List Log) := do
  call
  modify fun l => { l with queries := l.queries + 1 }
  return (← get).logs.filter filter.selects

/-- The time of a block. -/
def time (block : BlockNumber) : LedgerM Timestamp := do
  call
  match (← get).times.lookup block with
  | some time => return time
  | none => throw (.ledger s!"unknown block {block}")

end Ledger

/-- A transaction hash for trials. -/
def trialHash (seed : UInt64) : Hash := Keccak.digest (Bytes.ofNatBE 8 seed.toNat)

end Invoicing
