import Invoicing.Octets

set_option autoImplicit false

/-! # Logs of the ledger

A log is what a contract leaves on the ledger, and a filter selects logs by contract, block and topics. -/

namespace Invoicing

/-- The number of a block of the ledger. -/
abbrev BlockNumber := UInt64

/-- One log of a contract. -/
structure Log where
  address : Address
  topics : List Hash
  data : List UInt8
  block : BlockNumber
  transaction : Hash
deriving DecidableEq

instance : Wire Log where
  toJson l := .ofFields
    [("address", toJson l.address), ("topics", toJson l.topics),
     ("data", some (.ofList .ofUInt8 l.data)), ("blockNumber", toJson l.block),
     ("transactionHash", toJson l.transaction)]
  ofJson? j := do
    let fields ← j.fields? ["address", "topics", "data", "blockNumber", "transactionHash"]
    return {
      address := ← fields.required "address" Wire.ofJson?
      topics := ← fields.required "topics" Wire.ofJson?
      data := ← fields.required "data" (Json.list? Json.uint8?)
      block := ← fields.required "blockNumber" Wire.ofJson?
      transaction := ← fields.required "transactionHash" Wire.ofJson? }

/-- The upper end of a range of blocks. -/
inductive BlockTag where
  | number (n : BlockNumber)
  | latest
deriving DecidableEq, Repr

namespace BlockTag

/-- Does the range reach a block? -/
def reaches : BlockTag → BlockNumber → Bool
  | number n, block => decide (block ≤ n)
  | latest, _ => true

instance : Wire BlockTag where
  toJson
    | number n => .object [("number".toList, .ofUInt64 n)]
    | latest => .ofText "latest"
  ofJson? j :=
    match j.variant? with
    | some ("latest", none) => some latest
    | some ("latest", some .null) => some latest
    | some ("number", some v) => v.uint64?.map number
    | _ => none

end BlockTag

/-- A query for logs. -/
structure LogFilter where
  address : Address
  /-- The topic at each place; `none` stands for any, even for none. -/
  topics : List (Option Hash)
  fromBlock : BlockNumber
  toBlock : BlockTag
deriving DecidableEq

namespace LogFilter

/-- Does a log have the topics that are asked for at their places? -/
def matchesTopics : List (Option Hash) → List Hash → Bool
  | [], _ => true
  | none :: rest, topics => matchesTopics rest topics.tail
  | some _ :: _, [] => false
  | some t :: rest, t' :: topics => t == t' && matchesTopics rest topics

/-- Does the filter select a log? -/
def selects (f : LogFilter) (l : Log) : Bool :=
  l.address == f.address && decide (f.fromBlock ≤ l.block) && f.toBlock.reaches l.block &&
    matchesTopics f.topics l.topics

instance : Wire LogFilter where
  toJson f := .ofFields
    [("address", some (toJson f.address)), ("topics", some (.ofList (.ofOption toJson) f.topics)),
     ("fromBlock", some (toJson f.fromBlock)), ("toBlock", some (toJson f.toBlock))]
  ofJson? j := do
    let fields ← j.fields? ["address", "topics", "fromBlock", "toBlock"]
    return {
      address := ← fields.required "address" Wire.ofJson?
      topics := ← fields.required "topics" (Json.list? (Json.option? Wire.ofJson?))
      fromBlock := ← fields.required "fromBlock" Wire.ofJson?
      toBlock := ← fields.required "toBlock" Wire.ofJson? }

end LogFilter

end Invoicing
