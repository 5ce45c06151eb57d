import Invoicing.Json.Fields

set_option autoImplicit false

/-! # Blocks

A block is the unit of storage: some transactions and a header that says, for each channel, at which
positions its transactions stand and which topics tag it. `Block.push` puts one more transaction at the end and
leaves the block that it is given as it was. -/

namespace Invoicing

/-- A payload, either clear or encrypted with a key per party. -/
structure Transaction where
  data : Option String
  encryptedData : Option String
  encryptionMethod : Option String
  keys : Option (Dict String String)
deriving DecidableEq

namespace Transaction

instance : Wire Transaction where
  toJson t := .ofFields
    [("data", t.data.map toJson), ("encryptedData", t.encryptedData.map toJson),
     ("encryptionMethod", t.encryptionMethod.map toJson), ("keys", t.keys.map toJson)]
  ofJson? j := do
    let fields ← j.fields? ["data", "encryptedData", "encryptionMethod", "keys"]
    return {
      data := ← fields.optional "data" Wire.ofJson?
      encryptedData := ← fields.optional "encryptedData" Wire.ofJson?
      encryptionMethod := ← fields.optional "encryptionMethod" Wire.ofJson?
      keys := ← fields.optional "keys" Wire.ofJson? }

end Transaction

/-- The place of a transaction in its block. -/
abbrev Position := UInt64

/-- What a block says about its transactions. -/
structure BlockHeader where
  /-- The positions of each channel. -/
  channels : Dict String (List Position)
  /-- The topics of each channel. -/
  topics : Dict String (List String)
  version : String
deriving DecidableEq

namespace BlockHeader

/-- The version of the format. -/
def currentVersion : String := "0.1.0"

def empty : BlockHeader := ⟨.empty, .empty, currentVersion⟩

instance : Wire BlockHeader where
  toJson h := .ofFields
    [("channelIds", toJson h.channels), ("topics", toJson h.topics), ("version", toJson h.version)]
  ofJson? j := do
    let fields ← j.fields? ["channelIds", "topics", "version"]
    return {
      channels := ← fields.required "channelIds" Wire.ofJson?
      topics := ← fields.required "topics" Wire.ofJson?
      version := ← fields.required "version" Wire.ofJson? }

end BlockHeader

/-- Some transactions and their description. -/
structure Block where
  header : BlockHeader
  transactions : List Transaction
deriving DecidableEq

namespace Block

def empty : Block := ⟨.empty, []⟩

instance : Wire Block where
  toJson b := .ofFields [("header", toJson b.header), ("transactions", toJson b.transactions)]
  ofJson? j := do
    let fields ← j.fields? ["header", "transactions"]
    return {
      header := ← fields.required "header" Wire.ofJson?
      transactions := ← fields.required "transactions" Wire.ofJson? }

/-- The text under which a block is stored. -/
def render (b : Block) : String := Wire.render b

/-- Puts the elements of a list that are new at the end of another, each once. -/
def appendNew (old new : List String) : List String :=
  new.foldl (fun seen t => if seen.contains t then seen else seen ++ [t]) old

/-- The block with one more transaction, which belongs to `channel` and adds `topics` to it. -/
def push (b : Block) (t : Transaction) (channel : String) (topics : List String) : Block where
  header :=
    { b.header with
      channels := b.header.channels.insert channel
        ((b.header.channels.get? channel).getD [] ++ [b.transactions.length.toUInt64])
      topics := b.header.topics.insert channel
        (appendNew ((b.header.topics.get? channel).getD []) topics) }
  transactions := b.transactions ++ [t]

/-- The positions that the header lists for a channel. -/
def positions (b : Block) (channel : String) : List Position :=
  (b.header.channels.get? channel).getD []

end Block

end Invoicing
