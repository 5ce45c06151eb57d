import Invoicing.Block.Basic
import Invoicing.Storage.Data

set_option autoImplicit false

/-! # Answers of the data service

A channel's transactions are found as entries, each with the place it was read from. They are handed out
as lists side by side (`ChannelView`), and several channels as maps of such lists (`ChannelViews`). -/

namespace Invoicing

/-- A transaction and the time of the block that holds it. -/
structure ConfirmedTransaction where
  timestamp : Timestamp
  transaction : Transaction

instance : Wire ConfirmedTransaction where
  toJson t := .ofFields [("timestamp", toJson t.timestamp), ("transaction", toJson t.transaction)]
  ofJson? j := do
    let fields ← j.fields? ["timestamp", "transaction"]
    return {
      timestamp := ← fields.required "timestamp" Wire.ofJson?
      transaction := ← fields.required "transaction" Wire.ofJson? }

/-- The receipt for a transaction that was stored. -/
structure Receipt where
  location : String
  info : StorageMeta
  topics : List String

instance : Wire Receipt where
  toJson r := .ofFields
    [("transactionStorageLocation", toJson r.location), ("storageMeta", toJson r.info),
     ("topics", toJson r.topics)]
  ofJson? j := do
    let fields ← j.fields? ["transactionStorageLocation", "storageMeta", "topics"]
    return {
      location := ← fields.required "transactionStorageLocation" Wire.ofJson?
      info := ← fields.required "storageMeta" (StorageMeta.ofJson? 1)
      topics := ← fields.required "topics" Wire.ofJson? }

/-- One transaction of a channel, with the location and the meta data of its block. -/
structure ChannelEntry where
  transaction : Transaction
  location : String
  info : StorageMeta

/-- The transactions of a channel: three lists side by side. -/
structure ChannelView where
  transactions : List ConfirmedTransaction
  locations : List String
  infos : List StorageMeta

namespace ChannelView

/-- The lists of some entries. -/
def ofEntries (es : List ChannelEntry) : ChannelView where
  transactions := es.map fun e => ⟨e.info.timestamp, e.transaction⟩
  locations := es.map (·.location)
  infos := es.map (·.info)

def size (v : ChannelView) : Nat := v.transactions.length

def isEmpty (v : ChannelView) : Bool := v.transactions.isEmpty

instance : Wire ChannelView where
  toJson v := .ofFields
    [("transactions", toJson v.transactions), ("transactionsStorageLocation", toJson v.locations),
     ("storageMeta", toJson v.infos)]
  ofJson? j := do
    let fields ← j.fields? ["transactions", "transactionsStorageLocation", "storageMeta"]
    return {
      transactions := ← fields.required "transactions" Wire.ofJson?
      locations := ← fields.required "transactionsStorageLocation" Wire.ofJson?
      infos := ← fields.required "storageMeta" (Json.list? (StorageMeta.ofJson? 2)) }

end ChannelView

/-- The transactions of several channels: three maps from the channel. -/
structure ChannelViews where
  transactions : Dict String (List ConfirmedTransaction)
  locations : Dict String (List String)
  infos : Dict String (List StorageMeta)

namespace ChannelViews

def empty : ChannelViews := ⟨.empty, .empty, .empty⟩

/-- Adds the lists of one channel. -/
def insert (vs : ChannelViews) (channel : String) (v : ChannelView) : ChannelViews where
  transactions := vs.transactions.insert channel v.transactions
  locations := vs.locations.insert channel v.locations
  infos := vs.infos.insert channel v.infos

/-- The lists of the entries of some channels. -/
def ofEntries (channels : List (String × List ChannelEntry)) : ChannelViews :=
  channels.foldl (fun vs (channel, es) => vs.insert channel (.ofEntries es)) empty

def channels (vs : ChannelViews) : List String := vs.transactions.keys

instance : Wire ChannelViews where
  toJson vs := .ofFields
    [("transactions", toJson vs.transactions), ("transactionsStorageLocation", toJson vs.locations),
     ("storageMeta", toJson vs.infos)]
  ofJson? j := do
    let fields ← j.fields? ["transactions", "transactionsStorageLocation", "storageMeta"]
    return {
      transactions := ← fields.required "transactions" Wire.ofJson?
      locations := ← fields.required "transactionsStorageLocation" Wire.ofJson?
      infos := ← fields.required "storageMeta"
        (Json.dict? (Json.list? (StorageMeta.ofJson? 3))) }

end ChannelViews

end Invoicing
