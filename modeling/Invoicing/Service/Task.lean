import Invoicing.Service.Program
import Invoicing.Service.View

set_option autoImplicit false

/-! # Tasks of the data service

Storing a transaction, reading channels and catching up with the storage. Blobs of the storage that are no
block are counted and passed over; every other trouble ends a task. -/

namespace Invoicing.Task

/-! ## Catching up with the storage -/

/-- How many blobs were indexed and how many are no block. -/
structure SyncReport where
  indexed : Nat
  skipped : Nat
deriving DecidableEq, Repr

/-- Adds blobs to the index one by one. -/
def indexBlobs (report : SyncReport) : List Blob → Task SyncReport
  | [] => return report
  | blob :: rest =>
    match Block.parse blob.content with
    | .ok block => do
      ofIndex (.add blob.location block.header blob.info.timestamp)
      indexBlobs { report with indexed := report.indexed + 1 } rest
    | .error _ => indexBlobs { report with skipped := report.skipped + 1 } rest

/-- The blobs of an answer, whose three lists have to be there and to match. -/
def blobsOf (data : StorageData) : Except ServiceError (List Blob) :=
  match data.contents, data.locations with
  | some contents, some locations =>
    if contents.length = locations.length ∧ contents.length = data.infos.length then
      .ok (((contents.zip locations).zip data.infos).map fun ((content, location), info) =>
        ⟨location, content, info⟩)
    else
      let contentCount := contents.length
      let locationCount := locations.length
      let infoCount := data.infos.length
      .error (.malformedAnswer
        s!"{contentCount} data, {locationCount} dataIds and {infoCount} metaData")
  | _, _ => .error (.malformedAnswer "missing data or dataIds")

/-- Adds the blobs of an answer to the index. -/
def indexData (data : StorageData) : Task SyncReport := do
  let blobs ← MonadExcept.ofExcept (blobsOf data)
  indexBlobs ⟨0, 0⟩ blobs

/-- Adds the blobs of a window to the index, and says how far the storage's answer reaches. -/
def catchUp (window : Option Window) : Task (SyncReport × Timestamp) := do
  let data ← ofStorage (.data window)
  let report ← indexData data
  return (report, data.lastTimestamp)

/-- Sets the collaborators up and indexes what is new since the latest block that the index knows. -/
def setUp : Task Timestamp := do
  ofIndex .setUpIndex
  ofStorage .setUpStorage
  match (← ofIndex .lastTimestamp) with
  | none => return (← catchUp none).2
  | some last => return (← catchUp (some (.between last (← now)))).2

/-- Indexes what is new since the watermark. -/
def synchronize (watermark : Timestamp) : Task (SyncReport × Timestamp) := do
  catchUp (some (.between watermark (← now)))

/-! ## Storing -/

/-- Refuses topics that are no content hashes. -/
def checkTopics (topics : List String) : Except ServiceError Unit :=
  match topics.filter fun topic => !ContentHash.isWellFormed topic with
  | [] => .ok ()
  | malformed => .error (.invalidTopics malformed)

/-- Stores a transaction as a block of its own and adds the block to the index. -/
def persist (t : Transaction) (channel : String) (topics : List String) : Task Receipt := do
  MonadExcept.ofExcept (checkTopics topics)
  let block := Block.empty.push t channel topics
  let stored ← ofStorage (.append block.render)
  ofIndex (.add stored.location block.header stored.info.timestamp)
  return ⟨stored.location, stored.info, topics⟩

/-! ## Reading -/

/-- Ends an open window at the present. -/
def closeWindow : Option Window → Task (Option Window)
  | none => return none
  | some window => return some (window.closedAt (← now))

/-- The positions of a channel in a block, in order and each once. -/
def positionsOf (block : Block) (channel : String) : List Nat :=
  (List.range block.transactions.length).filter fun i =>
    (block.positions channel).any fun p => p.toNat == i

/-- The channel's transactions in a stored text. -/
def entriesOf (channel : String) (location : String) (stored : ReadResult) :
    Except BlockError (List ChannelEntry) := do
  let block ← Block.parse stored.content
  return (positionsOf block channel).filterMap fun i =>
    block.transactions[i]?.map fun t => ⟨t, location, stored.info⟩

/-- Reads locations one after the other. -/
def readAll (locations : List String) : Task (List (String × ReadResult)) :=
  locations.mapM fun location => do return (location, ← ofStorage (.read location))

/-- The channel's transactions at some locations, in the order of the locations. All are read before the first
one is taken apart. -/
def readChannel (channel : String) (locations : List String) : Task (List ChannelEntry) := do
  let stored ← readAll locations
  let entries ← stored.mapM fun (location, result) => ofBlock (entriesOf channel location result)
  return entries.flatten

/-- The transactions of a channel. -/
def channelEntries (channel : String) (window : Option Window) : Task (List ChannelEntry) := do
  let window ← closeWindow window
  readChannel channel (← ofIndex (.locations channel window))

/-- All transactions of each of some channels. -/
def channelsEntries (channels : List String) : Task (List (String × List ChannelEntry)) :=
  channels.mapM fun channel => do
    return (channel, ← readChannel channel (← ofIndex (.locations channel none)))

/-- All transactions of the channels with a topic whose latest time lies in the window. -/
def topicsEntries (topics : List String) (window : Option Window) :
    Task (List (String × List ChannelEntry)) := do
  MonadExcept.ofExcept (checkTopics topics)
  let window ← closeWindow window
  channelsEntries (← ofIndex (.channels topics window))

end Invoicing.Task
