import Invoicing.Block.Basic
import Invoicing.Index.Record

set_option autoImplicit false

/-! # The index

The index finds the locations of a channel and the channels of a topic. It is filled one block at a time from
the header of the block: the first time given for a location stays its time, a channel lists a location once, and a
topic keeps the latest time of each of its channels. All that one block changes is written in one batch. -/

namespace Invoicing

/-- The index and the store that holds its records. -/
structure Index where
  isReady : Bool
  store : Store

namespace Index

def empty : Index := ⟨false, .empty⟩

instance : Inhabited Index := ⟨empty⟩

/-- Runs a computation on the store of the index. -/
def run {α : Type} (index : Index) (m : StoreM α) : Except IndexError α × Index :=
  let (result, store) := m.run.run index.store
  (result, { index with store })

/-- Sets the index up, which is possible once. -/
def setUp (index : Index) : Except IndexError Unit × Index :=
  if index.isReady then (.error .alreadyReady, index) else (.ok (), { index with isReady := true })

/-- A new index over the same records. -/
def renewed (index : Index) : Index := { index with isReady := false }

/-! ## Adding a block -/

/-- The channels that a header tags with a topic. -/
def taggedWith (header : BlockHeader) (topic : String) : List String :=
  (header.topics.entries.filter fun (_, topics) => topics.contains topic).map Prod.fst

/-- The topics of a header, each once, in the order in which they first appear. -/
def topicsOf (header : BlockHeader) : List String := header.topics.values.flatten.eraseDups

/-- Moves the times of some channels forward to `time`, if they are before it. -/
def touch (latest : Dict String Timestamp) (channels : List String) (time : Timestamp) :
    Dict String Timestamp :=
  channels.foldl (fun latest c => latest.insert c (max ((latest.get? c).getD time) time)) latest

/-- The new locations of a channel, if `location` is not among them yet. -/
def channelWrite? (location : String) (channel : String) :
    StoreM (Option (Key × List UInt8)) := do
  let locations := (← StoreM.load? (List String) (.channel channel)).getD []
  if locations.contains location then return none
  return some (RecordKey.put (.channel channel) (locations ++ [location]))

/-- The new times of a topic's channels. -/
def topicTimes (header : BlockHeader) (time : Timestamp) (topic : String) :
    StoreM (String × Dict String Timestamp) := do
  let latest := (← StoreM.load? (Dict String Timestamp) (.topic topic)).getD .empty
  return (topic, touch latest (taggedWith header topic) time)

/-- All that changes with the block at `location`. -/
def changes (location : String) (header : BlockHeader) (timestamp : Timestamp) : StoreM Batch := do
  let known ← StoreM.load? Timestamp (.location location)
  -- The first time of a location counts, whatever is given later.
  let time := known.getD timestamp
  let channels ← header.channels.keys.filterMapM (channelWrite? location)
  let topics ← (topicsOf header).mapM (topicTimes header time)
  let last ← StoreM.load? Timestamp .lastTimestamp
  return (if known.isNone then [RecordKey.put (.location location) time] else []) ++
    channels ++
    (Dict.ofList topics).entries.map (fun (topic, times) => RecordKey.put (.topic topic) times) ++
    (if last.all fun last => decide (last < time) then [RecordKey.put .lastTimestamp time] else [])

/-- Adds the block at `location`. Its records are read first, and then all that changes is written. -/
def add (location : String) (header : BlockHeader) (timestamp : Timestamp) : StoreM Unit := do
  StoreM.commit (← changes location header timestamp)

/-! ## Queries -/

/-- The locations of a channel, in the order in which they were added; with a window, those whose time
lies in it. -/
def locations (channel : String) (window : Option Window) : StoreM (List String) := do
  let all := (← StoreM.load? (List String) (.channel channel)).getD []
  match window with
  | none => return all
  | some window =>
    all.filterM fun location => do
      let time ← StoreM.load? Timestamp (.location location)
      return time.any window.contains

/-- The channels of a topic whose latest time lies in the window. -/
def channelsOfTopic (topic : String) (window : Option Window) : StoreM (List String) := do
  let latest := (← StoreM.load? (Dict String Timestamp) (.topic topic)).getD .empty
  return (latest.entries.filter fun (_, time) => Window.admits window time).map Prod.fst

/-- The channels of any of some topics, in order and each once. -/
def channelsOfTopics (topics : List String) (window : Option Window) : StoreM (List String) := do
  let found ← topics.mapM fun topic => channelsOfTopic topic window
  return (Dict.ofList (found.flatten.map fun channel => (channel, ()))).keys

/-- The latest time of all blocks. -/
def lastTimestamp : StoreM (Option Timestamp) := StoreM.load? Timestamp .lastTimestamp

end Index

end Invoicing
