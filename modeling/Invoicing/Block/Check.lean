import Invoicing.Block.Basic
import Invoicing.ContentHash

set_option autoImplicit false

/-! # Well-formed blocks

Stored text is accepted as a block when it has the shape of one and the header describes its transactions: every
channel id and topic is a content hash, and every position belongs to one channel. The checks run in a fixed
order, and the first one that fails gives the error. -/

namespace Invoicing

/-- Why a text is no block. -/
inductive BlockError where
  | invalidStructure
  | unsupportedVersion (version : String)
  | invalidChannelId (channel : String)
  | invalidTopic (channel topic : String)
  | positionOutOfRange (channel : String) (position : Position) (count : Nat)
  | duplicatePosition (position : Position)
  | undescribedTransaction (position : Nat)
  | topicsForUnknownChannel (channel : String)
deriving DecidableEq, Repr

def BlockError.message : BlockError → String
  | invalidStructure => "Block structure is not valid"
  | unsupportedVersion version => s!"Unsupported block version: {version}"
  | invalidChannelId channel => s!"Channel id {channel} is not a valid hash"
  | invalidTopic channel topic => s!"Topic {topic} of channel {channel} is not a valid hash"
  | positionOutOfRange channel position count =>
    s!"Channel {channel} references transaction {position} but the block has {count} transactions"
  | duplicatePosition position => s!"Transaction {position} is claimed by more than one channel"
  | undescribedTransaction position => s!"Transaction {position} is not described by the header"
  | topicsForUnknownChannel channel =>
    s!"Topics given for channel {channel} which has no transaction in the block"

namespace Block

/-- Every position that the header lists, with the channel that lists it, in the order of the header. -/
def claims (b : Block) : List (String × Position) :=
  b.header.channels.entries.flatMap fun (channel, positions) => positions.map fun p => (channel, p)

/-! ## The checks -/

def checkVersion (b : Block) : Except BlockError Unit :=
  if b.header.version = BlockHeader.currentVersion then .ok ()
  else .error (.unsupportedVersion b.header.version)

def checkChannelIds (b : Block) : Except BlockError Unit :=
  match b.header.channels.keys.find? fun channel => !ContentHash.isWellFormed channel with
  | some channel => .error (.invalidChannelId channel)
  | none => .ok ()

def checkTopics (b : Block) : Except BlockError Unit :=
  let tagged := b.header.topics.entries.flatMap fun (channel, topics) => topics.map fun t => (channel, t)
  match tagged.find? fun (_, topic) => !ContentHash.isWellFormed topic with
  | some (channel, topic) => .error (.invalidTopic channel topic)
  | none => .ok ()

/-- Checks claims in order against the count of transactions and the owners known so far. A channel may
claim its own position again. -/
def checkClaims (count : Nat) (owners : List (Position × String)) :
    List (String × Position) → Except BlockError Unit
  | [] => .ok ()
  | (channel, p) :: rest =>
    if p.toNat < count then
      match owners.lookup p with
      -- A position that is listed again needs no new owner.
      | some owner =>
        if owner = channel then checkClaims count owners rest else .error (.duplicatePosition p)
      | none => checkClaims count ((p, channel) :: owners) rest
    else .error (.positionOutOfRange channel p count)

def checkDescribed (b : Block) : Except BlockError Unit :=
  match (List.range b.transactions.length).find? fun i => !b.claims.any fun (_, p) => p.toNat == i with
  | some i => .error (.undescribedTransaction i)
  | none => .ok ()

def checkTopicChannels (b : Block) : Except BlockError Unit :=
  match b.header.topics.keys.find? fun channel => !b.header.channels.contains channel with
  | some channel => .error (.topicsForUnknownChannel channel)
  | none => .ok ()

/-- All checks, in the order in which their errors are reported. -/
def check (b : Block) : Except BlockError Unit := do
  b.checkVersion
  b.checkChannelIds
  b.checkTopics
  checkClaims b.transactions.length [] b.claims
  b.checkDescribed
  b.checkTopicChannels

/-- The block that a text spells. -/
def parse (s : String) : Except BlockError Block :=
  match (Wire.parse? s : Option Block) with
  | none => .error .invalidStructure
  | some b => do
    b.check
    return b

end Block

end Invoicing
