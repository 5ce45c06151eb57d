import Invoicing.Faults
import Invoicing.Storage.Log

set_option autoImplicit false

/-! # Storage in memory

The log of blobs as it is kept in memory: the blobs in a row, and beside them the position of each location, by which a
blob is found without a search. Nothing in the types keeps the two in step, so a position can lead nowhere; a call that
meets such a position has no result (`none`). -/

namespace Invoicing

/-- Blobs in the order in which they were appended, and the position of each location. -/
structure BlobTable where
  blobs : Array Blob
  positions : Dict String Nat

namespace BlobTable

def empty : BlobTable := ⟨#[], .empty⟩

instance : Inhabited BlobTable := ⟨empty⟩

/-- The log that the table keeps. -/
def log (t : BlobTable) : BlobLog := ⟨t.blobs.toList⟩

/-- The blob at a location, if the location has a position. -/
def blobAt (t : BlobTable) (location : String) : Option (Option Blob) :=
  match t.positions.get? location with
  | some position => t.blobs[position]?.map some
  | none => some none

/-- Appends a content with a time, unless its location has a position already. -/
def append (t : BlobTable) (content : String) (time : Timestamp) : Option (AppendResult × BlobTable) := do
  let location := ContentHash.ofText content
  match ← t.blobAt location with
  | some blob => return (⟨location, blob.info⟩, t)
  | none =>
    let info := StorageMeta.ofTimestamp time
    return (⟨location, info⟩,
      ⟨t.blobs.push ⟨location, content, info⟩, t.positions.insert location t.blobs.size⟩)

/-- The content at a location. -/
def read (t : BlobTable) (location : String) : Option (Except StorageError ReadResult) := do
  match ← t.blobAt location with
  | some blob => return .ok ⟨blob.content, blob.info⟩
  | none => return .error (.notFound location)

/-- The answer for a window, from the blobs in it. -/
def data (t : BlobTable) (window : Option Window) (now : Timestamp) : StorageData := t.log.data window now

end BlobTable

/-- A table with the clock that stamps its blobs. Queries for data can fail as a schedule of faults says. -/
structure MemoryStorage where
  table : BlobTable
  clock : Clock
  faults : Faults

namespace MemoryStorage

/-- A storage without blobs. -/
def new (now : Timestamp) : MemoryStorage := ⟨.empty, ⟨now⟩, .never⟩

/-- What can be done with a storage. -/
inductive Act where
  | append (content : String)
  | appendAt (content : String) (time : Timestamp)
  | read (location : String)
  | data (window : Option Window)
  | setClock (now : Timestamp)
  | advanceClock (seconds : Timestamp)
  /-- The next queries for data fail. -/
  | failData (count : Nat)

/-- What a storage says to an act. -/
inductive Answer where
  | stored (result : AppendResult)
  | content (result : Except StorageError ReadResult)
  | data (result : Except StorageError StorageData)
  | done

/-- Stores a content with a time. -/
def store (s : MemoryStorage) (content : String) (time : Timestamp) : Option (Answer × MemoryStorage) := do
  let (result, table) ← s.table.append content time
  return (.stored result, { s with table })

/-- The answer to an act, and the storage after it. -/
def act (s : MemoryStorage) : Act → Option (Answer × MemoryStorage)
  | .append content => s.store content s.clock.now
  | .appendAt content time => s.store content time
  | .read location => (s.table.read location).map fun result => (.content result, s)
  | .data window =>
    let counted := { s with faults := s.faults.tick }
    if s.faults.failing then some (.data (.error (.unavailable "injected get_data failure")), counted)
    else some (.data (.ok (s.table.data window s.clock.now)), counted)
  | .setClock now => some (.done, { s with clock := s.clock.set now })
  | .advanceClock seconds => some (.done, { s with clock := s.clock.advance seconds })
  | .failData count => some (.done, { s with faults := s.faults.next count })

/-- The answers to acts, one after the other, and the storage after all of them. -/
def run (s : MemoryStorage) : List Act → Option (List Answer × MemoryStorage)
  | [] => some ([], s)
  | a :: acts => do
    let (answer, s) ← s.act a
    let (answers, s) ← run s acts
    return (answer :: answers, s)

end MemoryStorage

end Invoicing
