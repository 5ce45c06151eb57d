import Invoicing.ContentHash
import Invoicing.Storage.Data

set_option autoImplicit false

/-! # The content-addressed log

Blobs in the order in which they were appended, each under the hash of its content. A content that is there
already is not appended again and keeps the meta data of its first time. -/

namespace Invoicing

inductive StorageError where
  | notFound (location : String)
  | unavailable (reason : String)
  | notReady
deriving DecidableEq, Repr

def StorageError.message : StorageError → String
  | notFound location => s!"No data stored at location {location}"
  | unavailable reason => s!"Storage unavailable: {reason}"
  | notReady => "Storage not initialized"

/-- A stored content. -/
structure Blob where
  location : String
  content : String
  info : StorageMeta

/-- All blobs, the oldest first. -/
structure BlobLog where
  blobs : List Blob

namespace BlobLog

def empty : BlobLog := ⟨[]⟩

instance : Inhabited BlobLog := ⟨empty⟩

def size (log : BlobLog) : Nat := log.blobs.length

/-- The blob at a location. -/
def find? (log : BlobLog) (location : String) : Option Blob :=
  log.blobs.find? fun blob => blob.location == location

/-- Appends a content with a time, unless it is there already. -/
def append (log : BlobLog) (content : String) (time : Timestamp) : AppendResult × BlobLog :=
  let location := ContentHash.ofText content
  match log.find? location with
  | some blob => (⟨location, blob.info⟩, log)
  | none =>
    let info := StorageMeta.ofTimestamp time
    (⟨location, info⟩, ⟨log.blobs ++ [⟨location, content, info⟩]⟩)

/-- The content at a location. -/
def read (log : BlobLog) (location : String) : Except StorageError ReadResult :=
  match log.find? location with
  | some blob => .ok ⟨blob.content, blob.info⟩
  | none => .error (.notFound location)

/-- The blobs of a window. -/
def select (log : BlobLog) (window : Option Window) : List Blob :=
  log.blobs.filter fun blob => Window.admits window blob.info.timestamp

/-- The answer for a window. It covers the window up to its end, or up to `now` if it has none. -/
def data (log : BlobLog) (window : Option Window) (now : Timestamp) : StorageData :=
  let blobs := log.select window
  { contents := some (blobs.map (·.content))
    locations := some (blobs.map (·.location))
    lastTimestamp := (window.bind (·.upper)).getD now
    infos := blobs.map (·.info) }

end BlobLog

end Invoicing
