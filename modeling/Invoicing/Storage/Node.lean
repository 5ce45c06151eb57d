import Invoicing.Faults
import Invoicing.Storage.Log

set_option autoImplicit false

/-! # The storage node

A node serves a log of blobs to anyone. Its answers can be prescribed, and a prescribed answer comes before all
else; queries for data can also fail as a schedule of faults says. The node keeps a journal of what it was asked. -/

namespace Invoicing

/-- Answers that are given whatever the log holds. -/
structure Script where
  /-- Failures of the next calls that set the node up. -/
  setUpFailures : List StorageError
  /-- Answers to the next calls that append. -/
  appends : List (Except StorageError AppendResult)
  /-- Answers to the next queries for data. -/
  data : List (Except StorageError StorageData)
  /-- Answers to all reads of a location; the first one counts. -/
  reads : List (String × Except StorageError ReadResult)
  /-- Is the script the only source of data? -/
  exclusive : Bool

def Script.empty : Script := ⟨[], [], [], [], false⟩

/-- What the node was asked. -/
structure Journal where
  /-- The windows of the queries for data, in order. -/
  requested : List (Option Window)
  /-- The locations that were read, in order. -/
  reads : List String

def Journal.empty : Journal := ⟨[], []⟩

/-- A log of blobs and the ways in which its service departs from it. -/
structure StorageNode where
  log : BlobLog
  faults : Faults
  script : Script
  journal : Journal

namespace StorageNode

def empty : StorageNode := ⟨.empty, .never, .empty, .empty⟩

instance : Inhabited StorageNode := ⟨empty⟩

/-- The same node with a new journal. -/
def clearJournal (node : StorageNode) : StorageNode := { node with journal := .empty }

/-! ## Calls -/

/-- Sets the node up, which succeeds unless the script says otherwise. -/
def setUp (node : StorageNode) : Except StorageError Unit × StorageNode :=
  match node.script.setUpFailures with
  | error :: rest => (.error error, { node with script.setUpFailures := rest })
  | [] => (.ok (), node)

/-- Appends a content at the time `now`. -/
def append (node : StorageNode) (content : String) (now : Timestamp) :
    Except StorageError AppendResult × StorageNode :=
  match node.script.appends with
  | answer :: rest => (answer, { node with script.appends := rest })
  | [] =>
    let (result, log) := node.log.append content now
    (.ok result, { node with log })

/-- Reads the content at a location. -/
def read (node : StorageNode) (location : String) : Except StorageError ReadResult × StorageNode :=
  let node := { node with journal.reads := node.journal.reads ++ [location] }
  match node.script.reads.lookup location with
  | some answer => (answer, node)
  | none => (node.log.read location, node)

/-- The blobs of a window. -/
def data (node : StorageNode) (window : Option Window) (now : Timestamp) :
    Except StorageError StorageData × StorageNode :=
  let node := { node with journal.requested := node.journal.requested ++ [window] }
  match node.script.data with
  | answer :: rest => (answer, { node with script.data := rest })
  | [] =>
    if node.script.exclusive then (.error (.unavailable "script exhausted"), node)
    else
      let counted := { node with faults := node.faults.tick }
      if node.faults.failing then (.error (.unavailable "injected get_data failure"), counted)
      else (.ok (node.log.data window now), counted)

/-! ## Interventions -/

/-- Someone else appends a content with a time of their own. -/
def store (node : StorageNode) (content : String) (time : Timestamp) : AppendResult × StorageNode :=
  let (result, log) := node.log.append content time
  (result, { node with log })

def failData (node : StorageNode) (count : Nat) : StorageNode :=
  { node with faults := node.faults.next count }

def scriptSetUpFailure (node : StorageNode) (error : StorageError) : StorageNode :=
  { node with script.setUpFailures := node.script.setUpFailures ++ [error] }

def scriptAppend (node : StorageNode) (answer : Except StorageError AppendResult) : StorageNode :=
  { node with script.appends := node.script.appends ++ [answer] }

def scriptData (node : StorageNode) (answer : Except StorageError StorageData) : StorageNode :=
  { node with script.data := node.script.data ++ [answer] }

def scriptRead (node : StorageNode) (location : String) (answer : Except StorageError ReadResult) :
    StorageNode :=
  { node with script.reads := (location, answer) :: node.script.reads }

end StorageNode

end Invoicing
