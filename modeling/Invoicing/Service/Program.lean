import Invoicing.Index.Basic
import Invoicing.Service.Error
import Invoicing.Storage.Node

set_option autoImplicit false

/-! # Programs of the data service

What the service does is a program of calls to its surroundings: a storage node, an index and a clock. Each call takes
effect at once and as a whole, so a program says all there is to say about where other parties can step in
between. `Program.run` makes all calls of one program in a row. -/

namespace Invoicing

/-! ## The surroundings -/

/-- What the service works on. -/
structure Site where
  storage : StorageNode
  index : Index
  clock : Clock
  /-- The time of the service, if it does not look at the clock of the site. -/
  ownTime : Option Timestamp

namespace Site

/-- A site without data at the time `now`. -/
def empty (now : Timestamp) : Site := ⟨.empty, .empty, ⟨now⟩, none⟩

/-- The time that the service sees. -/
def serviceTime (site : Site) : Timestamp := site.ownTime.getD site.clock.now

end Site

/-- A call and the type of its answer. -/
inductive Call : Type → Type where
  | now : Call Timestamp
  | setUpStorage : Call (Except StorageError Unit)
  | append (content : String) : Call (Except StorageError AppendResult)
  | read (location : String) : Call (Except StorageError ReadResult)
  | data (window : Option Window) : Call (Except StorageError StorageData)
  | setUpIndex : Call (Except IndexError Unit)
  | add (location : String) (header : BlockHeader) (time : Timestamp) : Call (Except IndexError Unit)
  | locations (channel : String) (window : Option Window) : Call (Except IndexError (List String))
  | channels (topics : List String) (window : Option Window) : Call (Except IndexError (List String))
  | lastTimestamp : Call (Except IndexError (Option Timestamp))

namespace Call

def onStorage {α : Type} (site : Site) (f : StorageNode → α × StorageNode) : α × Site :=
  let (answer, storage) := f site.storage
  (answer, { site with storage })

def onIndex {α : Type} (site : Site) (f : Index → α × Index) : α × Site :=
  let (answer, index) := f site.index
  (answer, { site with index })

/-- The answer to a call and the site after it. -/
def run {α : Type} : Call α → Site → α × Site
  | now, site => (site.serviceTime, site)
  | setUpStorage, site => onStorage site StorageNode.setUp
  | append content, site => onStorage site fun node => node.append content site.clock.now
  | read location, site => onStorage site fun node => node.read location
  | data window, site => onStorage site fun node => node.data window site.clock.now
  | setUpIndex, site => onIndex site Index.setUp
  | add location header time, site => onIndex site fun index => index.run (Index.add location header time)
  | locations channel window, site => onIndex site fun index => index.run (Index.locations channel window)
  | channels topics window, site =>
    onIndex site fun index => index.run (Index.channelsOfTopics topics window)
  | lastTimestamp, site => onIndex site fun index => index.run Index.lastTimestamp

end Call

/-! ## Programs -/

/-- A program: either done, or a call and what to do with its answer. -/
inductive Program (α : Type) : Type 1 where
  | done (result : α)
  | call {β : Type} (c : Call β) (next : β → Program α)

namespace Program

variable {α β γ : Type}

def bind : Program α → (α → Program β) → Program β
  | done a, f => f a
  | call c next, f => call c fun answer => (next answer).bind f

instance : Monad Program where
  pure := done
  bind := bind

@[simp] theorem bind_done (p : Program α) : p.bind done = p := by
  induction p with
  | done a => rfl
  | call c next ih => simp only [bind, ih]

theorem bind_assoc (p : Program α) (f : α → Program β) (g : β → Program γ) :
    (p.bind f).bind g = p.bind fun a => (f a).bind g := by
  induction p with
  | done a => rfl
  | call c next ih => simp only [bind, ih]

instance : LawfulMonad Program := LawfulMonad.mk' Program bind_done (fun _ _ => rfl) bind_assoc

/-- The program of a single call. -/
def ofCall (c : Call α) : Program α := call c done

/-- Makes all calls of a program in a row. -/
def run : Program α → Site → α × Site
  | done a, site => (a, site)
  | call c next, site =>
    let (answer, site) := c.run site
    (next answer).run site

@[simp] theorem run_pure (a : α) (site : Site) : (pure a : Program α).run site = (a, site) := rfl

@[simp] theorem run_ofCall (c : Call α) (site : Site) : (ofCall c).run site = c.run site := rfl

@[simp] theorem run_bind (p : Program α) (f : α → Program β) (site : Site) :
    (p >>= f).run site = (f (p.run site).1).run (p.run site).2 := by
  change (p.bind f).run site = _
  induction p generalizing site with
  | done a => rfl
  | call c next ih => simp only [bind, run, ih]

end Program

/-! ## Tasks -/

/-- A program that may end early with an error. -/
abbrev Task (α : Type) := ExceptT ServiceError Program α

namespace Task

variable {α : Type}

/-- Makes all calls of a task in a row. -/
def run (t : Task α) (site : Site) : Except ServiceError α × Site := Program.run (ExceptT.run t) site

def now : Task Timestamp := ExceptT.lift (Program.ofCall .now)

/-- A call to the storage; its error ends the task. -/
def ofStorage (c : Call (Except StorageError α)) : Task α := do
  match (← ExceptT.lift (Program.ofCall c)) with
  | .ok a => return a
  | .error e => throw (.storage e)

/-- A call to the index; its error ends the task. -/
def ofIndex (c : Call (Except IndexError α)) : Task α := do
  match (← ExceptT.lift (Program.ofCall c)) with
  | .ok a => return a
  | .error e => throw (.index e)

/-- Ends the task unless the outcome is good. -/
def ofBlock (outcome : Except BlockError α) : Task α :=
  match outcome with
  | .ok a => return a
  | .error e => throw (.block e)

end Task

end Invoicing
