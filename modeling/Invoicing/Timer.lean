set_option autoImplicit false

/-! # The interval timer

A timer runs a task again and again: an interval passes, then the task is called until it succeeds or the
attempts are used up, and then the next interval begins. Time is counted in milliseconds and passes only between
calls, so a call that takes time ends at an instant of its own. What a user of the timer does at an instant comes before
the calls of that instant. At most one loop answers to `stop`; a loop that is stopped in the middle of a call
ends when that tick is over. -/

namespace Invoicing

/-- How one call of a task goes. -/
inductive Outcome where
  /-- It ends after some milliseconds, well or not. -/
  | ends (after : Nat) (succeeds : Bool)
  /-- It breaks down and takes the loop with it. -/
  | breaks
deriving DecidableEq, Repr

namespace Timer

/-- What a loop does next. -/
inductive Phase where
  /-- The interval ends at `due`. -/
  | waiting (due : Nat)
  /-- The call in flight ends at `due`, and `left` attempts remain after it. -/
  | calling (due : Nat) (succeeds : Bool) (left : Nat)
deriving DecidableEq, Repr

/-- The instant at which the loop goes on. -/
def Phase.due : Phase → Nat
  | waiting due => due
  | calling due _ _ => due

/-- A loop with the state of its task. -/
structure Loop (τ : Type) where
  task : τ
  phase : Phase

/-- How many calls were begun and how many have ended. -/
structure Tally where
  begun : Nat
  ended : Nat
deriving DecidableEq, Repr

/-- What becomes of a tick. -/
inductive Tick where
  | over
  | broken
  | inFlight (phase : Phase)
deriving DecidableEq, Repr

variable {τ σ : Type}

/-- Calls the task at the instant `now` until it succeeds, takes time, breaks down or has used up its
attempts. -/
def attempt (call : τ → σ → Outcome × τ × σ) (now : Nat) : Nat → Tally → τ → σ → Tick × Tally × τ × σ
  | 0, tally, task, world => (.over, tally, task, world)
  | left + 1, tally, task, world =>
    match call task world with
    | (.breaks, task, world) => (.broken, { tally with begun := tally.begun + 1 }, task, world)
    | (.ends 0 true, task, world) => (.over, ⟨tally.begun + 1, tally.ended + 1⟩, task, world)
    | (.ends 0 false, task, world) =>
      attempt call now left ⟨tally.begun + 1, tally.ended + 1⟩ task world
    | (.ends (after + 1) succeeds, task, world) =>
      (.inFlight (.calling (now + (after + 1)) succeeds left),
        { tally with begun := tally.begun + 1 }, task, world)

/-- Goes on with a loop at the instant `now`, at which it is due. -/
def proceed (call : τ → σ → Outcome × τ × σ) (attempts now : Nat) (tally : Tally) (loop : Loop τ)
    (world : σ) : Tick × Tally × τ × σ :=
  match loop.phase with
  | .waiting _ => attempt call now attempts tally loop.task world
  | .calling _ true _ => (.over, { tally with ended := tally.ended + 1 }, loop.task, world)
  | .calling _ false left =>
    attempt call now left { tally with ended := tally.ended + 1 } loop.task world

end Timer

/-- A timer for tasks with states of type `τ`. -/
structure Timer (τ : Type) where
  interval : Nat
  attempts : Nat
  /-- The present instant: all that was due before it is done, and what is due at it is still to come. -/
  now : Nat
  /-- The loop that answers to `stop`. -/
  current : Option (Timer.Loop τ)
  /-- Stopped loops whose tick is not over. -/
  leaving : List (Timer.Loop τ)
  tally : Timer.Tally

namespace Timer

variable {τ σ : Type}

/-- A timer without a loop. A tick has at least one attempt. -/
def new (interval attempts now : Nat) : Timer τ :=
  ⟨interval, max attempts 1, now, none, [], ⟨0, 0⟩⟩

def isRunning (t : Timer τ) : Bool := t.current.isSome

/-- Starts a loop, unless one is running. -/
def start (t : Timer τ) (task : τ) : Bool × Timer τ :=
  match t.current with
  | some _ => (false, t)
  | none => (true, { t with current := some ⟨task, .waiting (t.now + t.interval)⟩ })

/-- Lets go of the running loop. A call in flight ends, and so does its tick. -/
def stop (t : Timer τ) : Timer τ :=
  match t.current with
  | none => t
  | some loop =>
    match loop.phase with
    | .waiting _ => { t with current := none }
    | .calling _ _ _ => { t with current := none, leaving := t.leaving ++ [loop] }

/-! ## Passing time -/

/-- The instants at which loops go on. -/
def dues (t : Timer τ) : List Nat := (t.leaving ++ t.current.toList).map (·.phase.due)

/-- The next instant at which a loop goes on. -/
def nextDue? (t : Timer τ) : Option Nat := t.dues.min?.map (max t.now)

/-- Goes on with the stopped loops that are due. -/
def proceedLeaving (call : τ → σ → Outcome × τ × σ) (attempts now : Nat) (tally : Tally) (world : σ) :
    List (Loop τ) → List (Loop τ) × Tally × σ
  | [] => ([], tally, world)
  | loop :: rest =>
    if loop.phase.due ≤ now then
      let (tick, tally, task, world) := proceed call attempts now tally loop world
      let (rest, tally, world) := proceedLeaving call attempts now tally world rest
      match tick with
      | .inFlight phase => (⟨task, phase⟩ :: rest, tally, world)
      -- No interval follows the tick of a stopped loop.
      | _ => (rest, tally, world)
    else
      let (rest, tally, world) := proceedLeaving call attempts now tally world rest
      (loop :: rest, tally, world)

/-- Goes on with the running loop if it is due. -/
def proceedCurrent (call : τ → σ → Outcome × τ × σ) (interval attempts now : Nat) (tally : Tally)
    (world : σ) : Option (Loop τ) → Option (Loop τ) × Tally × σ
  | none => (none, tally, world)
  | some loop =>
    if loop.phase.due ≤ now then
      match proceed call attempts now tally loop world with
      | (.inFlight phase, tally, task, world) => (some ⟨task, phase⟩, tally, world)
      | (.broken, tally, _, world) => (none, tally, world)
      | (.over, tally, task, world) => (some ⟨task, .waiting (now + interval)⟩, tally, world)
    else (some loop, tally, world)

/-- Goes on with all loops that are due at the instant `now`, which is over then. -/
def fire (call : τ → σ → Outcome × τ × σ) (t : Timer τ) (now : Nat) (world : σ) : Timer τ × σ :=
  let (leaving, tally, world) := proceedLeaving call t.attempts now t.tally world t.leaving
  let (current, tally, world) := proceedCurrent call t.interval t.attempts now tally world t.current
  ({ t with now := now + 1, current, leaving, tally }, world)

theorem now_fire (call : τ → σ → Outcome × τ × σ) (t : Timer τ) (now : Nat) (world : σ) :
    (t.fire call now world).1.now = now + 1 := rfl

theorem le_of_nextDue? {t : Timer τ} {now : Nat} (h : t.nextDue? = some now) : t.now ≤ now := by
  obtain ⟨due, _, rfl⟩ := Option.map_eq_some_iff.1 h
  omega

/-- Does all that is due before `limit`. -/
def advanceTo (call : τ → σ → Outcome × τ × σ) (limit : Nat) (t : Timer τ) (world : σ) : Timer τ × σ :=
  match h : t.nextDue? with
  | none => ({ t with now := limit }, world)
  | some now =>
    if hlt : now < limit then
      let next := t.fire call now world
      have : limit - next.1.now < limit - t.now := by
        have := le_of_nextDue? h
        simp only [next, now_fire]
        omega
      advanceTo call limit next.1 next.2
    else ({ t with now := limit }, world)
termination_by limit - t.now

/-- Lets some milliseconds pass. -/
def advance (call : τ → σ → Outcome × τ × σ) (t : Timer τ) (ms : Nat) (world : σ) : Timer τ × σ :=
  advanceTo call (t.now + ms) t world

/-! ## Prescribed tasks -/

/-- A task that goes as a list says; its last outcome repeats, and an empty list stands for success. -/
def followScript : List Outcome → Unit → Outcome × List Outcome × Unit
  | [], world => (.ends 0 true, [], world)
  | [last], world => (last, [last], world)
  | outcome :: rest, world => (outcome, rest, world)

end Timer

end Invoicing
