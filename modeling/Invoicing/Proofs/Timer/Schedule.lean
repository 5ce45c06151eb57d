import Invoicing.Proofs.Timer
import Invoicing.Proofs.Timer.Notes
import Mathlib.Data.Nat.Find

set_option autoImplicit false

/-! # The schedule of a timer

When the calls of a task begin and end follows from how each of them goes. A `Schedule` says this in the words of ticks
and attempts, for one loop that is never stopped, and a timer keeps to it: at every instant it has begun and ended the
calls that the schedule has before this instant (`Timer.follows_schedule`). The invariant is `Schedule.Stands`, which
says where in the schedule a loop is. -/

namespace Invoicing

/-- How long a call takes. -/
def Outcome.time : Outcome → Nat
  | ends after _ => after
  | breaks => 0

namespace Timer

/-! ## Schedules -/

/-- What the calls of a loop go by. The calls are numbered in their order, from one tick to the next. -/
structure Schedule where
  interval : Nat
  /-- How many calls a tick can make. -/
  budget : Nat
  start : Nat
  /-- How each call goes. -/
  outcome : Nat → Outcome

namespace Schedule

/-- A call begins, as one of the attempts of its tick, at an instant. -/
inductive Begins (s : Schedule) : Nat → Nat → Nat → Prop where
  /-- The first tick begins an interval after the start. -/
  | first : Begins s 0 1 (s.start + s.interval)
  /-- A call that fails is followed at once by another, while the tick has attempts left. -/
  | retry {n attempt instant after : Nat} (h : Begins s n attempt instant) (hfails : s.outcome n = .ends after false)
      (hleft : attempt < s.budget) : Begins s (n + 1) (attempt + 1) (instant + after)
  /-- A call that succeeds and one that uses up the attempts end the tick, and the next one begins an interval later. -/
  | next {n attempt instant after : Nat} {succeeds : Bool} (h : Begins s n attempt instant)
      (hends : s.outcome n = .ends after succeeds) (hover : succeeds = true ∨ attempt = s.budget) :
      Begins s (n + 1) 1 (instant + after + s.interval)

/-- A call ends at an instant. -/
def Ends (s : Schedule) (n instant : Nat) : Prop :=
  ∃ attempt begun after succeeds, s.Begins n attempt begun ∧ s.outcome n = .ends after succeeds ∧
    instant = begun + after

/-- A call begins at an instant and breaks down. -/
def Breaks (s : Schedule) (n instant : Nat) : Prop := ∃ attempt, s.Begins n attempt instant ∧ s.outcome n = .breaks

/-- How long some calls in a row take. -/
def taken (s : Schedule) (n : Nat) : Nat → Nat
  | 0 => 0
  | count + 1 => s.taken n count + (s.outcome (n + count)).time

/-- The tick that a call begins at an instant, up to its last call: its calls come back to back, and all of them fail
but the last one at most. If that one breaks down there is no call after it. Otherwise it succeeds or is the last
attempt, and the next tick begins an interval after its end. -/
structure IsTick (s : Schedule) (n instant last : Nat) : Prop where
  bounded : last < s.budget
  begins : ∀ i ≤ last, s.Begins (n + i) (i + 1) (instant + s.taken n i)
  fails : ∀ i < last, (s.outcome (n + i)).fails = true
  ends : (s.outcome (n + last) = .breaks ∧ ∀ later attempt begun, s.Begins later attempt begun → later ≤ n + last) ∨
    ∃ after succeeds, s.outcome (n + last) = .ends after succeeds ∧ (succeeds = true ∨ last + 1 = s.budget) ∧
      s.Begins (n + last + 1) 1 (instant + s.taken n (last + 1) + s.interval)

variable {s : Schedule} {n attempt instant now : Nat}

/-! ## Calls in their order -/

/-- A call that fails while there are attempts left does not end its tick. -/
theorem not_over {after after' : Nat} {succeeds : Bool} (hfails : s.outcome n = .ends after false)
    (hends : s.outcome n = .ends after' succeeds) (hleft : attempt < s.budget) :
    ¬ (succeeds = true ∨ attempt = s.budget) := by
  cases hfails.symm.trans hends
  simp only [Bool.false_eq_true, false_or]
  omega

/-- No call begins twice. -/
theorem Begins.unique {attempt' instant' : Nat} (h : s.Begins n attempt instant) (h' : s.Begins n attempt' instant') :
    attempt = attempt' ∧ instant = instant' := by
  induction n generalizing attempt instant attempt' instant' with
  | zero =>
    cases h
    cases h'
    exact ⟨rfl, rfl⟩
  | succ n ih =>
    cases h with
    | retry h hfails hleft =>
      cases h' with
      | retry h' hfails' hleft' =>
        obtain ⟨rfl, rfl⟩ := ih h h'
        cases hfails.symm.trans hfails'
        exact ⟨rfl, rfl⟩
      | next h' hends hover =>
        obtain ⟨rfl, rfl⟩ := ih h h'
        exact absurd hover (not_over hfails hends hleft)
    | next h hends hover =>
      cases h' with
      | retry h' hfails hleft =>
        obtain ⟨rfl, rfl⟩ := ih h h'
        exact absurd hover (not_over hfails hends hleft)
      | next h' hends' hover' =>
        obtain ⟨rfl, rfl⟩ := ih h h'
        cases hends.symm.trans hends'
        exact ⟨rfl, rfl⟩

theorem Ends.begins {ended : Nat} (h : s.Ends n ended) :
    ∃ attempt instant, s.Begins n attempt instant ∧ instant ≤ ended := by
  obtain ⟨attempt, begun, after, succeeds, hbegins, -, rfl⟩ := h
  exact ⟨attempt, begun, hbegins, Nat.le_add_right _ _⟩

theorem Ends.unique {ended ended' : Nat} (h : s.Ends n ended) (h' : s.Ends n ended') : ended = ended' := by
  obtain ⟨_, _, _, _, hbegins, hends, rfl⟩ := h
  obtain ⟨_, _, _, _, hbegins', hends', rfl⟩ := h'
  obtain ⟨-, rfl⟩ := hbegins.unique hbegins'
  cases hends.symm.trans hends'
  rfl

theorem Ends.outcome_ne {ended : Nat} (h : s.Ends n ended) : s.outcome n ≠ .breaks := by
  obtain ⟨_, _, _, _, -, hends, -⟩ := h
  simp [hends]

/-- A call begins when the one before it has ended. -/
theorem Begins.previous (h : s.Begins (n + 1) attempt instant) : ∃ ended, s.Ends n ended ∧ ended ≤ instant := by
  cases h with
  | retry h hfails hleft => exact ⟨_, ⟨_, _, _, _, h, hfails, rfl⟩, Nat.le_refl _⟩
  | next h hends hover => exact ⟨_, ⟨_, _, _, _, h, hends, rfl⟩, Nat.le_add_right _ _⟩

/-- All calls before one that begins have ended. -/
theorem Begins.earlier (h : s.Begins n attempt instant) : ∀ m < n, ∃ ended, s.Ends m ended ∧ ended ≤ instant := by
  induction n generalizing attempt instant with
  | zero =>
    intro m hm
    omega
  | succ n ih =>
    intro m hm
    obtain ⟨ended, hended, hle⟩ := h.previous
    by_cases hlast : m = n
    · subst hlast
      exact ⟨ended, hended, hle⟩
    · obtain ⟨attempt', instant', hbegins, hle'⟩ := hended.begins
      obtain ⟨ended', hended', hle''⟩ := ih hbegins m (by omega)
      exact ⟨ended', hended', by omega⟩

/-- All calls up to one that begins have begun. -/
theorem Begins.begun (h : s.Begins n attempt instant) {m : Nat} (hm : m ≤ n) :
    ∃ attempt' instant', s.Begins m attempt' instant' ∧ instant' ≤ instant := by
  rcases Nat.lt_or_eq_of_le hm with hlt | rfl
  · obtain ⟨ended, hended, hle⟩ := h.earlier m hlt
    obtain ⟨attempt', instant', hbegins, hle'⟩ := hended.begins
    exact ⟨attempt', instant', hbegins, by omega⟩
  · exact ⟨attempt, instant, h, Nat.le_refl instant⟩

theorem Begins.le {m attempt' instant' : Nat} (h : s.Begins m attempt' instant') (h' : s.Begins n attempt instant)
    (hm : m ≤ n) : instant' ≤ instant := by
  obtain ⟨_, _, hbegins, hle⟩ := h'.begun hm
  obtain ⟨-, rfl⟩ := h.unique hbegins
  exact hle

theorem Ends.le_begins {m ended : Nat} (h : s.Ends m ended) (h' : s.Begins n attempt instant) (hm : m < n) :
    ended ≤ instant := by
  obtain ⟨ended', hended', hle⟩ := h'.earlier m hm
  obtain rfl := h.unique hended'
  exact hle

theorem Ends.le {m ended ended' : Nat} (h : s.Ends m ended) (h' : s.Ends n ended') (hm : m ≤ n) : ended ≤ ended' := by
  rcases Nat.lt_or_eq_of_le hm with hlt | rfl
  · obtain ⟨_, _, hbegins, hle⟩ := h'.begins
    exact Nat.le_trans (h.le_begins hbegins hlt) hle
  · exact Nat.le_of_eq (h.unique h')

/-- Nothing comes after a call that breaks down. -/
theorem Begins.le_of_breaks {later : Nat} (h : s.Begins later attempt instant) (hbreaks : s.outcome n = .breaks) :
    later ≤ n := by
  by_contra hlt
  obtain ⟨ended, hended, -⟩ := h.earlier n (by omega)
  exact hended.outcome_ne hbreaks

/-! ## Ticks -/

/-- While its calls fail, a tick goes on. -/
theorem Begins.row (h : s.Begins n 1 instant) {i : Nat} (hbounded : i < s.budget)
    (hfails : ∀ j < i, (s.outcome (n + j)).fails = true) : s.Begins (n + i) (i + 1) (instant + s.taken n i) := by
  induction i with
  | zero => exact h
  | succ i ih =>
    have hbegins := ih (by omega) fun j hj => hfails j (by omega)
    have hfailed := hfails i (by omega)
    unfold taken
    cases hends : s.outcome (n + i) with
    | breaks =>
      rw [hends] at hfailed
      cases hfailed
    | ends after succeeds =>
      rw [hends] at hfailed
      obtain rfl : succeeds = false := by simpa [Outcome.fails] using hfailed
      have hnext := hbegins.retry hends (by omega)
      rwa [Nat.add_assoc, Nat.add_assoc instant] at hnext

/-- Every tick makes its calls back to back, until one does not fail or the attempts are used up. -/
theorem Begins.isTick (h : s.Begins n 1 instant) (hbudget : 1 ≤ s.budget) : ∃ last, s.IsTick n instant last := by
  -- The last call is the first one that does not fail or that uses up the attempts.
  have hstops : ∃ i, (s.outcome (n + i)).fails = false ∨ i + 1 = s.budget := ⟨s.budget - 1, .inr (by omega)⟩
  have hlast := Nat.find_spec hstops
  have hbefore (i : Nat) (hi : i < Nat.find hstops) := not_or.1 (Nat.find_min hstops hi)
  generalize Nat.find hstops = last at hlast hbefore
  have hfails : ∀ i < last, (s.outcome (n + i)).fails = true := fun i hi => by simpa using (hbefore i hi).1
  have hbounded : ∀ i ≤ last, i < s.budget := by
    intro i
    induction i with
    | zero =>
      intro _
      omega
    | succ i ih =>
      intro hi
      have hlt := ih (by omega)
      have hne := (hbefore i (by omega)).2
      omega
  have hbegins : ∀ i ≤ last, s.Begins (n + i) (i + 1) (instant + s.taken n i) := by
    intro i hi
    exact h.row (hbounded i hi) fun j hj => hfails j (by omega)
  refine ⟨last, hbounded last (Nat.le_refl last), hbegins, hfails, ?_⟩
  cases hends : s.outcome (n + last) with
  | breaks => exact .inl ⟨rfl, fun later attempt begun hlater => hlater.le_of_breaks hends⟩
  | ends after succeeds =>
    have hover : succeeds = true ∨ last + 1 = s.budget := by
      rw [hends] at hlast
      simpa [Outcome.fails] using hlast
    have hnext := (hbegins last (Nat.le_refl last)).next hends hover
    refine .inr ⟨after, succeeds, rfl, hover, ?_⟩
    rwa [taken, hends, Outcome.time, ← Nat.add_assoc]

/-! ## Where a loop is -/

/-- All calls before a number have ended before an instant. -/
def Past (s : Schedule) (n now : Nat) : Prop := ∀ m < n, ∃ ended, s.Ends m ended ∧ ended < now

theorem Begins.past (h : s.Begins n attempt instant) (hnow : instant < now) : s.Past n now := by
  intro m hm
  obtain ⟨ended, hended, hle⟩ := h.earlier m hm
  exact ⟨ended, hended, by omega⟩

theorem Ends.past (h : s.Ends n now) : s.Past (n + 1) (now + 1) := by
  intro m hm
  by_cases hlast : m = n
  · subst hlast
    exact ⟨now, h, Nat.lt_succ_self now⟩
  · obtain ⟨attempt, instant, hbegins, hle⟩ := h.begins
    exact hbegins.past (Nat.lt_succ_of_le hle) m (by omega)

theorem Past.mono {later : Nat} (h : s.Past n now) (hle : now ≤ later) : s.Past n later := by
  intro m hm
  obtain ⟨ended, hended, hlt⟩ := h m hm
  exact ⟨ended, hended, by omega⟩

/-- A loop in a phase and the tally of its calls stand where the schedule is before an instant. -/
inductive Stands (s : Schedule) (now : Nat) : Option Phase → Tally → Prop where
  | waiting {n due : Nat} (past : s.Past n now) (begins : s.Begins n 1 due) (hdue : now ≤ due) :
      Stands s now (some (.waiting due)) ⟨n, n⟩
  | calling {n attempt instant after left : Nat} {succeeds : Bool} (begins : s.Begins n attempt instant)
      (hbegun : instant < now) (ends : s.outcome n = .ends after succeeds) (hdue : now ≤ instant + after)
      (hleft : left + attempt = s.budget) : Stands s now (some (.calling (instant + after) succeeds left)) ⟨n + 1, n⟩
  | broken {n attempt instant : Nat} (begins : s.Begins n attempt instant) (hbegun : instant < now)
      (breaks : s.outcome n = .breaks) : Stands s now none ⟨n + 1, n⟩

namespace Stands

variable {phase : Option Phase} {tally : Tally}

/-- The calls that have begun are those that the schedule has before the instant. -/
theorem begun_iff (h : s.Stands now phase tally) (m : Nat) :
    m < tally.begun ↔ ∃ attempt instant, s.Begins m attempt instant ∧ instant < now := by
  cases h with
  | @waiting n due past begins hdue =>
    constructor
    · intro hm
      obtain ⟨ended, hended, hlt⟩ := past m hm
      obtain ⟨attempt, instant, hbegins, hle⟩ := hended.begins
      exact ⟨attempt, instant, hbegins, by omega⟩
    · rintro ⟨attempt, instant, hbegins, hlt⟩
      by_contra hge
      have hle := begins.le hbegins (Nat.le_of_not_lt hge)
      omega
  | @calling n attempt instant after left succeeds begins hbegun ends hdue hleft =>
    constructor
    · intro hm
      obtain ⟨attempt', instant', hbegins, hle⟩ := begins.begun (Nat.le_of_lt_succ hm)
      exact ⟨attempt', instant', hbegins, by omega⟩
    · rintro ⟨attempt', instant', hbegins, hlt⟩
      by_contra hge
      have hended : s.Ends n (instant + after) := ⟨attempt, instant, after, succeeds, begins, ends, rfl⟩
      have hle := hended.le_begins hbegins (Nat.lt_of_succ_le (Nat.le_of_not_lt hge))
      omega
  | @broken n attempt instant begins hbegun breaks =>
    constructor
    · intro hm
      obtain ⟨attempt', instant', hbegins, hle⟩ := begins.begun (Nat.le_of_lt_succ hm)
      exact ⟨attempt', instant', hbegins, by omega⟩
    · rintro ⟨attempt', instant', hbegins, -⟩
      exact Nat.lt_succ_of_le (hbegins.le_of_breaks breaks)

/-- The calls that have ended are those that the schedule has end before the instant. -/
theorem ended_iff (h : s.Stands now phase tally) (m : Nat) :
    m < tally.ended ↔ ∃ ended, s.Ends m ended ∧ ended < now := by
  cases h with
  | @waiting n due past begins hdue =>
    refine ⟨past m, ?_⟩
    rintro ⟨ended, hended, hlt⟩
    by_contra hge
    obtain ⟨_, _, hbegins, hle⟩ := hended.begins
    have hle' := begins.le hbegins (Nat.le_of_not_lt hge)
    omega
  | @calling n attempt instant after left succeeds begins hbegun ends hdue hleft =>
    refine ⟨begins.past hbegun m, ?_⟩
    rintro ⟨ended, hended, hlt⟩
    by_contra hge
    have hlast : s.Ends n (instant + after) := ⟨attempt, instant, after, succeeds, begins, ends, rfl⟩
    have hle := hlast.le hended (Nat.le_of_not_lt hge)
    omega
  | @broken n attempt instant begins hbegun breaks =>
    refine ⟨begins.past hbegun m, ?_⟩
    rintro ⟨ended, hended, -⟩
    obtain ⟨_, _, hbegins, -⟩ := hended.begins
    rcases Nat.lt_or_eq_of_le (hbegins.le_of_breaks breaks) with hlt | rfl
    · exact hlt
    · exact absurd breaks hended.outcome_ne

/-- There is a loop unless a call has broken down before the instant. -/
theorem isSome_iff (h : s.Stands now phase tally) :
    phase.isSome = true ↔ ¬ ∃ n instant, s.Breaks n instant ∧ instant < now := by
  have hended {m instant : Nat} (hbreaks : s.Breaks m instant) : ¬ m < tally.ended := by
    intro hm
    obtain ⟨attempt, -, hbroken⟩ := hbreaks
    obtain ⟨ended, hended, -⟩ := (h.ended_iff m).1 hm
    exact hended.outcome_ne hbroken
  have hbegun {m instant : Nat} (hbreaks : s.Breaks m instant) (hlt : instant < now) : m < tally.begun := by
    obtain ⟨attempt, hbegins, -⟩ := hbreaks
    exact (h.begun_iff m).2 ⟨attempt, instant, hbegins, hlt⟩
  cases h with
  | @waiting n due past begins hdue =>
    -- Every call that has begun has ended, so none of them broke down.
    refine ⟨fun _ => ?_, fun _ => rfl⟩
    rintro ⟨m, instant, hbreaks, hlt⟩
    exact hended hbreaks (hbegun hbreaks hlt)
  | @calling n attempt instant after left succeeds begins hbegun' ends hdue hleft =>
    refine ⟨fun _ => ?_, fun _ => rfl⟩
    rintro ⟨m, instant', hbreaks, hlt⟩
    have hm := hbegun hbreaks hlt
    have hm' := hended hbreaks
    obtain rfl : m = n := by
      simp only at hm hm'
      omega
    obtain ⟨-, -, hbroken⟩ := hbreaks
    cases ends.symm.trans hbroken
  | @broken n attempt instant begins hbegun' breaks =>
    refine ⟨nofun, fun hnone => ?_⟩
    exact absurd ⟨n, instant, ⟨attempt, begins, breaks⟩, hbegun'⟩ hnone

/-- While nothing is due, the loop stands where it did. -/
theorem later (h : s.Stands now phase tally) (hdue : ∀ p ∈ phase, now < p.due) : s.Stands (now + 1) phase tally := by
  cases h with
  | waiting past begins hnow => exact .waiting (past.mono (Nat.le_succ now)) begins (hdue _ rfl)
  | calling begins hbegun ends hnow hleft => exact .calling begins (Nat.lt_succ_of_lt hbegun) ends (hdue _ rfl) hleft
  | broken begins hbegun breaks => exact .broken begins (Nat.lt_succ_of_lt hbegun) breaks

end Stands

/-- What has become of a tick at an instant, with the tally of all calls, is what the schedule says. -/
inductive Comes (s : Schedule) (now : Nat) : Tick → Tally → Prop where
  | finished {n : Nat} (past : s.Past n (now + 1)) (begins : s.Begins n 1 (now + s.interval)) :
      Comes s now .over ⟨n, n⟩
  | broken {n attempt : Nat} (begins : s.Begins n attempt now) (breaks : s.outcome n = .breaks) :
      Comes s now .broken ⟨n + 1, n⟩
  | inFlight {n attempt after left : Nat} {succeeds : Bool} (begins : s.Begins n attempt now)
      (ends : s.outcome n = .ends after succeeds) (hafter : 0 < after) (hleft : left + attempt = s.budget) :
      Comes s now (.inFlight (.calling (now + after) succeeds left)) ⟨n + 1, n⟩

/-- A tick is over when its last call has ended. -/
theorem Comes.of_ends {begun after : Nat} {succeeds : Bool} (hbegins : s.Begins n attempt begun)
    (hends : s.outcome n = .ends after succeeds) (hnow : begun + after = now)
    (hover : succeeds = true ∨ attempt = s.budget) : s.Comes now .over ⟨n + 1, n + 1⟩ := by
  subst hnow
  exact .finished (Ends.past ⟨attempt, begun, after, succeeds, hbegins, hends, rfl⟩) (hbegins.next hends hover)

/-! ## A timer on schedule -/

variable {τ σ : Type} {call : τ → σ → Outcome × τ × σ} {states : Nat → τ × σ}

/-- A tick has come to what the schedule says, and the task and the world are as all calls so far have left them. -/
def Keeps (s : Schedule) (states : Nat → τ × σ) (now : Nat) (out : Tick × Tally × τ × σ) : Prop :=
  s.Comes now out.1 out.2.1 ∧ out.2.2 = states out.2.1.begun

/-- The timer has one loop at most, and it stands where the schedule is. -/
structure Tracks (s : Schedule) (states : Nat → τ × σ) (t : Timer τ) (world : σ) : Prop where
  interval : t.interval = s.interval
  attempts : t.attempts = s.budget
  leaving : t.leaving = []
  stands : s.Stands t.now (t.current.map (·.phase)) t.tally
  state : ∀ loop ∈ t.current, (loop.task, world) = states t.tally.begun

variable (hstates : ∀ n, call (states n).1 (states n).2 = (s.outcome n, states (n + 1)))

include hstates

/-- One call, and what follows it if it fails at once. -/
theorem keeps_attempt_succ {left : Nat} (hbegins : s.Begins n attempt now) (hleft : left + attempt = s.budget)
    (hfails : s.outcome n = .ends 0 false →
      s.Keeps states now (Timer.attempt call now left ⟨n + 1, n + 1⟩ (states (n + 1)).1 (states (n + 1)).2)) :
    s.Keeps states now (Timer.attempt call now (left + 1) ⟨n, n⟩ (states n).1 (states n).2) := by
  rw [Timer.attempt, hstates n]
  cases hends : s.outcome n with
  | breaks => exact ⟨.broken hbegins hends, rfl⟩
  | ends after succeeds =>
    cases after with
    | succ after => exact ⟨.inFlight hbegins hends (Nat.succ_pos after) hleft, rfl⟩
    | zero =>
      cases succeeds with
      | true => exact ⟨.of_ends hbegins hends rfl (.inl rfl), rfl⟩
      | false => exact hfails hends

/-- The rest of a tick, from a call that has failed. -/
theorem keeps_attempt_of_fails {begun after left : Nat} (hbegins : s.Begins n attempt begun)
    (hends : s.outcome n = .ends after false) (hnow : begun + after = now) (hleft : left + attempt = s.budget) :
    s.Keeps states now (Timer.attempt call now left ⟨n + 1, n + 1⟩ (states (n + 1)).1 (states (n + 1)).2) := by
  induction left generalizing n attempt begun after with
  | zero => exact ⟨.of_ends hbegins hends hnow (.inr (by omega)), rfl⟩
  | succ left ih =>
    -- If the retry fails at once, then it is where the call before it was, with an attempt less.
    have hretry : s.Begins (n + 1) (attempt + 1) now := hnow ▸ hbegins.retry hends (by omega)
    refine keeps_attempt_succ hstates hretry (by omega) fun hfails => ?_
    exact ih hretry hfails (Nat.add_zero now) (by omega)

/-- A loop that is due goes on as the schedule says. -/
theorem keeps_proceed {phase : Phase} {tally : Tally} (h : s.Stands now (some phase) tally) (hdue : phase.due ≤ now)
    (hbudget : 1 ≤ s.budget) :
    s.Keeps states now
      (proceed call s.budget now tally ⟨(states tally.begun).1, phase⟩ (states tally.begun).2) := by
  cases h with
  | @waiting n due past begins hnow =>
    obtain rfl : due = now := Nat.le_antisymm hdue hnow
    obtain ⟨left, hleft⟩ : ∃ left, s.budget = left + 1 := ⟨s.budget - 1, by omega⟩
    show s.Keeps states due (Timer.attempt call due s.budget ⟨n, n⟩ (states n).1 (states n).2)
    rw [hleft]
    refine keeps_attempt_succ hstates begins hleft.symm fun hfails => ?_
    exact keeps_attempt_of_fails hstates begins hfails (Nat.add_zero due) hleft.symm
  | @calling n attempt instant after left succeeds begins hbegun ends hnow hleft =>
    have hends : instant + after = now := Nat.le_antisymm hdue hnow
    cases succeeds with
    | true => exact ⟨.of_ends begins ends hends (.inl rfl), rfl⟩
    | false => exact keeps_attempt_of_fails hstates begins ends hends hleft

/-- A running loop, a millisecond later. -/
theorem stands_proceedCurrent {loop : Loop τ} {tally : Tally} {world : σ}
    (h : s.Stands now (some loop.phase) tally) (hstate : (loop.task, world) = states tally.begun)
    (hinterval : 1 ≤ s.interval) (hbudget : 1 ≤ s.budget) :
    let out := proceedCurrent call s.interval s.budget now tally world (some loop)
    s.Stands (now + 1) (out.1.map (·.phase)) out.2.1 ∧
      ∀ loop' ∈ out.1, (loop'.task, out.2.2) = states out.2.1.begun := by
  intro out
  obtain ⟨task, phase⟩ := loop
  obtain ⟨rfl, rfl⟩ := Prod.ext_iff.1 hstate
  by_cases hdue : phase.due ≤ now
  · have hkeeps := keeps_proceed hstates h hdue hbudget
    simp only [out, proceedCurrent, if_pos hdue]
    generalize proceed call s.budget now tally ⟨(states tally.begun).1, phase⟩ (states tally.begun).2 = went at hkeeps
    obtain ⟨tick, tally', task', world'⟩ := went
    obtain ⟨hcomes, hstate'⟩ := hkeeps
    cases hcomes with
    | finished past begins =>
      refine ⟨.waiting past begins (Nat.add_le_add_left hinterval now), ?_⟩
      rintro _ ⟨⟩
      exact hstate'
    | broken begins breaks =>
      refine ⟨.broken begins (Nat.lt_succ_self now) breaks, ?_⟩
      rintro _ ⟨⟩
    | inFlight begins ends hafter hleft =>
      refine ⟨.calling begins (Nat.lt_succ_self now) ends (Nat.add_le_add_left hafter now) hleft, ?_⟩
      rintro _ ⟨⟩
      exact hstate'
  · simp only [out, proceedCurrent, if_neg hdue]
    refine ⟨h.later ?_, ?_⟩
    · rintro _ ⟨⟩
      exact Nat.lt_of_not_le hdue
    · rintro _ ⟨⟩
      rfl

/-- A timer that keeps to the schedule does so a millisecond later. -/
theorem Tracks.fire {t : Timer τ} {world : σ} (h : s.Tracks states t world) (hinterval : 1 ≤ s.interval)
    (hbudget : 1 ≤ s.budget) : s.Tracks states (t.fire call t.now world).1 (t.fire call t.now world).2 := by
  obtain ⟨interval, attempts, now, current, leaving, tally⟩ := t
  obtain ⟨rfl, rfl, rfl, hstands, hstate⟩ := h
  cases current with
  | none => exact ⟨rfl, rfl, rfl, hstands.later nofun, nofun⟩
  | some loop =>
    obtain ⟨hstands', hstate'⟩ := stands_proceedCurrent hstates hstands (hstate loop rfl) hinterval hbudget
    exact ⟨rfl, rfl, rfl, hstands', hstate'⟩

theorem Tracks.advance {t : Timer τ} {world : σ} (h : s.Tracks states t world) (hinterval : 1 ≤ s.interval)
    (hbudget : 1 ≤ s.budget) (ms : Nat) :
    s.Tracks states (t.advance call ms world).1 (t.advance call ms world).2 ∧
      (t.advance call ms world).1.now = t.now + ms := by
  induction ms generalizing t world with
  | zero =>
    rw [advance_zero]
    exact ⟨h, rfl⟩
  | succ ms ih =>
    rw [advance_succ]
    obtain ⟨htracks, hnow⟩ := ih (h.fire hstates hinterval hbudget)
    refine ⟨htracks, ?_⟩
    rw [hnow, now_fire]
    omega

end Schedule

/-! ## Any task -/

variable {τ σ : Type}

/-- The task and the world before each call, if calls of the task alone change them. -/
def states (call : τ → σ → Outcome × τ × σ) (task : τ) (world : σ) : Nat → τ × σ
  | 0 => (task, world)
  | n + 1 => (call (states call task world n).1 (states call task world n).2).2

/-- The schedule of a task that is started at an instant. -/
def scheduleOf (call : τ → σ → Outcome × τ × σ) (interval attempts start : Nat) (task : τ) (world : σ) : Schedule where
  interval := interval
  budget := max attempts 1
  start := start
  outcome n := (call (states call task world n).1 (states call task world n).2).1

theorem tracks_start (call : τ → σ → Outcome × τ × σ) (interval attempts start : Nat) (task : τ) (world : σ) :
    (scheduleOf call interval attempts start task world).Tracks (states call task world)
      ((Timer.new interval attempts start).start task).2 world where
  interval := rfl
  attempts := rfl
  leaving := rfl
  stands := .waiting (fun m hm => absurd hm (Nat.not_lt_zero m)) .first (Nat.le_add_right start interval)
  state := by
    rintro _ ⟨⟩
    rfl

/-- **Ticks, retries and the schedule.** Let a task be started on a timer with an interval of a millisecond at least,
and not be stopped. The schedule of its calls has the first tick an interval after the start. A tick makes its calls
back to back, up to the first that does not fail and no more than there are attempts, and the next tick begins an
interval after the end of the tick, used up or not, unless its last call broke down, which is the last of all. After
any time, the calls that have begun are those that begin in the schedule before the present instant, the calls that have
ended are those that end in it before this instant, and the loop is running unless one of them broke down. -/
theorem follows_schedule (call : τ → σ → Outcome × τ × σ) {interval : Nat} (hinterval : 1 ≤ interval)
    (attempts start ms : Nat) (task : τ) (world : σ) :
    let s := scheduleOf call interval attempts start task world
    let t := (((Timer.new interval attempts start).start task).2.advance call ms world).1
    s.Begins 0 1 (start + interval) ∧
      (∀ n instant, s.Begins n 1 instant → ∃ last, s.IsTick n instant last) ∧
      (∀ n, n < t.tally.begun ↔ ∃ attempt instant, s.Begins n attempt instant ∧ instant < start + ms) ∧
      (∀ n, n < t.tally.ended ↔ ∃ ended, s.Ends n ended ∧ ended < start + ms) ∧
      (t.isRunning = true ↔ ¬ ∃ n instant, s.Breaks n instant ∧ instant < start + ms) := by
  intro s t
  have hbudget : 1 ≤ s.budget := Nat.le_max_right attempts 1
  have hstates (n : Nat) : call (states call task world n).1 (states call task world n).2 =
      (s.outcome n, states call task world (n + 1)) := rfl
  obtain ⟨htracks, hnow⟩ :=
    (tracks_start call interval attempts start task world).advance hstates hinterval hbudget ms
  have hstands : s.Stands (start + ms) (t.current.map (·.phase)) t.tally := hnow ▸ htracks.stands
  refine ⟨.first, fun n instant hbegins => hbegins.isTick hbudget, hstands.begun_iff, hstands.ended_iff, ?_⟩
  rw [← hstands.isSome_iff, Option.isSome_map]
  rfl

/-- A task that fails once, then takes three milliseconds, and then breaks down. -/
def trialScript : List Outcome := [.ends 0 false, .ends 3 true, .breaks]

/-- From 5 on, with an interval of 10 and two attempts, its tick begins at 15 and is over at 18, and the one at 28
breaks down: after 24 milliseconds three calls have begun, two have ended, and there is no loop. -/
theorem follows_schedule_trial :
    let s := scheduleOf followScript 10 2 5 trialScript ()
    let t := (((Timer.new 10 2 5).start trialScript).2.advance followScript 24 ()).1
    s.IsTick 0 15 1 ∧ t.tally = ⟨3, 2⟩ ∧ t.isRunning = false := by
  intro s t
  obtain ⟨hfirst, htick, hbegun, hended, hrunning⟩ :=
    follows_schedule followScript (by decide : 1 ≤ 10) 2 5 24 trialScript ()
  have hretry : s.Begins 1 2 15 := hfirst.retry rfl (by decide)
  have hnext : s.Begins 2 1 28 := hretry.next rfl (.inl rfl)
  have hbreaks : s.outcome 2 = .breaks := rfl
  have hthree : t.tally.begun = 3 := by
    have hlow : 2 < t.tally.begun := (hbegun 2).2 ⟨1, 28, hnext, by decide⟩
    have hhigh : ¬ 3 < t.tally.begun := by
      intro h
      obtain ⟨_, _, hlater, -⟩ := (hbegun 3).1 h
      exact absurd (hlater.le_of_breaks hbreaks) (by decide)
    omega
  have htwo : t.tally.ended = 2 := by
    have hlow : 1 < t.tally.ended := (hended 1).2 ⟨18, ⟨2, 15, 3, true, hretry, rfl, rfl⟩, by decide⟩
    have hhigh : ¬ 2 < t.tally.ended := by
      intro h
      obtain ⟨_, hlater, -⟩ := (hended 2).1 h
      exact hlater.outcome_ne hbreaks
    omega
  refine ⟨?_, ?_, ?_⟩
  · obtain ⟨last, hlast⟩ := htick 0 15 hfirst
    have hbounded : last < 2 := hlast.bounded
    by_cases hone : last = 1
    · exact hone ▸ hlast
    · obtain rfl : last = 0 := by omega
      rcases hlast.ends with ⟨hbroken, -⟩ | ⟨_, _, hends, hover | hover, -⟩
      · cases hbroken
      · cases hends
        cases hover
      · cases hover
  · rw [← hthree, ← htwo]
  · exact Bool.eq_false_iff.2 fun h => hrunning.1 h ⟨2, 28, ⟨1, hnext, hbreaks⟩, by decide⟩

end Timer

end Invoicing
