import Invoicing.Proofs.Timer
import Invoicing.Proofs.Timer.Notes
import Mathlib.Data.List.Nodup

set_option autoImplicit false

/-! # The loops of a timer and the notes on it

The tasks of a timer are numbered by their starts, and their calls are noted (`noting`). The invariant is `Told`: the
running loop is the one that the notes call live, and the notes and the phases of the loops agree on what is left of
each tick. One loop that goes on keeps it (`proceed_goesOn`, `Tells.goOn`), and so does an instant (`Told.fire`), a span
of time (`Told.advance`), a start and a stop. As it includes that the notes are lawful, all notes on a timer are. -/

namespace Invoicing.Timer

variable {τ σ : Type} (call : τ → σ → Outcome × τ × σ)

/-! ## Taking notes -/

/-- Calls a task, and notes for which start and how it goes. -/
def noting (call : τ → σ → Outcome × τ × σ) : Nat × τ → σ × List Note → Outcome × (Nat × τ) × σ × List Note
  | (number, task), (world, notes) =>
    let (outcome, task, world) := call task world
    (outcome, (number, task), world, notes ++ [.called number outcome])

/-- The attempts that the tick in flight has left after the call in flight. -/
def Phase.left : Phase → Nat
  | waiting _ => 0
  | calling _ succeeds left => if succeeds then 0 else left

/-- The attempts that are left of a tick. -/
def Tick.left : Tick → Nat
  | inFlight phase => phase.left
  | _ => 0

/-- The start that a loop belongs to. -/
def Loop.number (loop : Loop (Nat × τ)) : Nat := loop.task.1

/-- The notes say of a loop what its phase says. -/
structure Loop.Noted (attempts : Nat) (notes : List Note) (loop : Loop (Nat × τ)) : Prop where
  started : .started loop.number true ∈ notes
  left : attemptsLeft attempts (callsOf loop.number notes) = loop.phase.left
  waiting : ∀ due, loop.phase = .waiting due → IsLive notes loop.number

theorem Loop.Noted.append {attempts : Nat} {notes : List Note} {loop : Loop (Nat × τ)} (h : loop.Noted attempts notes)
    {note : Note} (hcall : note.outcome? loop.number = none)
    (hwaiting : ∀ due, loop.phase = .waiting due → note ≠ .stopped) : loop.Noted attempts (notes ++ [note]) where
  started := List.mem_append_left _ h.started
  left := by
    rw [callsOf_append_singleton, hcall, Option.toList_none, List.append_nil]
    exact h.left
  waiting due hdue := by
    refine isLive_append_singleton.2 (.inr ⟨h.waiting due hdue, hwaiting due hdue, ?_⟩)
    rintro rfl
    simp [Note.outcome?] at hcall

/-- The notes tell which loops there are: at most one of them is live, and every tick in flight belongs to one. -/
structure Tells (attempts : Nat) (notes : List Note) (loops : List (Loop (Nat × τ))) (live? : Option Nat) : Prop where
  lawful : Lawful attempts notes
  live : ∀ number, IsLive notes number ↔ live? = some number
  distinct : (loops.map Loop.number).Nodup
  noted : ∀ loop ∈ loops, loop.Noted attempts notes
  inFlight : ∀ number, 0 < attemptsLeft attempts (callsOf number notes) → ∃ loop ∈ loops, loop.number = number

/-! ## Going on with a loop -/

variable {attempts left number : Nat} {notes : List Note}

/-- The notes after a loop went on to the end of its tick or to the next call that takes time: there are more calls of
its task, and what they leave of the tick is what `tick` says. -/
structure GoesOn (attempts number : Nat) (notes : List Note) (tick : Tick) (notes' : List Note) : Prop where
  lawful : Lawful attempts notes'
  calls : ∃ outcomes : List Outcome, notes' = notes ++ outcomes.map (.called number)
  live : IsLive notes' number ↔ IsLive notes number ∧ tick ≠ .broken
  left : attemptsLeft attempts (callsOf number notes') = tick.left
  calling : ∀ due, tick ≠ .inFlight (.waiting due)

theorem callsOf_map_called_of_ne {k : Nat} (hk : k ≠ number) (outcomes : List Outcome) :
    callsOf k (outcomes.map (.called number)) = [] := by
  rw [callsOf_eq_nil]
  rintro outcome hcalled
  obtain ⟨_, -, heq⟩ := List.mem_map.1 hcalled
  exact hk (Note.called.inj heq).1.symm

theorem isLive_append_calls_of_ne {k : Nat} (hk : k ≠ number) (notes : List Note) (outcomes : List Outcome) :
    IsLive (notes ++ outcomes.map (.called number)) k ↔ IsLive notes k := by
  induction outcomes generalizing notes with
  | nil => simp
  | cons outcome outcomes ih =>
    rw [List.map_cons, List.append_cons, ih, isLive_append_singleton]
    simp [Ne.symm hk]

namespace GoesOn

variable {tick : Tick} {notes' : List Note}

theorem callsOf_of_ne (h : GoesOn attempts number notes tick notes') {k : Nat} (hk : k ≠ number) :
    callsOf k notes' = callsOf k notes := by
  obtain ⟨outcomes, rfl⟩ := h.calls
  rw [callsOf_append, callsOf_map_called_of_ne hk, List.append_nil]

theorem isLive_iff (h : GoesOn attempts number notes tick notes') (k : Nat) :
    IsLive notes' k ↔ IsLive notes k ∧ (k = number → tick ≠ .broken) := by
  by_cases hk : k = number
  · subst hk
    simpa using h.live
  · obtain ⟨outcomes, rfl⟩ := h.calls
    simp [isLive_append_calls_of_ne hk, hk]

theorem mem (h : GoesOn attempts number notes tick notes') {note : Note} (hnote : note ∈ notes) : note ∈ notes' := by
  obtain ⟨outcomes, rfl⟩ := h.calls
  exact List.mem_append_left _ hnote

/-- A loop goes on after a call that has failed at once. -/
theorem of_failed {outcome : Outcome} (hfails : outcome.fails = true)
    (h : GoesOn attempts number (notes ++ [.called number outcome]) tick notes') :
    GoesOn attempts number notes tick notes' where
  lawful := h.lawful
  calls := by
    obtain ⟨outcomes, rfl⟩ := h.calls
    exact ⟨outcome :: outcomes, by simp⟩
  live := by
    have hbreaks : Note.called number outcome ≠ .called number .breaks := by
      rintro heq
      rw [(Note.called.inj heq).2] at hfails
      cases hfails
    have hlive : IsLive (notes ++ [.called number outcome]) number ↔ IsLive notes number := by
      simp [isLive_append_singleton, hbreaks]
    rw [h.live, hlive]
  left := h.left
  calling := h.calling

end GoesOn

/-- Attempts are made by the live loop, all of a tick, or by a loop in whose tick as many are left. -/
def Ready (attempts number : Nat) (notes : List Note) (left : Nat) : Prop :=
  attemptsLeft attempts (callsOf number notes) = left ∨
    IsLive notes number ∧ attemptsLeft attempts (callsOf number notes) = 0 ∧ left = attempts

theorem Ready.lawful_called (h : Ready attempts number notes (left + 1)) (hlawful : Lawful attempts notes)
    (outcome : Outcome) :
    Lawful attempts (notes ++ [.called number outcome]) ∧
      attemptsLeft attempts (callsOf number (notes ++ [.called number outcome])) =
        if outcome.fails then left else 0 := by
  rw [lawful_append_singleton, callsOf_append_singleton, Note.outcome?_eq_some.2 rfl, Option.toList_some,
    attemptsLeft_append_singleton]
  rcases h with hleft | ⟨hlive, hnone, hall⟩
  · exact ⟨⟨hlawful, .inr (hleft ▸ left.succ_pos)⟩, by simp [hleft]⟩
  · exact ⟨⟨hlawful, .inl hlive⟩, by rw [hnone, if_pos rfl, ← hall, Nat.add_sub_cancel]⟩

theorem attempt_goesOn (now : Nat) (tally : Tally) (task : τ) (world : σ) (hlawful : Lawful attempts notes)
    (hready : Ready attempts number notes left) :
    let out := attempt (noting call) now left tally (number, task) (world, notes)
    GoesOn attempts number notes out.1 out.2.2.2.2 ∧ out.2.2.1.1 = number := by
  induction left generalizing tally task world notes with
  | zero =>
    have hleft : attemptsLeft attempts (callsOf number notes) = 0 := by
      rcases hready with hleft | ⟨-, hnone, -⟩ <;> assumption
    exact ⟨⟨hlawful, ⟨[], by simp [attempt]⟩, by simp [attempt], hleft, by simp [attempt]⟩, rfl⟩
  | succ left ih =>
    rw [attempt, noting]
    rcases call task world with ⟨outcome, task', world'⟩
    obtain ⟨hlawful', hleft⟩ := hready.lawful_called hlawful outcome
    have hcalls : ∃ outcomes : List Outcome,
        notes ++ [.called number outcome] = notes ++ outcomes.map (.called number) := ⟨[outcome], rfl⟩
    cases outcome with
    | breaks => exact ⟨⟨hlawful', hcalls, by simp [isLive_append_singleton], hleft, by simp⟩, rfl⟩
    | ends after succeeds =>
      cases after with
      | zero =>
        cases succeeds with
        | true => exact ⟨⟨hlawful', hcalls, by simp [isLive_append_singleton], hleft, by simp⟩, rfl⟩
        | false =>
          obtain ⟨hgoes, htask⟩ := ih ⟨tally.begun + 1, tally.ended + 1⟩ task' world' hlawful' (.inl hleft)
          exact ⟨hgoes.of_failed rfl, htask⟩
      | succ after =>
        refine ⟨⟨hlawful', hcalls, by simp [isLive_append_singleton], ?_, by simp⟩, rfl⟩
        rw [hleft]
        cases succeeds <;> rfl

theorem proceed_goesOn {loop : Loop (Nat × τ)} (now : Nat) (tally : Tally) (world : σ)
    (hlawful : Lawful attempts notes) (hloop : loop.Noted attempts notes) :
    let out := proceed (noting call) attempts now tally loop (world, notes)
    GoesOn attempts loop.number notes out.1 out.2.2.2.2 ∧ out.2.2.1.1 = loop.number := by
  obtain ⟨⟨number, task⟩, phase⟩ := loop
  have hleft : attemptsLeft attempts (callsOf number notes) = phase.left := hloop.left
  cases phase with
  | waiting due =>
    exact attempt_goesOn call now tally task world hlawful (.inr ⟨hloop.waiting due rfl, hleft, rfl⟩)
  | calling due succeeds left =>
    cases succeeds with
    | true => exact ⟨⟨hlawful, ⟨[], by simp [proceed]⟩, by simp [proceed], hleft, by simp [proceed]⟩, rfl⟩
    | false => exact attempt_goesOn call now _ task world hlawful (.inl hleft)

/-! ## Going on with the timer -/

namespace Tells

variable {loops before after : List (Loop (Nat × τ))} {loop : Loop (Nat × τ)} {live? : Option Nat}
  {current : Option (Loop (Nat × τ))} {world : σ}

/-- A loop goes on and becomes another one or is gone. -/
theorem goOn {tick : Tick} {notes' : List Note} {live' : Option Nat}
    (h : Tells attempts notes (before ++ loop :: after) live?) (hgoes : GoesOn attempts loop.number notes tick notes')
    (next : Option (Loop (Nat × τ)))
    (hnext : ∀ loop' ∈ next, loop'.number = loop.number ∧ loop'.phase.left = tick.left ∧
      ∀ due, loop'.phase = .waiting due → IsLive notes' loop.number)
    (hnone : next = none → tick.left = 0) (hlive : ∀ number, IsLive notes' number ↔ live' = some number) :
    Tells attempts notes' (before ++ (next.toList ++ after)) live' := by
  have hdistinct := h.distinct
  rw [List.map_append, List.map_cons, List.nodup_middle, List.nodup_cons, ← List.map_append] at hdistinct
  have hother : ∀ other ∈ before ++ after, other.number ≠ loop.number := fun other hmem heq =>
    hdistinct.1 (heq ▸ List.mem_map_of_mem hmem)
  have hmem {other : Loop (Nat × τ)} :
      other ∈ before ++ (next.toList ++ after) ↔ other ∈ next ∨ other ∈ before ++ after := by
    simp only [List.mem_append, Option.mem_toList]
    tauto
  refine ⟨hgoes.lawful, hlive, ?_, fun other hin => ?_, fun number hleft => ?_⟩
  · cases next with
    | none => exact hdistinct.2
    | some loop' =>
      have hnumber := (hnext loop' rfl).1
      simpa [hnumber] using h.distinct
  · rcases hmem.1 hin with hin | hin
    -- The loop itself: its phase says what is left of its tick.
    · obtain ⟨hnumber, hleft, hwaiting⟩ := hnext other hin
      have hstarted := (h.noted loop (List.mem_append_right _ List.mem_cons_self)).started
      rw [← hnumber] at hgoes hwaiting hstarted
      exact ⟨hgoes.mem hstarted, hgoes.left.trans hleft.symm, hwaiting⟩
    -- Another loop: the new calls are not those of its task.
    · have hne := hother other hin
      have hnoted := h.noted other (by simp only [List.mem_append, List.mem_cons] at hin ⊢; tauto)
      refine ⟨hgoes.mem hnoted.started, (congrArg _ (hgoes.callsOf_of_ne hne)).trans hnoted.left, fun due hdue => ?_⟩
      exact (hgoes.isLive_iff _).2 ⟨hnoted.waiting due hdue, fun heq => absurd heq hne⟩
  · by_cases hnumber : number = loop.number
    · subst hnumber
      rw [hgoes.left] at hleft
      obtain ⟨loop', hnext'⟩ := Option.ne_none_iff_exists'.1 fun hnext' => Nat.ne_of_gt hleft (hnone hnext')
      exact ⟨loop', hmem.2 (.inl hnext'), (hnext loop' hnext').1⟩
    · rw [hgoes.callsOf_of_ne hnumber] at hleft
      obtain ⟨other, hin, rfl⟩ := h.inFlight number hleft
      refine ⟨other, hmem.2 (.inr ?_), rfl⟩
      simp only [List.mem_append, List.mem_cons] at hin ⊢
      rcases hin with hin | rfl | hin
      · exact .inl hin
      · exact absurd rfl hnumber
      · exact .inr hin

/-- Stopped loops go on one after the other. Those in front, `before`, have done so already. -/
theorem proceedLeaving {before loops after : List (Loop (Nat × τ))}
    (h : Tells attempts notes (before ++ (loops ++ after)) live?) (hstopped : ∀ loop ∈ loops, live? ≠ some loop.number)
    (now : Nat) (tally : Tally) (world : σ) :
    let out := Timer.proceedLeaving (noting call) attempts now tally (world, notes) loops
    Tells attempts out.2.2.2 (before ++ (out.1 ++ after)) live? := by
  induction loops generalizing before tally world notes with
  | nil => exact h
  | cons loop loops ih =>
    obtain ⟨hloop, hloops⟩ := List.forall_mem_cons.1 hstopped
    rw [Timer.proceedLeaving]
    split
    · obtain ⟨hgoes, hnumber⟩ := proceed_goesOn call now tally world h.lawful (h.noted loop (by simp))
      generalize proceed (noting call) attempts now tally loop (world, notes) = out at hgoes hnumber ⊢
      obtain ⟨tick, tally', task', world', notes'⟩ := out
      -- The loop is not live, so whoever is live stays so even if it breaks down.
      have hlive (number : Nat) : IsLive notes' number ↔ live? = some number := by
        rw [hgoes.isLive_iff, h.live]
        exact and_iff_left_of_imp fun hlive heq => absurd (heq ▸ hlive) hloop
      have hgone (hover : tick.left = 0) : Tells attempts notes' (before ++ (loops ++ after)) live? :=
        h.goOn hgoes none (by simp) (fun _ => hover) hlive
      cases tick with
      | inFlight phase =>
        have hstays : Tells attempts notes' (before ++ [⟨task', phase⟩] ++ (loops ++ after)) live? := by
          rw [List.append_assoc]
          refine h.goOn hgoes (some ⟨task', phase⟩) ?_ (by simp) hlive
          rintro _ ⟨⟩
          exact ⟨hnumber, rfl, fun due hdue => absurd (congrArg Tick.inFlight hdue) (hgoes.calling due)⟩
        have hrest := ih hstays hloops tally' world'
        dsimp only at hrest
        rwa [List.append_assoc] at hrest
      | _ => exact ih (hgone rfl) hloops tally' world'
    · have hpassed : Tells attempts notes (before ++ [loop] ++ (loops ++ after)) live? := by simpa using h
      have hrest := ih hpassed hloops tally world
      dsimp only at hrest
      rwa [List.append_assoc] at hrest

theorem proceedCurrent {leaving : List (Loop (Nat × τ))}
    (h : Tells attempts notes (leaving ++ current.toList) (current.map Loop.number)) (interval now : Nat)
    (tally : Tally) (world : σ) :
    let out := Timer.proceedCurrent (noting call) interval attempts now tally (world, notes) current
    Tells attempts out.2.2.2 (leaving ++ out.1.toList) (out.1.map Loop.number) := by
  cases current with
  | none => exact h
  | some loop =>
    rw [Timer.proceedCurrent]
    split
    · obtain ⟨hgoes, hnumber⟩ := proceed_goesOn call now tally world h.lawful (h.noted loop (by simp))
      generalize proceed (noting call) attempts now tally loop (world, notes) = out at hgoes hnumber ⊢
      obtain ⟨tick, tally', task', world', notes'⟩ := out
      have hlive (number : Nat) : IsLive notes' number ↔ loop.number = number ∧ tick ≠ .broken := by
        rw [hgoes.isLive_iff, h.live, Option.map_some, Option.some_inj]
        exact and_congr_right fun heq => ⟨fun hbroken => hbroken heq.symm, fun hbroken _ => hbroken⟩
      have hstays {phase : Phase} (hphase : phase.left = tick.left) (hbroken : tick ≠ .broken) :
          Tells attempts notes' (leaving ++ [⟨task', phase⟩]) (some task'.1) := by
        refine h.goOn hgoes (some ⟨task', phase⟩) ?_ (by simp) fun number => ?_
        · rintro _ ⟨⟩
          exact ⟨hnumber, hphase, fun _ _ => (hlive _).2 ⟨rfl, hbroken⟩⟩
        · rw [hlive, Option.some_inj, ← hnumber]
          exact and_iff_left hbroken
      cases tick with
      | broken => exact h.goOn hgoes none (by simp) (fun _ => rfl) (by simp [hlive])
      | _ => exact hstays rfl (by simp)
    · exact h

/-- What is noted between two calls leaves loops as they are, except that a loop without calls in flight can go. -/
theorem append {note : Note} {loops' : List (Loop (Nat × τ))} {live' : Option Nat}
    (h : Tells attempts notes loops live?) (hallowed : Allowed attempts notes note)
    (hcall : ∀ k, note.outcome? k = none) (hlive : ∀ k, IsLive (notes ++ [note]) k ↔ live' = some k)
    (hdistinct : (loops'.map Loop.number).Nodup) (hnoted : ∀ loop ∈ loops', loop.Noted attempts (notes ++ [note]))
    (hkept : ∀ loop ∈ loops, loop ∈ loops' ∨ loop.phase.left = 0) : Tells attempts (notes ++ [note]) loops' live' where
  lawful := lawful_append_singleton.2 ⟨h.lawful, hallowed⟩
  live := hlive
  distinct := hdistinct
  noted := hnoted
  inFlight number hleft := by
    rw [callsOf_append_singleton, hcall, Option.toList_none, List.append_nil] at hleft
    obtain ⟨loop, hloop, rfl⟩ := h.inFlight number hleft
    rw [(h.noted loop hloop).left] at hleft
    exact ⟨loop, (hkept loop hloop).resolve_right (Nat.ne_of_gt hleft), rfl⟩

end Tells

/-- The notes on a timer tell which loops it has. -/
structure Told (attempts : Nat) (t : Timer (Nat × τ)) (notes : List Note) : Prop where
  budget : t.attempts = attempts
  tells : Tells attempts notes (t.leaving ++ t.current.toList) (t.current.map Loop.number)

namespace Told

variable {t : Timer (Nat × τ)} {note : Note}

theorem distinct_leaving (h : Told attempts t notes) : (t.leaving.map Loop.number).Nodup := by
  have hdistinct := h.tells.distinct
  rw [List.map_append] at hdistinct
  exact (List.nodup_append.1 hdistinct).1

/-- A stopped loop is not live. -/
theorem not_isLive (h : Told attempts t notes) {loop : Loop (Nat × τ)} (hloop : loop ∈ t.leaving) :
    ¬ IsLive notes loop.number := by
  rw [h.tells.live]
  intro hlive
  obtain ⟨current, hcurrent, hnumber⟩ := Option.map_eq_some_iff.1 hlive
  have hdistinct := h.tells.distinct
  rw [List.map_append, List.nodup_append] at hdistinct
  exact hdistinct.2.2 _ (List.mem_map_of_mem hloop) _ (List.mem_map_of_mem (Option.mem_toList.2 hcurrent))
    hnumber.symm

/-! ### Passing time -/

theorem fire (h : Told attempts t notes) (now : Nat) (world : σ) :
    let out := t.fire (noting call) now (world, notes)
    Told attempts out.1 out.2.2 := by
  have hstopped : ∀ loop ∈ t.leaving, t.current.map Loop.number ≠ some loop.number := fun loop hloop hlive =>
    h.not_isLive hloop ((h.tells.live _).2 hlive)
  obtain ⟨rfl, htells⟩ := h
  rw [← List.nil_append (t.leaving ++ _)] at htells
  have hleaving := htells.proceedLeaving call hstopped now t.tally world
  exact ⟨rfl, hleaving.proceedCurrent call t.interval now _ _⟩

theorem advance (h : Told attempts t notes) (ms : Nat) (world : σ) :
    let out := t.advance (noting call) ms (world, notes)
    Told attempts out.1 out.2.2 := by
  induction ms generalizing t world notes with
  | zero =>
    rw [advance_zero]
    exact h
  | succ ms ih =>
    rw [advance_succ]
    exact ih (h.fire call t.now world) _

/-! ### Starting and stopping -/

theorem start (h : Told attempts t notes) (hfresh : ∀ note ∈ notes, note.number? ≠ some number) (task : τ) :
    Told attempts (t.start (number, task)).2 (notes ++ [.started number (t.start (number, task)).1]) := by
  have htells := h.tells
  cases hcurrent : t.current with
  | some loop =>
    rw [hcurrent] at htells
    have hlive (k : Nat) : IsLive (notes ++ [.started number false]) k ↔ IsLive notes k := by
      simp [isLive_append_singleton]
    rw [Timer.start, hcurrent]
    refine ⟨h.budget, ?_⟩
    rw [hcurrent]
    refine htells.append ⟨hfresh, by simp, fun hnone => ?_⟩ (fun _ => rfl) (fun k => (hlive k).trans (htells.live k))
      htells.distinct (fun loop hloop => (htells.noted loop hloop).append rfl (by simp)) fun _ hloop => .inl hloop
    exact absurd ((htells.live loop.number).2 rfl) (hnone loop.number)
  | none =>
    rw [hcurrent] at htells
    have hlive (k : Nat) : IsLive (notes ++ [.started number true]) k ↔ some number = some k := by
      simp [isLive_append_singleton, htells.live]
    have hcalls : callsOf number notes = [] := by
      rw [callsOf_eq_nil]
      exact fun outcome hcalled => hfresh _ hcalled rfl
    have hleaving : ∀ loop ∈ t.leaving, loop.Noted attempts notes := fun loop hloop =>
      h.tells.noted loop (List.mem_append_left _ hloop)
    rw [Timer.start, hcurrent]
    have hidle (k : Nat) : ¬ IsLive notes k := by simp [htells.live]
    refine ⟨h.budget, htells.append ⟨hfresh, fun _ => hidle, fun _ => rfl⟩ (fun _ => rfl) hlive ?_ ?_ ?_⟩
    · rw [List.map_append, List.nodup_append]
      refine ⟨h.distinct_leaving, List.nodup_singleton _, fun a ha b hb => ?_⟩
      obtain ⟨loop, hloop, rfl⟩ := List.mem_map.1 ha
      obtain rfl := List.mem_singleton.1 hb
      rintro rfl
      exact hfresh _ (hleaving loop hloop).started rfl
    · intro loop hloop
      rcases List.mem_append.1 hloop with hloop | hloop
      · exact (hleaving loop hloop).append rfl (by simp)
      · obtain rfl := List.mem_singleton.1 hloop
        refine ⟨List.mem_concat_self, ?_, fun _ _ => (hlive _).2 rfl⟩
        rw [callsOf_append_singleton, Loop.number, hcalls]
        rfl
    · intro loop hloop
      exact .inl (List.mem_append_left _ (by simpa using hloop))

theorem stop (h : Told attempts t notes) : Told attempts t.stop (notes ++ [.stopped]) := by
  have hlive (k : Nat) : IsLive (notes ++ [.stopped]) k ↔ none = some k := by simp [isLive_append_singleton]
  have hleaving : ∀ loop ∈ t.leaving, loop.Noted attempts (notes ++ [.stopped]) := fun loop hloop =>
    have hnoted := h.tells.noted loop (List.mem_append_left _ hloop)
    hnoted.append rfl fun due hdue => absurd (hnoted.waiting due hdue) (h.not_isLive hloop)
  have htells := h.tells
  cases hcurrent : t.current with
  | none =>
    rw [hcurrent] at htells
    rw [Timer.stop, hcurrent]
    refine ⟨h.budget, ?_⟩
    rw [hcurrent]
    exact htells.append trivial (fun _ => rfl) hlive htells.distinct (by simpa using hleaving) fun _ => .inl
  | some loop =>
    rw [hcurrent] at htells
    have hloop := htells.noted loop (by simp)
    cases hphase : loop.phase with
    | waiting due =>
      rw [Timer.stop, hcurrent]
      simp only [hphase]
      refine ⟨h.budget, htells.append trivial (fun _ => rfl) hlive (by simpa using h.distinct_leaving)
        (by simpa using hleaving) fun other hother => ?_⟩
      rcases List.mem_append.1 hother with hother | hother
      · exact .inl (List.mem_append_left _ hother)
      · obtain rfl := List.mem_singleton.1 hother
        exact .inr (by rw [hphase]; rfl)
    | calling due succeeds left =>
      rw [Timer.stop, hcurrent]
      simp only [hphase]
      have hnoted : ∀ other ∈ t.leaving ++ [loop], other.Noted attempts (notes ++ [.stopped]) := by
        refine List.forall_mem_append.2 ⟨hleaving, List.forall_mem_singleton.2 (hloop.append rfl fun due' hdue => ?_)⟩
        rw [hphase] at hdue
        cases hdue
      exact ⟨h.budget, htells.append trivial (fun _ => rfl) hlive (by simpa using htells.distinct)
        (by simpa using hnoted) fun other hother => .inl (by simpa using hother)⟩

end Told

end Invoicing.Timer
