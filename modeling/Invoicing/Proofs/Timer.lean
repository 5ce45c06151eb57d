import Invoicing.Timer

set_option autoImplicit false

/-! # What a timer does to the world

A timer touches the world through calls of its task alone: what every call preserves is preserved by passing
time (`Timer.advance_preserves`). Time passes in leaps from one due instant to the next, and that comes to the same as
looking every millisecond for what is due (`Timer.advance_succ`). Stopped loops are all gone after some time
(`Timer.exists_leaving_eq_nil`), and the loops do not depend on parts of the tasks and the world that calls do not look
at (`Timer.advance_map`). -/

namespace Invoicing.Timer

variable {τ σ : Type} {call : τ → σ → Outcome × τ × σ}

/-- A start is accepted unless a loop is running. -/
theorem start_fst (t : Timer τ) (task : τ) : (t.start task).1 = !t.isRunning := by
  unfold start isRunning
  cases t.current <;> rfl

section Preservation

variable {P : σ → Prop} (hcall : ∀ task world, P world → P (call task world).2.2)

include hcall

theorem attempt_preserves (now left : Nat) (tally : Tally) (task : τ) {world : σ} (hP : P world) :
    P (attempt call now left tally task world).2.2.2 := by
  induction left generalizing tally task world with
  | zero => exact hP
  | succ left ih =>
    have hP' := hcall task world hP
    unfold attempt
    split
    · next h => rw [h] at hP'; exact hP'
    · next h => rw [h] at hP'; exact hP'
    · next h => rw [h] at hP'; exact ih _ _ hP'
    · next h => rw [h] at hP'; exact hP'

theorem proceed_preserves (attempts now : Nat) (tally : Tally) (loop : Loop τ) {world : σ} (hP : P world) :
    P (proceed call attempts now tally loop world).2.2.2 := by
  unfold proceed
  split
  · exact attempt_preserves hcall _ _ _ _ hP
  · exact hP
  · exact attempt_preserves hcall _ _ _ _ hP

theorem proceedLeaving_preserves (attempts now : Nat) (tally : Tally) {world : σ} (hP : P world)
    (loops : List (Loop τ)) : P (proceedLeaving call attempts now tally world loops).2.2 := by
  induction loops generalizing tally world with
  | nil => exact hP
  | cons loop rest ih =>
    unfold proceedLeaving
    split
    · have hP' := proceed_preserves hcall attempts now tally loop hP
      have hrest := ih (proceed call attempts now tally loop world).2.1 hP'
      dsimp only
      split <;> exact hrest
    · exact ih tally hP

theorem proceedCurrent_preserves (interval attempts now : Nat) (tally : Tally) {world : σ} (hP : P world)
    (current : Option (Loop τ)) :
    P (proceedCurrent call interval attempts now tally world current).2.2 := by
  unfold proceedCurrent
  split
  · exact hP
  · next loop =>
    have hP' := proceed_preserves hcall attempts now tally loop hP
    split
    · split
      · next h => rw [h] at hP'; exact hP'
      · next h => rw [h] at hP'; exact hP'
      · next h => rw [h] at hP'; exact hP'
    · exact hP

theorem fire_preserves (t : Timer τ) (now : Nat) {world : σ} (hP : P world) :
    P (t.fire call now world).2 :=
  proceedCurrent_preserves hcall _ _ _ _ (proceedLeaving_preserves hcall _ _ _ hP _) _

theorem advanceTo_preserves (limit : Nat) (t : Timer τ) {world : σ} (hP : P world) :
    P (t.advanceTo call limit world).2 := by
  induction t, world using advanceTo.induct call limit with
  | case1 t world hnone =>
    unfold advanceTo
    split
    · exact hP
    · next h => rw [hnone] at h; cases h
  | case2 t world now hnow hlt next hdec ih =>
    unfold advanceTo
    split
    · exact hP
    · next now' h =>
      obtain rfl : now = now' := Option.some.inj (hnow.symm.trans h)
      rw [dif_pos hlt]
      exact ih (fire_preserves hcall t now hP)
  | case3 t world now hnow hlt =>
    unfold advanceTo
    split
    · exact hP
    · next now' h =>
      obtain rfl : now = now' := Option.some.inj (hnow.symm.trans h)
      rw [dif_neg hlt]
      exact hP

/-- Passing time preserves what every call of the task preserves. -/
theorem advance_preserves (t : Timer τ) (ms : Nat) {world : σ} (hP : P world) :
    P (t.advance call ms world).2 :=
  advanceTo_preserves hcall _ t hP

end Preservation

/-! ## Millisecond by millisecond -/

theorem advanceTo_of_le {limit : Nat} {t : Timer τ} (world : σ) (h : ∀ now, t.nextDue? = some now → limit ≤ now) :
    t.advanceTo call limit world = ({ t with now := limit }, world) := by
  unfold advanceTo
  split
  · rfl
  · next now hnow => rw [dif_neg (Nat.not_lt.2 (h now hnow))]

theorem advanceTo_of_lt {limit now : Nat} {t : Timer τ} (world : σ) (h : t.nextDue? = some now) (hlt : now < limit) :
    t.advanceTo call limit world =
      (t.fire call now world).1.advanceTo call limit (t.fire call now world).2 := by
  rw [advanceTo]
  split
  · next hnone => rw [h] at hnone; cases hnone
  · next now' hnow' =>
    obtain rfl : now = now' := Option.some.inj (h.symm.trans hnow')
    rw [dif_pos hlt]

theorem proceedLeaving_idle {now : Nat} {loops : List (Loop τ)} (h : ∀ loop ∈ loops, now < loop.phase.due)
    (attempts : Nat) (tally : Tally) (world : σ) :
    proceedLeaving call attempts now tally world loops = (loops, tally, world) := by
  induction loops with
  | nil => rfl
  | cons loop loops ih =>
    obtain ⟨hloop, hloops⟩ := List.forall_mem_cons.1 h
    rw [proceedLeaving, if_neg (Nat.not_le.2 hloop), ih hloops]

theorem proceedCurrent_idle {now : Nat} {current : Option (Loop τ)} (h : ∀ loop ∈ current, now < loop.phase.due)
    (interval attempts : Nat) (tally : Tally) (world : σ) :
    proceedCurrent call interval attempts now tally world current = (current, tally, world) := by
  cases current with
  | none => rfl
  | some loop => rw [proceedCurrent, if_neg (Nat.not_le.2 (h loop rfl))]

/-- At an instant at which no loop is due, nothing happens. -/
theorem fire_idle {t : Timer τ} {now : Nat} (h : ∀ due ∈ t.dues, now < due) (world : σ) :
    t.fire call now world = ({ t with now := now + 1 }, world) := by
  have hleaving : ∀ loop ∈ t.leaving, now < loop.phase.due := fun loop hloop =>
    h _ (List.mem_map.2 ⟨loop, List.mem_append_left _ hloop, rfl⟩)
  have hcurrent : ∀ loop ∈ t.current, now < loop.phase.due := fun loop hloop =>
    h _ (List.mem_map.2 ⟨loop, List.mem_append_right _ (Option.mem_toList.2 hloop), rfl⟩)
  simp only [fire, proceedLeaving_idle hleaving, proceedCurrent_idle hcurrent]

/-- What is due at present is done first. If nothing is, then the leap may as well start a millisecond later. -/
theorem advanceTo_fire {limit : Nat} {t : Timer τ} (world : σ) (h : t.now < limit) :
    t.advanceTo call limit world =
      (t.fire call t.now world).1.advanceTo call limit (t.fire call t.now world).2 := by
  cases hmin : t.dues.min? with
  | none =>
    have hidle : t.fire call t.now world = ({ t with now := t.now + 1 }, world) :=
      fire_idle (by simp [List.min?_eq_none_iff.1 hmin]) world
    have hnone (a : Nat) : ({ t with now := a } : Timer τ).nextDue? = none := congrArg (Option.map (max a)) hmin
    rw [hidle, advanceTo_of_le world (by simp [hnone t.now]), advanceTo_of_le world (by simp [hnone (t.now + 1)])]
  | some due =>
    have hnext (a : Nat) : ({ t with now := a } : Timer τ).nextDue? = some (max a due) :=
      congrArg (Option.map (max a)) hmin
    by_cases hdue : due ≤ t.now
    · exact advanceTo_of_lt world ((hnext t.now).trans (congrArg some (Nat.max_eq_left hdue))) h
    · have hlater : ∀ due' ∈ t.dues, t.now < due' := fun due' hdue' =>
        Nat.lt_of_lt_of_le (Nat.lt_of_not_le hdue) ((List.le_min?_iff hmin).1 (Nat.le_refl due) due' hdue')
      have hnow : t.nextDue? = some due := (hnext t.now).trans (congrArg some (by omega))
      have hthen : ({ t with now := t.now + 1 } : Timer τ).nextDue? = some due :=
        (hnext (t.now + 1)).trans (congrArg some (by omega))
      rw [fire_idle hlater world]
      by_cases hlimit : due < limit
      · rw [advanceTo_of_lt world hnow hlimit, advanceTo_of_lt world hthen hlimit]
        rfl
      · rw [advanceTo_of_le world (by simpa [hnow] using hlimit), advanceTo_of_le world (by simpa [hthen] using hlimit)]

theorem advance_zero (t : Timer τ) (world : σ) : t.advance call 0 world = (t, world) :=
  advanceTo_of_le world fun _ h => le_of_nextDue? h

/-- **A timer looks every millisecond for what is due.** Letting some milliseconds pass is to go on with all loops that
are due at present, and then to let the rest of them pass. -/
theorem advance_succ (t : Timer τ) (ms : Nat) (world : σ) :
    t.advance call (ms + 1) world =
      (t.fire call t.now world).1.advance call ms (t.fire call t.now world).2 := by
  rw [advance, advanceTo_fire world (by omega), advance, now_fire, Nat.add_right_comm, Nat.add_assoc]

theorem advance_add (t : Timer τ) (ms more : Nat) (world : σ) :
    t.advance call (ms + more) world =
      (t.advance call ms world).1.advance call more (t.advance call ms world).2 := by
  induction ms generalizing t world with
  | zero => rw [Nat.zero_add, advance_zero]
  | succ ms ih => rw [Nat.succ_add_eq_add_succ, Nat.add_succ, advance_succ, advance_succ, ih]

/-! ## Stopped loops come to an end -/

/-- A bound for how often a loop can go on before its tick is over. -/
def Phase.rounds (attempts : Nat) : Phase → Nat
  | waiting _ => attempts + 1
  | calling _ _ left => left + 1

/-- A bound for how often some loops can go on. -/
def rounds (attempts : Nat) : List (Loop τ) → Nat
  | [] => 0
  | loop :: loops => loop.phase.rounds attempts + rounds attempts loops

theorem attempt_rounds {attempts now left : Nat} {tally : Tally} {task : τ} {world : σ} {phase : Phase}
    (h : (attempt call now left tally task world).1 = .inFlight phase) : phase.rounds attempts ≤ left := by
  induction left generalizing tally task world with
  | zero => cases h
  | succ left ih =>
    rw [attempt] at h
    split at h
    · cases h
    · cases h
    · exact Nat.le_succ_of_le (ih h)
    · cases h
      exact Nat.le_refl _

theorem proceed_rounds {attempts now : Nat} {tally : Tally} {loop : Loop τ} {world : σ} {phase : Phase}
    (h : (proceed call attempts now tally loop world).1 = .inFlight phase) :
    phase.rounds attempts < loop.phase.rounds attempts := by
  unfold proceed at h
  split at h
  · next hphase =>
    rw [hphase]
    exact Nat.lt_succ_of_le (attempt_rounds h)
  · cases h
  · next hphase =>
    rw [hphase]
    exact Nat.lt_succ_of_le (attempt_rounds h)

/-- Every stopped loop that is due comes closer to its end. -/
theorem proceedLeaving_rounds (call : τ → σ → Outcome × τ × σ) (attempts now : Nat) (tally : Tally) (world : σ)
    (loops : List (Loop τ)) :
    rounds attempts (proceedLeaving call attempts now tally world loops).1 +
      (loops.countP fun loop => loop.phase.due ≤ now) ≤ rounds attempts loops := by
  induction loops generalizing tally world with
  | nil => simp [proceedLeaving, rounds]
  | cons loop loops ih =>
    rw [proceedLeaving]
    split
    · next hdue =>
      have hproceed (phase : Phase) (h : (proceed call attempts now tally loop world).1 = .inFlight phase) :
          phase.rounds attempts < loop.phase.rounds attempts := proceed_rounds h
      generalize proceed call attempts now tally loop world = out at hproceed ⊢
      obtain ⟨tick, tally', task', world'⟩ := out
      have hpositive : 0 < loop.phase.rounds attempts := by cases loop.phase <;> simp [Phase.rounds]
      have hrest := ih tally' world'
      simp only [rounds, hdue, decide_true, List.countP_cons_of_pos]
      cases tick with
      | inFlight phase =>
        have := hproceed phase rfl
        dsimp only [rounds]
        omega
      | _ =>
        dsimp only
        omega
    · next hdue =>
      have hrest := ih tally world
      simp only [rounds, hdue, decide_false, Bool.false_eq_true, not_false_eq_true, List.countP_cons_of_neg]
      omega

theorem leaving_fire (t : Timer τ) (now : Nat) (world : σ) :
    (t.fire call now world).1.leaving = (proceedLeaving call t.attempts now t.tally world t.leaving).1 := rfl

theorem rounds_fire_lt {t : Timer τ} {loop : Loop τ} (hloop : loop ∈ t.leaving) {now : Nat}
    (hdue : loop.phase.due ≤ now) (world : σ) :
    rounds t.attempts (t.fire call now world).1.leaving < rounds t.attempts t.leaving := by
  have hrounds := proceedLeaving_rounds call t.attempts now t.tally world t.leaving
  have hgoes : 0 < t.leaving.countP fun loop => loop.phase.due ≤ now :=
    List.countP_pos_iff.2 ⟨loop, hloop, decide_eq_true hdue⟩
  rw [leaving_fire]
  omega

theorem exists_rounds_lt_of_due {t : Timer τ} {loop : Loop τ} (hloop : loop ∈ t.leaving)
    (hdue : loop.phase.due ≤ t.now) (world : σ) :
    ∃ ms, (t.advance call ms world).1.attempts = t.attempts ∧
      rounds t.attempts (t.advance call ms world).1.leaving < rounds t.attempts t.leaving := by
  refine ⟨1, ?_⟩
  rw [advance_succ, advance_zero]
  exact ⟨rfl, rounds_fire_lt hloop hdue world⟩

/-- Sooner or later one of the stopped loops goes on. -/
theorem exists_rounds_lt {t : Timer τ} {loop : Loop τ} (hloop : loop ∈ t.leaving) (world : σ) :
    ∃ ms, (t.advance call ms world).1.attempts = t.attempts ∧
      rounds t.attempts (t.advance call ms world).1.leaving < rounds t.attempts t.leaving := by
  obtain ⟨wait, hwait⟩ : ∃ wait, loop.phase.due ≤ t.now + wait := ⟨loop.phase.due, Nat.le_add_left _ _⟩
  induction wait generalizing t world with
  | zero => exact exists_rounds_lt_of_due hloop hwait world
  | succ wait ih =>
    by_cases hdue : ∃ other ∈ t.leaving, other.phase.due ≤ t.now
    · obtain ⟨other, hother, hdue⟩ := hdue
      exact exists_rounds_lt_of_due hother hdue world
    · have hleaving : (t.fire call t.now world).1.leaving = t.leaving := by
        rw [leaving_fire, proceedLeaving_idle fun other hother => Nat.lt_of_not_le fun hle => hdue ⟨other, hother, hle⟩]
      obtain ⟨ms, hattempts, hrounds⟩ := ih (hleaving.symm ▸ hloop) (t.fire call t.now world).2
        (by rw [now_fire]; omega)
      rw [hleaving] at hrounds
      refine ⟨ms + 1, ?_⟩
      rw [advance_succ]
      exact ⟨hattempts, hrounds⟩

/-- **The ticks of all stopped loops are over some day,** and nothing is left of these loops then. -/
theorem exists_leaving_eq_nil (call : τ → σ → Outcome × τ × σ) (t : Timer τ) (world : σ) :
    ∃ ms, (t.advance call ms world).1.leaving = [] := by
  induction hrounds : rounds t.attempts t.leaving using Nat.strongRecOn generalizing t world with
  | ind n ih =>
    cases hleaving : t.leaving with
    | nil => exact ⟨0, by rw [advance_zero]; exact hleaving⟩
    | cons loop loops =>
      obtain ⟨ms, hattempts, hlt⟩ := exists_rounds_lt (hleaving ▸ List.mem_cons_self : loop ∈ t.leaving) world
      rw [← hattempts] at hlt
      obtain ⟨more, hmore⟩ := ih _ (by rw [← hrounds, ← hattempts]; exact hlt) (t.advance call ms world).1
        (t.advance call ms world).2 rfl
      exact ⟨ms + more, by rw [advance_add]; exact hmore⟩

/-! ## Seeing less of tasks and world -/

section Map

variable {τ' σ' : Type} {call' : τ' → σ' → Outcome × τ' × σ'} (f : τ → τ') (g : σ → σ')

def Loop.map (loop : Loop τ) : Loop τ' := ⟨f loop.task, loop.phase⟩

/-- The timer with other states of its tasks. -/
def map (t : Timer τ) : Timer τ' :=
  ⟨t.interval, t.attempts, t.now, t.current.map (Loop.map f), t.leaving.map (Loop.map f), t.tally⟩

theorem map_start (t : Timer τ) (task : τ) :
    (t.map f).start (f task) = ((t.start task).1, (t.start task).2.map f) := by
  obtain ⟨interval, attempts, now, _ | loop, leaving, tally⟩ := t <;> rfl

theorem map_stop (t : Timer τ) : (t.map f).stop = t.stop.map f := by
  obtain ⟨interval, attempts, now, _ | ⟨task, _ | _⟩, leaving, tally⟩ := t
  · rfl
  · rfl
  · simp [stop, map, Loop.map]

variable (hcall : ∀ task world, call' (f task) (g world) =
  ((call task world).1, f (call task world).2.1, g (call task world).2.2))

include hcall

theorem attempt_map (now left : Nat) (tally : Tally) (task : τ) (world : σ) :
    attempt call' now left tally (f task) (g world) =
      let (tick, tally, task, world) := attempt call now left tally task world
      (tick, tally, f task, g world) := by
  induction left generalizing tally task world with
  | zero => rfl
  | succ left ih =>
    rw [attempt, attempt, hcall]
    rcases call task world with ⟨outcome, task', world'⟩
    cases outcome with
    | breaks => rfl
    | ends after succeeds =>
      cases after with
      | zero =>
        cases succeeds with
        | true => rfl
        | false => exact ih _ task' world'
      | succ after => rfl

theorem proceed_map (attempts now : Nat) (tally : Tally) (loop : Loop τ) (world : σ) :
    proceed call' attempts now tally (loop.map f) (g world) =
      let (tick, tally, task, world) := proceed call attempts now tally loop world
      (tick, tally, f task, g world) := by
  obtain ⟨task, phase⟩ := loop
  cases phase with
  | waiting due => exact attempt_map f g hcall now attempts tally task world
  | calling due succeeds left =>
    cases succeeds with
    | true => rfl
    | false => exact attempt_map f g hcall now left _ task world

theorem proceedLeaving_map (attempts now : Nat) (tally : Tally) (world : σ) (loops : List (Loop τ)) :
    proceedLeaving call' attempts now tally (g world) (loops.map (Loop.map f)) =
      let (loops, tally, world) := proceedLeaving call attempts now tally world loops
      (loops.map (Loop.map f), tally, g world) := by
  induction loops generalizing tally world with
  | nil => rfl
  | cons loop loops ih =>
    rw [List.map_cons, proceedLeaving, proceedLeaving, proceed_map f g hcall]
    show (if loop.phase.due ≤ now then _ else _) = _
    split
    · rcases proceed call attempts now tally loop world with ⟨tick, tally', task', world'⟩
      dsimp only
      rw [ih]
      cases tick <;> rfl
    · dsimp only
      rw [ih]
      rfl

theorem proceedCurrent_map (interval attempts now : Nat) (tally : Tally) (world : σ) (current : Option (Loop τ)) :
    proceedCurrent call' interval attempts now tally (g world) (current.map (Loop.map f)) =
      let (current, tally, world) := proceedCurrent call interval attempts now tally world current
      (current.map (Loop.map f), tally, g world) := by
  cases current with
  | none => rfl
  | some loop =>
    rw [Option.map_some, proceedCurrent, proceedCurrent, proceed_map f g hcall]
    show (if loop.phase.due ≤ now then _ else _) = _
    split
    · rcases proceed call attempts now tally loop world with ⟨_ | _ | _, tally', task', world'⟩ <;> rfl
    · rfl

theorem fire_map (t : Timer τ) (now : Nat) (world : σ) :
    (t.map f).fire call' now (g world) =
      ((t.fire call now world).1.map f, g (t.fire call now world).2) := by
  simp only [fire, map, proceedLeaving_map f g hcall, proceedCurrent_map f g hcall]

theorem advance_map (t : Timer τ) (ms : Nat) (world : σ) :
    (t.map f).advance call' ms (g world) =
      ((t.advance call ms world).1.map f, g (t.advance call ms world).2) := by
  induction ms generalizing t world with
  | zero => simp only [advance_zero]
  | succ ms ih =>
    rw [advance_succ, advance_succ, ← ih, show (t.map f).now = t.now from rfl, fire_map f g hcall]

end Map

end Invoicing.Timer
