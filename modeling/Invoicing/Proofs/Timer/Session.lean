import Invoicing.Proofs.Timer.Loops

set_option autoImplicit false

/-! # Timers in use

Someone starts, stops and drops a timer and lets time pass, and takes notes of it all. A `Session` is such a use; the
notes do not change what the timer does (`Session.plain_after`). They are lawful, and so they say that there is one loop
at most that was not stopped, and that a stopped loop ends with the tick that it is in (`Session.one_loop`). -/

namespace Invoicing.Timer

variable {τ σ : Type}

/-- What a user does with a timer. -/
inductive Act (τ : Type) where
  | start (task : τ)
  | stop
  /-- Lets go of the timer, which stops it. -/
  | drop
  | sleep (ms : Nat)

/-- A timer in use, with notes. -/
structure Session (τ σ : Type) where
  /-- The timer, with each task beside the number of its start. -/
  timer : Timer (Nat × τ)
  world : σ
  notes : List Note
  /-- How many starts there have been. -/
  starts : Nat

namespace Session

def new (interval attempts now : Nat) (world : σ) : Session τ σ := ⟨.new interval attempts now, world, [], 0⟩

/-- The session after an act, with notes on it and on all calls. -/
def next (call : τ → σ → Outcome × τ × σ) (s : Session τ σ) : Act τ → Session τ σ
  | .start task =>
    let (accepted, timer) := s.timer.start (s.starts, task)
    { s with timer, notes := s.notes ++ [.started s.starts accepted], starts := s.starts + 1 }
  | .stop => { s with timer := s.timer.stop, notes := s.notes ++ [.stopped] }
  | .drop => { s with timer := s.timer.stop, notes := s.notes ++ [.stopped] }
  | .sleep ms =>
    let (timer, world, notes) := s.timer.advance (noting call) ms (s.world, s.notes)
    { s with timer, world, notes }

/-- The session after some acts. -/
def after (call : τ → σ → Outcome × τ × σ) (s : Session τ σ) (acts : List (Act τ)) : Session τ σ :=
  acts.foldl (next call) s

end Session

/-! ## The timer without notes -/

/-- A timer and the world after an act. -/
def act (call : τ → σ → Outcome × τ × σ) : Timer τ × σ → Act τ → Timer τ × σ
  | (t, world), .start task => ((t.start task).2, world)
  | (t, world), .stop => (t.stop, world)
  | (t, world), .drop => (t.stop, world)
  | (t, world), .sleep ms => t.advance call ms world

namespace Session

variable {call : τ → σ → Outcome × τ × σ} {s : Session τ σ} {attempts : Nat}

/-- The timer and the world as they are without numbers and notes. -/
def plain (s : Session τ σ) : Timer τ × σ := (s.timer.map Prod.snd, s.world)

theorem plain_next (call : τ → σ → Outcome × τ × σ) (s : Session τ σ) (a : Act τ) :
    (s.next call a).plain = act call s.plain a := by
  cases a with
  | start task => exact congrArg (fun out => (out.2, s.world)) (map_start Prod.snd s.timer (s.starts, task)).symm
  | stop => exact congrArg (·, s.world) (map_stop Prod.snd s.timer).symm
  | drop => exact congrArg (·, s.world) (map_stop Prod.snd s.timer).symm
  | sleep ms =>
    have hnoting (task : Nat × τ) (noted : σ × List Note) : call task.2 noted.1 =
        ((noting call task noted).1, (noting call task noted).2.1.2, (noting call task noted).2.2.1) := rfl
    exact (advance_map Prod.snd Prod.fst hnoting s.timer ms (s.world, s.notes)).symm

/-- **Taking notes changes nothing**: the timer of a session and the world are those of the timer alone. -/
theorem plain_after (call : τ → σ → Outcome × τ × σ) (s : Session τ σ) (acts : List (Act τ)) :
    (s.after call acts).plain = acts.foldl (act call) s.plain := by
  induction acts generalizing s with
  | nil => rfl
  | cons a acts ih =>
    rw [List.foldl_cons, ← plain_next]
    exact ih (s.next call a)

/-! ## Runs -/

/-- The notes tell which loops there are, and numbers of later starts are new. -/
structure Sound (attempts : Nat) (s : Session τ σ) : Prop where
  told : Told attempts s.timer s.notes
  fresh : ∀ note ∈ s.notes, ∀ number, note.number? = some number → number < s.starts

theorem sound_new (interval attempts now : Nat) (world : σ) :
    (new interval attempts now world : Session τ σ).Sound (max attempts 1) where
  told := by
    refine ⟨rfl, lawful_nil _, fun number => ?_, List.nodup_nil, nofun, fun number hleft => ?_⟩
    · simp [new, not_isLive_nil, Timer.new]
    · exact absurd hleft (Nat.lt_irrefl 0)
  fresh := nofun

/-- Nothing but calls is noted while time passes. -/
theorem notes_advance (call : τ → σ → Outcome × τ × σ) (t : Timer (Nat × τ)) (ms : Nat) (world : σ)
    (notes : List Note) :
    ∃ calls, (t.advance (noting call) ms (world, notes)).2.2 = notes ++ calls ∧
      ∀ note ∈ calls, ∃ number outcome, note = .called number outcome := by
  refine advance_preserves (P := fun out : σ × List Note => ∃ calls, out.2 = notes ++ calls ∧
    ∀ note ∈ calls, ∃ number outcome, note = .called number outcome) ?_ t ms ⟨[], by simp, nofun⟩
  rintro ⟨number, task⟩ ⟨world, _⟩ ⟨calls, rfl, hcalls⟩
  refine ⟨calls ++ [Note.called number (call task world).1], ?_, List.forall_mem_append.2 ⟨hcalls, by simp⟩⟩
  rw [← List.append_assoc]
  rfl

theorem Sound.next (h : s.Sound attempts) (a : Act τ) : (s.next call a).Sound attempts := by
  have hstop : Sound attempts { s with timer := s.timer.stop, notes := s.notes ++ [.stopped] } :=
    ⟨h.told.stop, List.forall_mem_append.2 ⟨h.fresh, List.forall_mem_singleton.2 nofun⟩⟩
  cases a with
  | start task =>
    refine ⟨h.told.start (fun note hnote hnumber => Nat.lt_irrefl _ (h.fresh note hnote _ hnumber)) task, ?_⟩
    refine List.forall_mem_append.2 ⟨fun note hnote number hnumber => ?_, List.forall_mem_singleton.2 ?_⟩
    · exact Nat.lt_succ_of_lt (h.fresh note hnote number hnumber)
    · rintro _ ⟨⟩
      exact Nat.lt_succ_self _
  | stop => exact hstop
  | drop => exact hstop
  | sleep ms =>
    have htold := h.told.advance call ms s.world
    refine ⟨htold, ?_⟩
    obtain ⟨calls, hnotes, hcalls⟩ := notes_advance call s.timer ms s.world s.notes
    have hlawful := htold.tells.lawful
    show ∀ note ∈ (s.timer.advance (noting call) ms (s.world, s.notes)).2.2, _
    rw [hnotes] at hlawful ⊢
    refine List.forall_mem_append.2 ⟨h.fresh, fun note hnote number hnumber => ?_⟩
    -- A task that is called was started before these calls.
    obtain ⟨k, outcome, rfl⟩ := hcalls note hnote
    obtain rfl : k = number := Option.some.inj hnumber
    rcases List.mem_append.1 (hlawful.mem_of_called (List.mem_append_right _ hnote)) with hstarted | hstarted
    · exact h.fresh _ hstarted _ rfl
    · obtain ⟨_, _, hstart⟩ := hcalls _ hstarted
      cases hstart

theorem Sound.after (h : s.Sound attempts) (acts : List (Act τ)) : (s.after call acts).Sound attempts := by
  induction acts generalizing s with
  | nil => exact h
  | cons a acts ih => exact ih (h.next a)

/-- Whatever has been stopped is over, if one waits long enough. -/
theorem Sound.exists_sleep (h : s.Sound attempts) (call : τ → σ → Outcome × τ × σ) :
    ∃ ms, ∀ number, ¬ IsLive (s.next call (.sleep ms)).notes number →
      attemptsLeft attempts (callsOf number (s.next call (.sleep ms)).notes) = 0 := by
  obtain ⟨ms, hleaving⟩ := exists_leaving_eq_nil (noting call) s.timer (s.world, s.notes)
  refine ⟨ms, fun number hdead => ?_⟩
  have htells := (h.told.advance call ms s.world).tells
  rw [hleaving, List.nil_append] at htells
  by_contra hleft
  obtain ⟨loop, hloop, hnumber⟩ := htells.inFlight number (Nat.pos_of_ne_zero hleft)
  refine hdead ((htells.live number).2 ?_)
  rw [Option.mem_toList.1 hloop, Option.map_some, hnumber]

theorem Sound.isRunning_iff (h : s.Sound attempts) : s.timer.isRunning = true ↔ ∃ number, IsLive s.notes number := by
  rw [isRunning]
  simp only [h.told.tells.live]
  cases s.timer.current <;> simp

/-- **One loop per timer, and stop means stop.** At any moment at most one loop is live: it was started, and neither
stopped nor ended by a call that broke down. A start is accepted exactly if none is live, and the task of one that is
refused is never called. After a stop, a loop makes the attempts that are left of the tick it is in and no other ones,
and some day none is left. After a call that breaks down there is no further one of its loop, and if that loop was live,
the timer is idle until the next start, which is accepted. -/
theorem one_loop (call : τ → σ → Outcome × τ × σ) (interval attempts now : Nat) (world : σ) (acts : List (Act τ)) :
    let s := (Session.new interval attempts now world).after call acts
    let budget := max attempts 1
    (∀ past future, s.notes = past ++ future → ∀ n k, IsLive past n → IsLive past k → n = k) ∧
    (s.timer.isRunning = true ↔ ∃ n, IsLive s.notes n) ∧
    (∀ past n accepted future, s.notes = past ++ .started n accepted :: future →
      (accepted = true ↔ ∀ k, ¬ IsLive past k) ∧ (accepted = false → callsOf n s.notes = [])) ∧
    (∀ past n future, s.notes = past ++ .stopped :: future → .started n true ∈ past →
      ¬ IsLive s.notes n ∧ IsRestOfTick (attemptsLeft budget (callsOf n past)) (callsOf n future)) ∧
    (∃ ms, ∀ n, ¬ IsLive (s.next call (.sleep ms)).notes n →
      attemptsLeft budget (callsOf n (s.next call (.sleep ms)).notes) = 0) ∧
    (∀ past n future, s.notes = past ++ .called n .breaks :: future →
      ¬ IsLive s.notes n ∧ callsOf n future = [] ∧ (IsLive past n → (∀ k, .started k true ∉ future) →
        s.timer.isRunning = false ∧ ∀ task, (s.timer.start task).1 = true)) := by
  intro s budget
  have hsound : s.Sound budget := (sound_new interval attempts now world).after acts
  have hlawful := hsound.told.tells.lawful
  refine ⟨fun past future hnotes n k => ?_, hsound.isRunning_iff, fun past n accepted future hnotes => ⟨?_, ?_⟩,
    fun past n future hnotes hstarted => ?_, hsound.exists_sleep call, fun past n future hnotes => ?_⟩
  · rw [hnotes] at hlawful
    exact hlawful.of_append.isLive_unique
  · exact (hlawful past _ future hnotes).2
  · rintro rfl
    rw [hnotes] at hlawful ⊢
    exact hlawful.refused
  · rw [hnotes] at hlawful ⊢
    exact hlawful.stopped hstarted
  · have hrunning := hsound.isRunning_iff
    rw [hnotes] at hlawful hrunning ⊢
    refine ⟨hlawful.broken.1, hlawful.broken.2, fun hlive hstarts => ?_⟩
    have hidle : s.timer.isRunning = false := by
      rw [← Bool.not_eq_true, hrunning]
      rintro ⟨k, hk⟩
      exact hlawful.not_isLive_of_broken hlive hstarts k hk
    exact ⟨hidle, fun task => by rw [start_fst, hidle]; rfl⟩

/-- The loop of the first start is stopped in the middle of a slow call, with two attempts left. The second start is
refused, and the loop of the third one breaks down. -/
def trialActs : List (Act (List Outcome)) :=
  [.start [.ends 5 false, .ends 5 false, .ends 0 true], .start [.ends 0 true], .sleep 12, .stop, .start [.breaks],
    .sleep 30]

theorem one_loop_trial :
    let s : Session (List Outcome) Unit := (Session.new 10 3 0 ()).after followScript trialActs
    let past : List Note := [.started 0 true, .started 1 false, .called 0 (.ends 5 false)]
    let future : List Note := [.started 2 true, .called 0 (.ends 5 false), .called 0 (.ends 0 true), .called 2 .breaks]
    s.notes = past ++ .stopped :: future ∧ callsOf 1 s.notes = [] ∧
      IsRestOfTick (attemptsLeft 3 (callsOf 0 past)) (callsOf 0 future) ∧ s.timer.isRunning = false ∧
      (s.timer.start (3, [])).1 = true := by
  intro s past future
  obtain ⟨-, -, hstarts, hstops, -, hbroken⟩ := one_loop followScript 10 3 0 () trialActs
  have hnotes : s.notes = past ++ .stopped :: future := by decide +kernel
  refine ⟨hnotes, (hstarts [.started 0 true] 1 false _ hnotes).2 rfl, (hstops past 0 future hnotes (by decide)).2, ?_⟩
  obtain ⟨-, -, hidle⟩ := hbroken
    (past ++ .stopped :: [.started 2 true, .called 0 (.ends 5 false), .called 0 (.ends 0 true)]) 2 [] hnotes
  have hlive : IsLive (past ++ .stopped :: [.started 2 true, .called 0 (.ends 5 false), .called 0 (.ends 0 true)]) 2 :=
    ⟨past ++ [.stopped], [.called 0 (.ends 5 false), .called 0 (.ends 0 true)], rfl, by decide, by decide⟩
  exact (hidle hlive nofun).imp_right fun hstart => hstart _

end Session

end Invoicing.Timer
