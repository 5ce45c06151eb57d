import Invoicing.Proofs.Service.Lifecycle
import Invoicing.Proofs.Timer

set_option autoImplicit false

/-! # Synchronizing by the timer and by hand

A service that synchronizes by its timer does to its engine what it would do without one, if someone synchronized by
hand whenever a whole number of intervals is over since the start, until it works, and at most as often as there are
attempts (`DataService.synchronized_by_hand`). A call of the timer's task takes no time. So every tick is over at the
instant at which it began, and the next one is due an interval later, whatever came of it. -/

namespace Invoicing

/-! ## Due instants -/

/-- Is a whole number of intervals over since an instant? -/
def IsDue (since interval instant : Nat) : Prop := since < instant ∧ interval ∣ instant - since

instance (since interval instant : Nat) : Decidable (IsDue since interval instant) :=
  inferInstanceAs (Decidable (_ ∧ _))

/-- The instant `due` is the first one from `now` on at which an interval is over. -/
structure IsDue.Next (since interval now due : Nat) : Prop where
  isDue : IsDue since interval due
  le : now ≤ due
  first : ∀ instant, now ≤ instant → IsDue since interval instant → due ≤ instant

namespace IsDue

variable {since interval now due instant : Nat}

/-- The due instants are the start plus one interval, plus two intervals, and so on. -/
theorem iff_exists (h : 0 < interval) : IsDue since interval instant ↔ ∃ k, instant = since + (k + 1) * interval := by
  constructor
  · rintro ⟨hlt, count, hcount⟩
    cases count with
    | zero => omega
    | succ k =>
      rw [Nat.mul_comm] at hcount
      exact ⟨k, by omega⟩
  · rintro ⟨k, rfl⟩
    refine ⟨Nat.lt_add_of_pos_right (Nat.mul_pos k.succ_pos h), ?_⟩
    rw [Nat.add_sub_cancel_left]
    exact Nat.dvd_mul_left interval (k + 1)

/-- After the start or a due instant, the next one is an interval away. -/
theorem next_of_dvd (h : 0 < interval) (hsince : since ≤ instant) (hdvd : interval ∣ instant - since)
    (hnow : now ≤ instant + interval) (hlater : ∀ i, now ≤ i → IsDue since interval i → instant < i) :
    Next since interval now (instant + interval) where
  isDue := by
    refine ⟨by omega, ?_⟩
    rw [Nat.sub_add_comm hsince]
    exact Nat.dvd_add hdvd (Nat.dvd_refl _)
  le := hnow
  first i hi hdue := by
    have hlt := hlater i hi hdue
    have hgap : interval ∣ i - instant := by
      have := Nat.dvd_sub hdue.2 hdvd
      rwa [show i - since - (instant - since) = i - instant by omega] at this
    have := Nat.le_of_dvd (by omega) hgap
    omega

namespace Next

theorem start (h : 0 < interval) (now : Nat) : Next now interval now (now + interval) :=
  next_of_dvd h (Nat.le_refl _) (by simp) (by omega) fun _ _ hdue => hdue.1

theorem again (h : 0 < interval) (hnext : Next since interval now now) :
    Next since interval (now + 1) (now + interval) :=
  next_of_dvd h (Nat.le_of_lt hnext.isDue.1) hnext.isDue.2 (by omega) fun _ hi _ => hi

theorem wait (hnext : Next since interval now due) (hlt : now < due) : Next since interval (now + 1) due where
  isDue := hnext.isDue
  le := hlt
  first i hi := hnext.first i (by omega)

theorem isDue_now_iff (hnext : Next since interval now due) : IsDue since interval now ↔ due = now :=
  ⟨fun hdue => Nat.le_antisymm (hnext.first now (Nat.le_refl _) hdue) hnext.le, fun h => h ▸ hnext.isDue⟩

end Next

end IsDue

/-! ## By hand -/

/-- Synchronizes until it works, at most so many times. -/
def Engine.retry : Nat → Engine → Engine
  | 0, e => e
  | left + 1, e =>
    match e.synchronize with
    | (.ok _, e) => e
    | (.error _, e) => retry left e

/-- What can happen to a service with a timer. -/
inductive DataService.Step where
  | start
  | stop
  | sleep (ms : Nat)
  | move (m : Move)

/-- An engine without a timer, with someone who synchronizes. -/
structure ByHand where
  interval : Nat
  attempts : Nat
  engine : Engine
  now : Nat
  /-- When they began, if they have not stopped since. -/
  since : Option Nat

namespace ByHand

/-- An engine that has not been set up, for the settings of a service. -/
def new (config : ServiceConfig) (site : Site) (now : Nat) : ByHand :=
  ⟨config.interval.toNat, max config.maxAttempts.toNat 1, .new site, now, none⟩

/-- The due instants of the next milliseconds, from the present one on. -/
def dues (m : ByHand) (ms : Nat) : List Nat :=
  match m.since with
  | none => []
  | some since => (List.range' m.now ms).filter fun instant => IsDue since m.interval instant

/-- Lets some milliseconds pass, with attempts to synchronize at every due instant. -/
def sleep (m : ByHand) (ms : Nat) : ByHand :=
  { m with now := m.now + ms, engine := (m.dues ms).foldl (fun e _ => e.retry m.attempts) m.engine }

/-- What happens without a timer. -/
def next (m : ByHand) : DataService.Step → ByHand
  | .start => if m.engine.isReady then { m with since := some (m.since.getD m.now) } else m
  | .stop => { m with since := none }
  | .sleep ms => m.sleep ms
  | .move move => { m with engine := m.engine.move move }

def after (m : ByHand) (steps : List DataService.Step) : ByHand := steps.foldl next m

theorem mem_dues {m : ByHand} (h : 0 < m.interval) {since : Nat} (hsince : m.since = some since) {ms instant : Nat} :
    instant ∈ m.dues ms ↔
      (m.now ≤ instant ∧ instant < m.now + ms) ∧ ∃ k, instant = since + (k + 1) * m.interval := by
  simp only [dues, hsince, List.mem_filter, List.mem_range'_1, decide_eq_true_eq, IsDue.iff_exists h]

theorem sleep_zero (m : ByHand) : m.sleep 0 = m := by
  have hdues : m.dues 0 = [] := by
    unfold dues
    split <;> rfl
  rw [sleep, hdues]
  rfl

/-- The due instants are gone through one by one. -/
theorem sleep_succ (m : ByHand) (ms : Nat) : m.sleep (ms + 1) = (m.sleep 1).sleep ms := by
  have hdues : m.dues (ms + 1) = m.dues 1 ++ (m.sleep 1).dues ms := by
    unfold dues
    cases hsince : m.since with
    | none => simp [sleep, hsince]
    | some since =>
      simp only [sleep, hsince, Nat.add_comm ms 1]
      rw [← List.filter_append, List.range'_append]
  simp only [sleep] at hdues ⊢
  rw [hdues, List.foldl_append, Nat.add_right_comm, Nat.add_assoc]

theorem interval_next (m : ByHand) (step : DataService.Step) : (m.next step).interval = m.interval := by
  cases step with
  | start =>
    simp only [next]
    split <;> rfl
  | _ => rfl

/-- At a due instant there are attempts, and at no other one. -/
theorem sleep_one {m : ByHand} {since : Nat} (hsince : m.since = some since) :
    (m.sleep 1).engine = if IsDue since m.interval m.now then m.engine.retry m.attempts else m.engine := by
  have hdues : m.dues 1 = if IsDue since m.interval m.now then [m.now] else [] := by
    simp [dues, hsince, List.filter_cons]
  rw [sleep, hdues]
  split <;> rfl

end ByHand

/-! ## By the timer -/

namespace DataService

/-- The service after a step. -/
def next (s : DataService) : Step → DataService
  | .start => s.start.2
  | .stop => s.stop
  | .sleep ms => s.sleep ms
  | .move move => { s with engine := s.engine.move move }

/-- The service after some steps. -/
def after (s : DataService) (steps : List Step) : DataService := steps.foldl next s

/-- A tick is over at once, and all its attempts come one after the other. -/
theorem attempt_synchronizeCall (now left : Nat) (tally : Timer.Tally) (e : Engine) :
    ∃ tally', Timer.attempt synchronizeCall now left tally () e = (.over, tally', (), e.retry left) := by
  induction left generalizing tally e with
  | zero => exact ⟨tally, rfl⟩
  | succ left ih =>
    rw [Timer.attempt, synchronizeCall, Engine.retry]
    rcases e.synchronize with ⟨_ | _, e'⟩
    · exact ih _ e'
    · exact ⟨_, rfl⟩

/-- A loop that is due makes its attempts and waits for an interval, whatever came of them. -/
theorem fire_synchronizeCall {t : Timer Unit} (hleaving : t.leaving = [])
    (hcurrent : t.current = some ⟨(), .waiting t.now⟩) (e : Engine) :
    ∃ tally, t.fire synchronizeCall t.now e =
      ({ t with now := t.now + 1, current := some ⟨(), .waiting (t.now + t.interval)⟩, tally },
        e.retry t.attempts) := by
  obtain ⟨tally, htick⟩ := attempt_synchronizeCall t.now t.attempts t.tally e
  refine ⟨tally, ?_⟩
  simp only [Timer.fire, Timer.proceedLeaving, hleaving, hcurrent, Timer.proceedCurrent, Timer.Phase.due,
    if_pos (Nat.le_refl _), Timer.proceed, htick]

end DataService

/-- A timer that runs as someone works by hand: its loop waits for their next due instant. -/
structure ByHand.Tracked (m : ByHand) (t : Timer Unit) : Prop where
  interval : t.interval = m.interval
  attempts : t.attempts = m.attempts
  now : t.now = m.now
  leaving : t.leaving = []
  current : m.since = none ∧ t.current = none ∨
    ∃ since due, m.since = some since ∧ t.current = some ⟨(), .waiting due⟩ ∧
      IsDue.Next since m.interval m.now due

namespace ByHand.Tracked

variable {m : ByHand} {t : Timer Unit}

theorem new (config : ServiceConfig) (site : Site) (now : Nat) :
    (ByHand.new config site now).Tracked (DataService.new config site now).timer :=
  ⟨rfl, rfl, rfl, rfl, .inl ⟨rfl, rfl⟩⟩

theorem isRunning (h : m.Tracked t) : t.isRunning = m.since.isSome := by
  rcases h.current with ⟨hsince, hcurrent⟩ | ⟨since, due, hsince, hcurrent, -⟩ <;>
    simp [Timer.isRunning, hsince, hcurrent]

theorem start (h : m.Tracked t) (hinterval : 0 < m.interval) :
    { m with since := some (m.since.getD m.now) }.Tracked (t.start ()).2 := by
  rcases h.current with ⟨hsince, hcurrent⟩ | ⟨since, due, hsince, hcurrent, hnext⟩
  · rw [Timer.start, hcurrent, hsince]
    refine ⟨h.interval, h.attempts, h.now, h.leaving, .inr ⟨m.now, m.now + m.interval, rfl, ?_, .start hinterval _⟩⟩
    rw [h.now, h.interval]
  · rw [Timer.start, hcurrent, hsince]
    exact ⟨h.interval, h.attempts, h.now, h.leaving, .inr ⟨since, due, rfl, hcurrent, hnext⟩⟩

theorem stop (h : m.Tracked t) : { m with since := none }.Tracked t.stop := by
  rcases h.current with ⟨hsince, hcurrent⟩ | ⟨since, due, hsince, hcurrent, -⟩
  · rw [Timer.stop, hcurrent]
    exact ⟨h.interval, h.attempts, h.now, h.leaving, .inl ⟨rfl, hcurrent⟩⟩
  · rw [Timer.stop, hcurrent]
    exact ⟨h.interval, h.attempts, h.now, h.leaving, .inl ⟨rfl, rfl⟩⟩

/-- A millisecond with the timer is a millisecond by hand. -/
theorem fire (h : m.Tracked t) (hinterval : 0 < m.interval) :
    (m.sleep 1).Tracked (t.fire DataService.synchronizeCall t.now m.engine).1 ∧
      (t.fire DataService.synchronizeCall t.now m.engine).2 = (m.sleep 1).engine := by
  have hnow : t.now + 1 = m.now + 1 := congrArg (· + 1) h.now
  rcases h.current with ⟨hsince, hcurrent⟩ | ⟨since, due, hsince, hcurrent, hnext⟩
  · rw [Timer.fire_idle (by simp [Timer.dues, h.leaving, hcurrent])]
    exact ⟨⟨h.interval, h.attempts, hnow, h.leaving, .inl ⟨hsince, hcurrent⟩⟩, by simp [sleep, dues, hsince]⟩
  · rw [sleep_one hsince]
    by_cases hdue : due = t.now
    · rw [hdue] at hcurrent hnext
      obtain ⟨tally, hfire⟩ := DataService.fire_synchronizeCall h.leaving hcurrent m.engine
      rw [hfire, if_pos (h.now ▸ hnext.isDue)]
      rw [h.now] at hnext
      refine ⟨⟨h.interval, h.attempts, hnow, h.leaving, .inr ⟨since, m.now + m.interval, hsince, ?_,
        hnext.again hinterval⟩⟩, congrArg (Engine.retry · m.engine) h.attempts⟩
      rw [h.now, h.interval]
    · have hlt : t.now < due := Nat.lt_of_le_of_ne (h.now ▸ hnext.le) (Ne.symm hdue)
      rw [Timer.fire_idle (by simp [Timer.dues, h.leaving, hcurrent, Timer.Phase.due, hlt]),
        if_neg (by rw [hnext.isDue_now_iff, ← h.now]; exact hdue)]
      exact ⟨⟨h.interval, h.attempts, hnow, h.leaving,
        .inr ⟨since, due, hsince, hcurrent, hnext.wait (h.now ▸ hlt)⟩⟩, rfl⟩

/-- Time passes with the timer as it does by hand. -/
theorem advance (h : m.Tracked t) (hinterval : 0 < m.interval) (ms : Nat) :
    (m.sleep ms).Tracked (t.advance DataService.synchronizeCall ms m.engine).1 ∧
      (t.advance DataService.synchronizeCall ms m.engine).2 = (m.sleep ms).engine := by
  induction ms generalizing m t with
  | zero =>
    rw [Timer.advance_zero, sleep_zero]
    exact ⟨h, rfl⟩
  | succ ms ih =>
    obtain ⟨hfirst, hengine⟩ := h.fire hinterval
    rw [Timer.advance_succ, sleep_succ, hengine]
    exact ih hfirst hinterval

end ByHand.Tracked

namespace DataService

/-- A service that does to its engine what is done by hand. -/
structure Follows (s : DataService) (m : ByHand) : Prop where
  engine : s.engine = m.engine
  timer : m.Tracked s.timer

theorem Follows.next {s : DataService} {m : ByHand} (h : s.Follows m) (hinterval : 0 < m.interval) (step : Step) :
    (s.next step).Follows (m.next step) := by
  cases step with
  | start =>
    simp only [DataService.next, DataService.start, ByHand.next, h.engine]
    split
    · exact ⟨rfl, h.timer.start hinterval⟩
    · exact h
  | stop => exact ⟨h.engine, h.timer.stop⟩
  | sleep ms =>
    obtain ⟨htimer, hengine⟩ := h.timer.advance hinterval ms
    rw [← h.engine] at htimer hengine
    exact ⟨hengine, htimer⟩
  | move move =>
    exact ⟨congrArg (·.move move) h.engine, h.timer.interval, h.timer.attempts, h.timer.now, h.timer.leaving,
      h.timer.current⟩

theorem Follows.after {s : DataService} {m : ByHand} (h : s.Follows m) (hinterval : 0 < m.interval)
    (steps : List Step) : (s.after steps).Follows (m.after steps) := by
  induction steps generalizing s m with
  | nil => exact h
  | cons step steps ih => exact ih (h.next hinterval step) ((m.interval_next step).symm ▸ hinterval)

/-- **The timer synchronizes as one would by hand.** Take any run of a service, in which its timer is started and
stopped, time passes, and anything happens to the service and its site in between. The engine is at any time as if there
were no timer, and someone had synchronized until it worked, within the attempts that a tick has, at each instant at
which a whole number of intervals was over since the start. -/
theorem synchronized_by_hand (config : ServiceConfig) (hinterval : 0 < config.interval) (site : Site) (now : Nat)
    (steps : List Step) :
    let s := (DataService.new config site now).after steps
    let m := (ByHand.new config site now).after steps
    s.engine = m.engine ∧ s.timer.now = m.now ∧ s.timer.isRunning = m.since.isSome := by
  have hnew : (DataService.new config site now).Follows (ByHand.new config site now) := ⟨rfl, .new config site now⟩
  have hfollows := hnew.after (show 0 < config.interval.toNat from hinterval) steps
  exact ⟨hfollows.engine, hfollows.timer.now, hfollows.timer.isRunning⟩

/-- The timer is started at 100 and ticks at 110 and 120, with two attempts each. The next three queries for data
fail. -/
def trialAutomatic : List Step :=
  [.move (.event .setUp), .sleep 100, .start, .sleep 5,
    .move (.event (.schedule (Faults.never.next 3) .never .never)), .move (.event (.append "x" 12)),
    .move (.event (.setClock 15)), .sleep 10, .move (.event (.setClock 20)), .sleep 10]

/-- In the trial the first tick is in vain, and the second one works at its second attempt. -/
theorem synchronized_by_hand_trial :
    let config : ServiceConfig := ⟨10, 2, 1⟩
    let s := (DataService.new config (.empty 10) 0).after trialAutomatic
    0 < config.interval ∧ s.engine.watermark = 20 ∧ s.engine.site.storage.faults.calls = 4 ∧ s.timer.now = 125 ∧
      s.timer.isRunning = true := by
  intro config s
  have hinterval : 0 < config.interval := by decide
  obtain ⟨hengine, hnow, hrunning⟩ := synchronized_by_hand config hinterval (.empty 10) 0 trialAutomatic
  refine ⟨hinterval, ?_, ?_, ?_, ?_⟩
  · rw [hengine]
    decide +kernel
  · rw [hengine]
    decide +kernel
  · rw [hnow]
    decide +kernel
  · rw [hrunning]
    decide +kernel

end DataService

end Invoicing
