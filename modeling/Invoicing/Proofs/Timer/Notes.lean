import Invoicing.Timer
import Mathlib.Data.List.Induction

set_option autoImplicit false

/-! # Notes on a timer

A user of a timer numbers the starts and notes what happens: what a start is answered, that the timer is stopped, and
how each call goes of the task that a start came with. `Lawful` says which notes a timer gives rise to. It goes by what
was noted before alone: a start is accepted exactly if no loop is live, and a call belongs to the live loop or to a tick
that is still in flight. What this means for whole runs is proved here without any timer. -/

namespace Invoicing

/-- Does the call end without success? -/
def Outcome.fails : Outcome → Bool
  | ends _ succeeds => !succeeds
  | breaks => false

namespace Timer

/-- What a user of a timer notes. -/
inductive Note where
  | started (number : Nat) (accepted : Bool)
  | stopped
  /-- The task that a start came with is called. -/
  | called (number : Nat) (outcome : Outcome)
deriving DecidableEq, Repr

namespace Note

/-- The start that a note is about. -/
def number? : Note → Option Nat
  | started number _ => some number
  | stopped => none
  | called number _ => some number

/-- How a call goes, if the note is about one of the task of this start. -/
def outcome? (number : Nat) : Note → Option Outcome
  | called k outcome => if k = number then some outcome else none
  | _ => none

theorem outcome?_eq_some {number : Nat} {note : Note} {outcome : Outcome} :
    note.outcome? number = some outcome ↔ note = .called number outcome := by
  cases note <;> simp [outcome?]

end Note

variable {attempts left number : Nat} {note : Note} {notes past future : List Note} {outcome : Outcome}

/-! ## What notes say -/

/-- How the calls go of the task that a start came with. -/
def callsOf (number : Nat) (notes : List Note) : List Outcome := notes.filterMap (Note.outcome? number)

/-- The start was accepted, its loop has not been stopped since, and no call of its task broke down. -/
def IsLive (notes : List Note) (number : Nat) : Prop :=
  ∃ past future, notes = past ++ .started number true :: future ∧ .stopped ∉ future ∧ .called number .breaks ∉ future

/-- How many attempts the tick in flight has left after some calls, if there is one. A call that fails uses up one, and
with any other one the tick has none left. -/
def attemptsLeft (attempts : Nat) (outcomes : List Outcome) : Nat :=
  outcomes.foldl (fun left outcome => if outcome.fails then (if left = 0 then attempts else left) - 1 else 0) 0

/-- Calls with which a tick goes on that has some attempts left: as long as they fail, and not more than that. -/
def IsRestOfTick (left : Nat) (outcomes : List Outcome) : Prop :=
  outcomes.length ≤ left ∧ ∀ outcome ∈ outcomes.dropLast, outcome.fails = true

@[simp] theorem callsOf_append (number : Nat) (notes more : List Note) :
    callsOf number (notes ++ more) = callsOf number notes ++ callsOf number more := List.filterMap_append

theorem callsOf_cons (number : Nat) (note : Note) (notes : List Note) :
    callsOf number (note :: notes) = (note.outcome? number).toList ++ callsOf number notes := by
  rw [callsOf, List.filterMap_cons]
  cases note.outcome? number <;> rfl

theorem callsOf_append_singleton (number : Nat) (notes : List Note) (note : Note) :
    callsOf number (notes ++ [note]) = callsOf number notes ++ (note.outcome? number).toList := by
  rw [callsOf_append, callsOf_cons]
  exact congrArg _ (List.append_nil _)

theorem callsOf_eq_nil : callsOf number notes = [] ↔ ∀ outcome, .called number outcome ∉ notes := by
  simp only [callsOf, List.filterMap_eq_nil_iff, Option.eq_none_iff_forall_ne_some, ne_eq, Note.outcome?_eq_some]
  exact ⟨fun h outcome hnote => h _ hnote outcome rfl, fun h note hnote outcome heq => h outcome (heq ▸ hnote)⟩

@[simp] theorem attemptsLeft_nil (attempts : Nat) : attemptsLeft attempts [] = 0 := rfl

theorem attemptsLeft_append_singleton (attempts : Nat) (outcomes : List Outcome) (outcome : Outcome) :
    attemptsLeft attempts (outcomes ++ [outcome]) =
      if outcome.fails then
        (if attemptsLeft attempts outcomes = 0 then attempts else attemptsLeft attempts outcomes) - 1
      else 0 := by
  rw [attemptsLeft, List.foldl_append]
  rfl

@[simp] theorem isRestOfTick_zero {outcomes : List Outcome} : IsRestOfTick 0 outcomes ↔ outcomes = [] := by
  refine ⟨fun h => List.length_eq_zero_iff.1 (Nat.le_zero.1 h.1), ?_⟩
  rintro rfl
  exact ⟨Nat.le_refl 0, by simp⟩

theorem isRestOfTick_cons {outcomes : List Outcome} (hleft : 0 < left)
    (h : IsRestOfTick (if outcome.fails then left - 1 else 0) outcomes) : IsRestOfTick left (outcome :: outcomes) := by
  obtain ⟨hlength, hfails⟩ := h
  cases outcomes with
  | nil => exact ⟨hleft, by simp⟩
  | cons next rest =>
    -- There is a further call, so this one has failed.
    split at hlength
    · next hfail =>
      rw [List.length_cons] at hlength
      refine ⟨by simp only [List.length_cons]; omega, ?_⟩
      rw [List.dropLast_cons_cons]
      exact List.forall_mem_cons.2 ⟨hfail, hfails⟩
    · cases hlength

theorem isLive_append_singleton : IsLive (notes ++ [note]) number ↔
    note = .started number true ∨ IsLive notes number ∧ note ≠ .stopped ∧ note ≠ .called number .breaks := by
  constructor
  · rintro ⟨past, future, hnotes, hstopped, hbroken⟩
    rcases List.eq_nil_or_concat future with rfl | ⟨before, last, rfl⟩
    · exact .inl (List.append_singleton_inj.1 hnotes).2
    · rw [List.concat_eq_append, ← List.cons_append, ← List.append_assoc, List.append_singleton_inj] at hnotes
      obtain ⟨rfl, rfl⟩ := hnotes
      simp only [List.concat_eq_append, List.mem_append, List.mem_singleton, not_or] at hstopped hbroken
      exact .inr ⟨⟨past, before, rfl, hstopped.1, hbroken.1⟩, Ne.symm hstopped.2, Ne.symm hbroken.2⟩
  · rintro (rfl | ⟨⟨past, future, rfl, hstopped, hbroken⟩, hstopped', hbroken'⟩)
    · exact ⟨notes, [], rfl, by simp, by simp⟩
    · refine ⟨past, future ++ [note], by simp, ?_, ?_⟩ <;> simp only [List.mem_append, List.mem_singleton, not_or]
      · exact ⟨hstopped, Ne.symm hstopped'⟩
      · exact ⟨hbroken, Ne.symm hbroken'⟩

theorem not_isLive_nil (number : Nat) : ¬ IsLive [] number := by
  rintro ⟨past, future, h, -⟩
  simp at h

theorem IsLive.mem (h : IsLive notes number) : .started number true ∈ notes := by
  obtain ⟨past, future, rfl, -⟩ := h
  simp

/-- A loop that is live was started later or is live already. -/
theorem IsLive.of_append (h : IsLive (past ++ future) number) :
    .started number true ∈ future ∨ IsLive past number := by
  induction future generalizing past with
  | nil => exact .inr (by simpa using h)
  | cons note future ih =>
    rw [List.append_cons] at h
    rcases ih h with hlater | hthen
    · exact .inl (List.mem_cons_of_mem _ hlater)
    · rcases isLive_append_singleton.1 hthen with rfl | ⟨hlive, -⟩
      · exact .inl List.mem_cons_self
      · exact .inr hlive

/-! ## Lawful notes -/

/-- A note that may come after others. -/
def Allowed (attempts : Nat) (notes : List Note) : Note → Prop
  | .started number accepted =>
    (∀ note ∈ notes, note.number? ≠ some number) ∧ (accepted = true ↔ ∀ k, ¬ IsLive notes k)
  | .stopped => True
  | .called number _ => IsLive notes number ∨ 0 < attemptsLeft attempts (callsOf number notes)

/-- Each note may come after those before it. -/
def Lawful (attempts : Nat) (notes : List Note) : Prop :=
  ∀ past note future, notes = past ++ note :: future → Allowed attempts past note

theorem lawful_nil (attempts : Nat) : Lawful attempts [] := fun _ _ _ h => by simp at h

theorem lawful_append_singleton :
    Lawful attempts (notes ++ [note]) ↔ Lawful attempts notes ∧ Allowed attempts notes note := by
  constructor
  · refine fun h => ⟨fun past note' future hnotes => h past note' (future ++ [note]) (by simp [hnotes]), ?_⟩
    exact h notes note [] rfl
  · rintro ⟨hlawful, hallowed⟩ past note' future hnotes
    rcases List.eq_nil_or_concat future with rfl | ⟨before, last, rfl⟩
    · obtain ⟨rfl, rfl⟩ := List.append_singleton_inj.1 hnotes
      exact hallowed
    · rw [List.concat_eq_append, ← List.cons_append, ← List.append_assoc, List.append_singleton_inj] at hnotes
      exact hlawful past note' before hnotes.1

namespace Lawful

theorem of_append (h : Lawful attempts (past ++ future)) : Lawful attempts past :=
  fun before note after hpast => h before note (after ++ future) (by simp [hpast])

/-- At most one loop is live. -/
theorem isLive_unique (h : Lawful attempts notes) {k : Nat} (hnumber : IsLive notes number) (hk : IsLive notes k) :
    number = k := by
  induction notes using List.reverseRecOn with
  | nil => exact absurd hk (not_isLive_nil k)
  | append_singleton notes note ih =>
    obtain ⟨hlawful, hallowed⟩ := lawful_append_singleton.1 h
    rcases isLive_append_singleton.1 hnumber with rfl | ⟨hnumber', -⟩ <;>
      rcases isLive_append_singleton.1 hk with hstart | ⟨hk', -⟩
    · simpa using hstart
    · exact absurd hk' (hallowed.2.1 rfl k)
    · subst hstart
      exact absurd hnumber' (hallowed.2.1 rfl number)
    · exact ih hlawful hnumber' hk'

/-- The task of a start that was not accepted is not called, nor is one that no start came with. -/
theorem mem_of_called (h : Lawful attempts notes) (hcalled : .called number outcome ∈ notes) :
    .started number true ∈ notes := by
  induction notes using List.reverseRecOn generalizing outcome with
  | nil => cases hcalled
  | append_singleton notes note ih =>
    obtain ⟨hlawful, hallowed⟩ := lawful_append_singleton.1 h
    refine List.mem_append_left _ ?_
    rcases List.mem_append.1 hcalled with hcalled | hcalled
    · exact ih hlawful hcalled
    · obtain rfl := (List.mem_singleton.1 hcalled).symm
      rcases hallowed with hlive | hleft
      · exact hlive.mem
      · -- The tick in flight has had a call.
        have hcalls : callsOf number notes ≠ [] := fun hnone => by simp [hnone] at hleft
        rw [ne_eq, callsOf_eq_nil] at hcalls
        push Not at hcalls
        obtain ⟨earlier, hearlier⟩ := hcalls
        exact ih hlawful hearlier

/-- A loop that is not live any more makes the attempts that its tick has left, and then there is an end of it. -/
theorem finishing (h : Lawful attempts (past ++ future)) {note : Note} (hstarted : note ∈ past)
    (hnumber : note.number? = some number) (hdead : ¬ IsLive past number) :
    ¬ IsLive (past ++ future) number ∧
      IsRestOfTick (attemptsLeft attempts (callsOf number past)) (callsOf number future) := by
  induction future generalizing past with
  | nil => exact ⟨by simpa using hdead, by simp [IsRestOfTick, callsOf]⟩
  | cons next future ih =>
    rw [List.append_cons] at h ⊢
    have hallowed := (lawful_append_singleton.1 h.of_append).2
    have hdead' : ¬ IsLive (past ++ [next]) number := by
      rw [isLive_append_singleton]
      rintro (rfl | ⟨hlive, -⟩)
      · exact hallowed.1 note hstarted hnumber
      · exact hdead hlive
    obtain ⟨hend, hrest⟩ := ih h (List.mem_append_left _ hstarted) hdead'
    refine ⟨hend, ?_⟩
    rw [callsOf_append_singleton] at hrest
    rw [callsOf_cons]
    cases hcall : next.outcome? number with
    | none => simpa [hcall] using hrest
    | some outcome =>
      obtain rfl := Note.outcome?_eq_some.1 hcall
      have hleft : 0 < attemptsLeft attempts (callsOf number past) := hallowed.resolve_left hdead
      rw [hcall, Option.toList_some, attemptsLeft_append_singleton, if_neg (Nat.ne_of_gt hleft)] at hrest
      exact isRestOfTick_cons hleft hrest

/-- The task of a start that is refused is never called. -/
theorem refused (h : Lawful attempts (past ++ .started number false :: future)) :
    callsOf number (past ++ .started number false :: future) = [] := by
  have hfresh : callsOf number past = [] := by
    rw [callsOf_eq_nil]
    intro outcome hcalled
    exact (h past _ future rfl).1 _ hcalled rfl
  rw [List.append_cons] at h ⊢
  have hdead : ¬ IsLive (past ++ [.started number false]) number := by
    rw [isLive_append_singleton]
    rintro (hstart | ⟨hlive, -⟩)
    · cases hstart
    · exact (h.of_append past _ [] rfl).1 _ hlive.mem rfl
  have hcalls := callsOf_append_singleton number past (.started number false)
  rw [hfresh] at hcalls
  have hrest := (h.finishing List.mem_concat_self rfl hdead).2
  rw [hcalls] at hrest
  rw [callsOf_append, hcalls, isRestOfTick_zero.1 hrest]
  rfl

/-- After a stop, the loop makes the attempts that its tick has left. -/
theorem stopped (h : Lawful attempts (past ++ .stopped :: future)) (hstarted : .started number true ∈ past) :
    ¬ IsLive (past ++ .stopped :: future) number ∧
      IsRestOfTick (attemptsLeft attempts (callsOf number past)) (callsOf number future) := by
  rw [List.append_cons] at h ⊢
  have hdead : ¬ IsLive (past ++ [.stopped]) number := by simp [isLive_append_singleton]
  have hrest := h.finishing (List.mem_append_left _ hstarted) rfl hdead
  rwa [callsOf_append_singleton, show (Note.stopped.outcome? number).toList = [] from rfl, List.append_nil] at hrest

/-- A call that breaks down is the last one of its loop. -/
theorem broken (h : Lawful attempts (past ++ .called number .breaks :: future)) :
    ¬ IsLive (past ++ .called number .breaks :: future) number ∧ callsOf number future = [] := by
  rw [List.append_cons] at h ⊢
  have hdead : ¬ IsLive (past ++ [.called number .breaks]) number := by simp [isLive_append_singleton]
  obtain ⟨hend, hrest⟩ := h.finishing List.mem_concat_self rfl hdead
  rw [callsOf_append_singleton, Note.outcome?_eq_some.2 rfl, Option.toList_some, attemptsLeft_append_singleton,
    if_neg (by decide), isRestOfTick_zero] at hrest
  exact ⟨hend, hrest⟩

/-- When the live loop breaks down, no loop is live until a start is accepted again. -/
theorem not_isLive_of_broken (h : Lawful attempts (past ++ .called number .breaks :: future))
    (hlive : IsLive past number) (hstarts : ∀ k, .started k true ∉ future) (k : Nat) :
    ¬ IsLive (past ++ .called number .breaks :: future) k := by
  intro hk
  rw [List.append_cons] at h hk
  rcases isLive_append_singleton.1 (hk.of_append.resolve_left (hstarts k)) with hstart | ⟨hk', -, hother⟩
  · cases hstart
  · exact hother (by rw [h.of_append.of_append.isLive_unique hlive hk'])

end Lawful

end Timer

end Invoicing
