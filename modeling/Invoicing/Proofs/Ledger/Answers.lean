import Invoicing.Ledger.Memory
import Invoicing.Proofs.Effect

set_option autoImplicit false

/-! # Answers of any ledger

Whatever logs a ledger holds and whichever calls fail, a computation that only asks it comes to the answer that its logs
and times determine, or to an error (`Ledger.Answers`), and it cannot tell ledgers apart that differ in logs which its
filters pass over (`Ledger.Alike`). -/

namespace Invoicing

namespace Ledger

/-! ## What the logs and times determine -/

/-- The time of a block, if there is one. -/
def timeAt (times : List (BlockNumber × Timestamp)) (block : BlockNumber) : Except DetectionError Timestamp :=
  match times.lookup block with
  | some time => .ok time
  | none => .error (.ledger s!"unknown block {block}")

variable {α β : Type}

/-- A computation leaves these logs and times as they are and comes to `r`, unless a call fails. -/
def Answers (logs : List Log) (times : List (BlockNumber × Timestamp)) (m : LedgerM α)
    (r : Except DetectionError α) : Prop :=
  ∀ l : Ledger, l.logs = logs → l.times = times →
    ((m.run.run l).2.logs = logs ∧ (m.run.run l).2.times = times) ∧
    (l.faults.Quiet → (m.run.run l).1 = r ∧ (m.run.run l).2.faults.Quiet) ∧
    ((m.run.run l).1 = r ∨ ∃ e, (m.run.run l).1 = .error e)

variable {logs : List Log} {times : List (BlockNumber × Timestamp)}

theorem answers_pure (a : α) : Answers logs times (pure a) (.ok a) :=
  fun _ hlogs htimes => ⟨⟨hlogs, htimes⟩, fun hquiet => ⟨rfl, hquiet⟩, .inl rfl⟩

theorem answers_ofExcept (r : Except DetectionError α) : Answers logs times (MonadExcept.ofExcept r) r := by
  intro l hlogs htimes
  rw [Effect.run_ofExcept]
  exact ⟨⟨hlogs, htimes⟩, fun hquiet => ⟨rfl, hquiet⟩, .inl rfl⟩

theorem Answers.bind {m : LedgerM α} {f : α → LedgerM β} {r : Except DetectionError α}
    {g : α → Except DetectionError β} (hm : Answers logs times m r)
    (hf : ∀ a, r = .ok a → Answers logs times (f a) (g a)) : Answers logs times (m >>= f) (r >>= g) := by
  intro l hlogs htimes
  obtain ⟨⟨hlogs', htimes'⟩, hquiet, hres⟩ := hm l hlogs htimes
  cases hrun : (m.run.run l).1 with
  | error e =>
    rw [hrun] at hquiet
    rw [Effect.run_bind_error hrun]
    refine ⟨⟨hlogs', htimes'⟩, fun hq => ⟨?_, (hquiet hq).2⟩, .inr ⟨e, rfl⟩⟩
    rw [← (hquiet hq).1]
    rfl
  | ok a =>
    rw [hrun] at hquiet hres
    rw [Effect.run_bind_ok hrun]
    obtain rfl : r = .ok a := (hres.resolve_right nofun).symm
    obtain ⟨hkept, hquiet', hres'⟩ := hf a rfl _ hlogs' htimes'
    exact ⟨hkept, fun hq => hquiet' (hquiet hq).2, hres'⟩

/-! ## Calls that fail -/

/-- The error of a call that fails as the schedule says. -/
def failure : DetectionError := .ledger "injected failure"

/-- A computation answers `r`, and a call that fails is all that can keep it from it. -/
structure ComesTo (logs : List Log) (times : List (BlockNumber × Timestamp)) (m : LedgerM α)
    (r : Except DetectionError α) : Prop where
  answers : Answers logs times m r
  result : ∀ l : Ledger, l.logs = logs → l.times = times →
    (m.run.run l).1 = r ∨ (m.run.run l).1 = .error failure

theorem comesTo_pure (a : α) : ComesTo logs times (pure a) (.ok a) := ⟨answers_pure a, fun _ _ _ => .inl rfl⟩

theorem comesTo_ofExcept (r : Except DetectionError α) : ComesTo logs times (MonadExcept.ofExcept r) r :=
  ⟨answers_ofExcept r, fun l _ _ => .inl (congrArg Prod.fst (Effect.run_ofExcept r l))⟩

theorem ComesTo.bind {m : LedgerM α} {f : α → LedgerM β} {r : Except DetectionError α}
    {g : α → Except DetectionError β} (hm : ComesTo logs times m r)
    (hf : ∀ a, r = .ok a → ComesTo logs times (f a) (g a)) : ComesTo logs times (m >>= f) (r >>= g) := by
  refine ⟨hm.answers.bind fun a ha => (hf a ha).answers, fun l hlogs htimes => ?_⟩
  rcases hm.result l hlogs htimes with hres | hres
  · cases r with
    | error e => exact .inl (congrArg Prod.fst (Effect.run_bind_error hres))
    | ok a =>
      rw [Effect.run_bind_ok hres]
      obtain ⟨hlogs', htimes'⟩ := (hm.answers l hlogs htimes).1
      exact (hf a rfl).result _ hlogs' htimes'
  · exact .inr (congrArg Prod.fst (Effect.run_bind_error hres))

theorem ComesTo.bind_ok {m : LedgerM α} {f : α → LedgerM β} {a : α} {r : Except DetectionError β}
    (hm : ComesTo logs times m (.ok a)) (hf : ComesTo logs times (f a) r) : ComesTo logs times (m >>= f) r :=
  hm.bind (g := fun _ => r) fun _ ha => Except.ok.inj ha ▸ hf

theorem comesTo_mapM {f : α → LedgerM β} {g : α → Except DetectionError β}
    (hf : ∀ a, ComesTo logs times (f a) (g a)) (as : List α) : ComesTo logs times (as.mapM f) (as.mapM g) := by
  induction as with
  | nil => exact comesTo_pure _
  | cons a as ih =>
    rw [List.mapM_cons, List.mapM_cons]
    exact (hf a).bind fun b _ => ih.bind fun bs _ => comesTo_pure _

theorem comesTo_call : ComesTo logs times call (.ok ()) := by
  have hrun (l : Ledger) : call.run.run l = ((if l.faults.failing then throw (.ledger "injected failure")
      else pure ()) : LedgerM Unit).run.run { l with faults := l.faults.tick } := rfl
  constructor
  · intro l hlogs htimes
    rw [hrun]
    cases hfails : l.faults.failing with
    | false => exact ⟨⟨hlogs, htimes⟩, fun hquiet => ⟨rfl, hquiet.tick⟩, .inl rfl⟩
    | true =>
      refine ⟨⟨hlogs, htimes⟩, fun hquiet => ?_, .inr ⟨_, rfl⟩⟩
      rw [hquiet.failing] at hfails
      cases hfails
  · intro l _ _
    rw [hrun]
    cases l.faults.failing with
    | false => exact .inl rfl
    | true => exact .inr rfl

theorem comesTo_select (filter : LogFilter) :
    ComesTo logs times (select filter) (.ok (logs.filter filter.selects)) := by
  refine comesTo_call.bind_ok ⟨fun l hlogs htimes => ?_, fun l hlogs _ => .inl (hlogs ▸ rfl)⟩
  subst hlogs
  exact ⟨⟨rfl, htimes⟩, fun hquiet => ⟨rfl, hquiet⟩, .inl rfl⟩

theorem time_eq (block : BlockNumber) :
    time block = call >>= fun _ => get >>= fun l => MonadExcept.ofExcept (timeAt l.times block) := by
  refine congrArg _ (funext fun _ => congrArg _ (funext fun l => ?_))
  rw [timeAt]
  cases l.times.lookup block <;> rfl

/-- The time of a block is looked up in the times of the ledger. -/
theorem run_lookup (l : Ledger) (block : BlockNumber) :
    (get >>= fun l => MonadExcept.ofExcept (timeAt l.times block) : LedgerM Timestamp).run.run l =
      (timeAt l.times block, l) := by
  rw [Effect.run_bind_ok rfl, Effect.run_ofExcept]
  rfl

theorem comesTo_time (block : BlockNumber) : ComesTo logs times (time block) (timeAt times block) := by
  rw [time_eq]
  refine comesTo_call.bind_ok ⟨fun l hlogs htimes => ?_, fun l _ htimes => ?_⟩
  · subst htimes
    rw [run_lookup]
    exact ⟨⟨hlogs, rfl⟩, fun hquiet => ⟨rfl, hquiet⟩, .inl rfl⟩
  · rw [run_lookup, htimes]
    exact .inl rfl

/-- `l'` has the logs and times of `l`, and no call to it fails. -/
structure Keeps (l l' : Ledger) : Prop where
  logs : l'.logs = l.logs
  times : l'.times = l.times
  quiet : l'.faults.Quiet

variable {l : Ledger}

theorem Answers.run_eq {m : LedgerM α} {r : Except DetectionError α} (h : Answers l.logs l.times m r)
    (hquiet : l.faults.Quiet) : (m.run.run l).1 = r := ((h l rfl rfl).2.1 hquiet).1

theorem Answers.keeps {m : LedgerM α} {r : Except DetectionError α} (h : Answers l.logs l.times m r)
    (hquiet : l.faults.Quiet) : l.Keeps (m.run.run l).2 :=
  ⟨(h l rfl rfl).1.1, (h l rfl rfl).1.2, ((h l rfl rfl).2.1 hquiet).2⟩

/-! ## Ledgers that filters cannot tell apart -/

/-- The ledgers differ at most in logs that none of the filters selects. -/
structure Alike (filters : LogFilter → Prop) (l l' : Ledger) : Prop where
  logs : ∀ f, filters f → l.logs.filter f.selects = l'.logs.filter f.selects
  times : l.times = l'.times
  faults : l.faults = l'.faults
  queries : l.queries = l'.queries

variable {filters : LogFilter → Prop}

theorem agrees_call : Effect.Agrees (Alike filters) call := by
  intro l l' h
  have hrun : ∀ l, call.run.run l = ((if l.faults.failing then throw (.ledger "injected failure")
      else pure ()) : LedgerM Unit).run.run { l with faults := l.faults.tick } := fun _ => rfl
  have halike : Alike filters { l with faults := l.faults.tick } { l' with faults := l'.faults.tick } :=
    ⟨h.logs, h.times, congrArg Faults.tick h.faults, h.queries⟩
  rw [hrun, hrun, ← h.faults]
  cases l.faults.failing with
  | false => exact ⟨rfl, h.faults ▸ halike⟩
  | true => exact ⟨rfl, h.faults ▸ halike⟩

theorem agrees_select {f : LogFilter} (hf : filters f) : Effect.Agrees (Alike filters) (select f) :=
  agrees_call.bind fun _ _ _ h =>
    ⟨congrArg Except.ok (h.logs f hf), h.logs, h.times, h.faults, congrArg (· + 1) h.queries⟩

theorem agrees_time (block : BlockNumber) : Effect.Agrees (Alike filters) (time block) := by
  rw [time_eq]
  refine agrees_call.bind fun _ l l' h => ?_
  rw [run_lookup, run_lookup, h.times]
  exact ⟨rfl, h⟩

end Ledger

end Invoicing
