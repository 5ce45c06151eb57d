import Invoicing.Proofs.Service.Channel

set_option autoImplicit false

/-! # Restarts

A service can be replaced by a new one over the same storage and the same records. What happens to it and to its
successors is then a list of turns, each an event or a restart. The new index does not know that its records have a
history, but it goes on with it: `Engine.Carries` is kept by every turn, and with it each invariant that every
event and every restart keeps (`Engine.Carries.through`). -/

namespace Invoicing

/-- What can happen to a service and its successors. -/
inductive Turn where
  | event (event : Event)
  /-- A new service takes over, with a new index over the same records. -/
  | restart

/-- The contents that a turn gives to the storage. -/
def Turn.contents : Turn → List String
  | .event e => e.contents
  | .restart => []

namespace Engine

/-- The engine that takes over. -/
def restarted (e : Engine) : Engine := .new { e.site with index := e.site.index.renewed }

/-- It is the engine of the service that takes the place of this one with a renewed index. -/
theorem engine_replaced (s : DataService) :
    (s.replaced { s.engine.site with index := s.engine.site.index.renewed }).engine = s.engine.restarted := rfl

/-- The engine after a turn. -/
def turn (e : Engine) : Turn → Engine
  | .event event => e.next event
  | .restart => e.restarted

/-- The engine after some turns. -/
def through (e : Engine) (turns : List Turn) : Engine := turns.foldl turn e

@[simp] theorem through_nil (e : Engine) : e.through [] = e := rfl

@[simp] theorem through_cons (e : Engine) (turn : Turn) (turns : List Turn) :
    e.through (turn :: turns) = (e.turn turn).through turns := rfl

/-! ## Conditions on runs -/

/-- Does every turn of a run satisfy a condition when it happens? -/
def Along (C : Engine → Turn → Prop) (e : Engine) : List Turn → Prop
  | [] => True
  | turn :: turns => C e turn ∧ (e.turn turn).Along C turns

theorem along_of_forall {C : Turn → Prop} {turns : List Turn} (h : ∀ turn ∈ turns, C turn) (e : Engine) :
    e.Along (fun _ => C) turns := by
  induction turns generalizing e with
  | nil => trivial
  | cons turn turns ih =>
    exact ⟨h turn List.mem_cons_self, ih (fun later hlater => h later (List.mem_cons_of_mem turn hlater)) _⟩

/-! ## Runs with restarts -/

variable {e : Engine} {h : History}

theorem carries_new (now : Timestamp) : (Engine.new (.empty now)).Carries [] := (tracks_new now).carries

theorem Carries.restarted (hc : e.Carries h) : e.restarted.Carries h :=
  ⟨hc.script, hc.ownTime, hc.records, nofun⟩

/-- A new engine is not set up and has no watermark. -/
def Status.restarted (s : Status) : Status := { s with isReady := false, watermark := 0 }

/-- What every event and every restart keeps is kept by a run. -/
theorem Carries.through {C : Engine → Turn → Prop} {I : Status → History → Prop}
    (hevent : ∀ {e h event added s}, e.Carries h → C e (.event event) → Progress e h event added s →
      I e.status h → I s (h ++ added))
    (hrestart : ∀ {s h}, I s h → I s.restarted h) (turns : List Turn) (hc : e.Carries h) (hi : I e.status h)
    (halong : e.Along C turns) : ∃ h', (e.through turns).Carries h' ∧ I (e.through turns).status h' := by
  induction turns generalizing e h with
  | nil => exact ⟨h, hc, hi⟩
  | cons turn turns ih =>
    cases turn with
    | event event =>
      obtain ⟨added, hc', -, hprogress⟩ := hc.progress event
      exact ih hc' (hevent hc halong.1 hprogress hi) halong.2
    | restart => exact ih hc.restarted (hrestart hi) halong.2

/-- After any run the records hold a history. -/
theorem carries_through (turns : List Turn) (hc : e.Carries h) : ∃ h', (e.through turns).Carries h' := by
  obtain ⟨h', hc', -⟩ := hc.through (C := fun _ _ => True) (I := fun _ _ => True) (fun _ _ _ _ => trivial)
    (fun _ => trivial) turns trivial (along_of_forall (fun _ _ => trivial) e)
  exact ⟨h', hc'⟩

/-- No turn of a run breaks the invariant of what the index lists. -/
theorem placed_through {contents : List String} (turns : List Turn) (hc : e.Carries h)
    (hp : Placed contents e.status.log h) (hcontents : ∀ content ∈ turns.flatMap Turn.contents, content ∈ contents)
    (hfree : CollisionFree contents) :
    ∃ h', (e.through turns).Carries h' ∧ Placed contents (e.through turns).status.log h' := by
  refine hc.through (C := fun _ turn => ∀ content ∈ turn.contents, content ∈ contents)
    (I := fun s h => Placed contents s.log h) (fun _ hturn hprogress hp => ?_) id turns hp (along_of_forall ?_ e)
  · exact hprogress.growth.placed hturn hfree hp
  · exact fun turn hturn content hcontent => hcontents content (List.mem_flatMap.2 ⟨turn, hturn, hcontent⟩)

end Engine

end Invoicing
