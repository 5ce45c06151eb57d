set_option autoImplicit false

/-! # Faults

A schedule says which calls to a collaborator fail. Calls are counted, so that a fault can be placed at
any of them. -/

namespace Invoicing

/-- Which calls fail, by their number, and how many calls there have been. -/
structure Faults where
  fails : Nat → Bool
  calls : Nat

namespace Faults

/-- No call fails. -/
def never : Faults := ⟨fun _ => false, 0⟩

instance : Inhabited Faults := ⟨never⟩

/-- The next `count` calls fail and no later one does. -/
def next (f : Faults) (count : Nat) : Faults := { f with fails := fun n => decide (n < f.calls + count) }

/-- Does the call that is made now fail? -/
def failing (f : Faults) : Bool := f.fails f.calls

/-- Counts a call. -/
def tick (f : Faults) : Faults := { f with calls := f.calls + 1 }

/-- No call fails from now on. -/
def Quiet (f : Faults) : Prop := ∀ n, f.calls ≤ n → f.fails n = false

theorem quiet_never : never.Quiet := fun _ _ => rfl

theorem Quiet.tick {f : Faults} (h : f.Quiet) : f.tick.Quiet :=
  fun n hn => h n (Nat.le_of_succ_le hn)

theorem Quiet.failing {f : Faults} (h : f.Quiet) : f.failing = false := h f.calls (Nat.le_refl _)

end Faults

end Invoicing
