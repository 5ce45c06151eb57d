import Invoicing.Json.Fields

set_option autoImplicit false

/-! # Time

Seconds since the epoch, inclusive windows of them and a clock that is set by hand. A window without
a lower end starts at zero, and one without an upper end stays open until `closedAt` closes it. -/

namespace Invoicing

/-- Seconds since the epoch. -/
abbrev Timestamp := UInt64

/-! ## Windows -/

/-- The timestamps from `lower` to `upper`, both included. -/
structure Window where
  lower : Option Timestamp
  upper : Option Timestamp
deriving DecidableEq, Repr

namespace Window

/-- All timestamps. -/
def all : Window := ⟨none, none⟩

def between (lower upper : Timestamp) : Window := ⟨some lower, some upper⟩

def since (lower : Timestamp) : Window := ⟨some lower, none⟩

def upTo (upper : Timestamp) : Window := ⟨none, some upper⟩

/-- Ends an open window at `now`. -/
def closedAt (w : Window) (now : Timestamp) : Window := ⟨w.lower, w.upper.or (some now)⟩

def contains (w : Window) (t : Timestamp) : Bool :=
  decide (w.lower.getD 0 ≤ t) && w.upper.all fun upper => decide (t ≤ upper)

/-- Is a timestamp in a window? Without a window every one is. -/
def admits (w : Option Window) (t : Timestamp) : Bool := w.all (·.contains t)

@[simp] theorem admits_none (t : Timestamp) : admits none t = true := rfl

@[simp] theorem admits_some (w : Window) (t : Timestamp) : admits (some w) t = w.contains t := rfl

instance : Wire Window where
  toJson w := .ofFields [("from", w.lower.map toJson), ("to", w.upper.map toJson)]
  ofJson? j := do
    let fields ← j.fields? ["from", "to"]
    return {
      lower := ← fields.optional "from" Wire.ofJson?
      upper := ← fields.optional "to" Wire.ofJson? }

end Window

/-! ## Clocks -/

/-- A clock that stands still until it is moved. -/
structure Clock where
  now : Timestamp
deriving DecidableEq, Repr

namespace Clock

def set (_ : Clock) (now : Timestamp) : Clock := ⟨now⟩

/-- Moves the clock forward; it starts again after its last second. -/
def advance (c : Clock) (seconds : Timestamp) : Clock := ⟨c.now + seconds⟩

end Clock

end Invoicing
