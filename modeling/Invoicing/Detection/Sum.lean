import Invoicing.Address
import Invoicing.Amount
import Invoicing.Detection.Error

set_option autoImplicit false

/-! # Sums of events

Amounts of events are text, and a sum fails at the first one that is no amount. Sums stop at the largest amount. -/

namespace Invoicing

namespace Amount

/-- The amount that a text spells. -/
def parse (s : String) : Except DetectionError Amount :=
  match ofText? s with
  | some a => .ok a
  | none => .error (.invalidAmount s)

/-- The sum of amounts that are given as text, after a first part. -/
def sumTextsFrom (total : Amount) : List String → Except DetectionError Amount
  | [] => .ok total
  | s :: rest => do sumTextsFrom (total.add (← parse s)) rest

def sumTexts (ss : List String) : Except DetectionError Amount := sumTextsFrom zero ss

/-- The difference of two amounts, with a sign if it is negative. -/
def difference (a b : Amount) : String :=
  if b.value ≤ a.value then String.ofList (Nat.toDigits 10 (a.value - b.value))
  else String.ofList ('-' :: Nat.toDigits 10 (b.value - a.value))

end Amount

namespace PaymentEvent

/-- The sum of the amounts of some events. -/
def sum (events : List PaymentEvent) : Except DetectionError Amount :=
  Amount.sumTexts (events.map (·.amount))

/-- The fees of the events that pay them to an address. -/
def feesTo (address : String) (events : List PaymentEvent) : List String :=
  (events.filter fun e => e.details.feeAddress.any fun a => Address.same a address).filterMap
    (·.details.feeAmount)

/-- The sum of the fees paid to an address; nothing without one. -/
def feeSum (events : List PaymentEvent) (address : Option String) : Except DetectionError Amount :=
  match address with
  | none => .ok .zero
  | some address => Amount.sumTexts (feesTo address events)

end PaymentEvent

/-- Payments less refunds. -/
def signedBalance (payments refunds : String) : Except DetectionError String := do
  return (← Amount.parse payments).difference (← Amount.parse refunds)

end Invoicing
