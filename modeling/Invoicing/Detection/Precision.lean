import Invoicing.Address
import Invoicing.Amount
import Invoicing.Currency

set_option autoImplicit false

/-! # Precision

Price feeds count every currency with eight decimals. Amounts are reported in the smallest unit of the request's
currency, so they are scaled up or cut down by a power of ten. -/

namespace Invoicing

/-- A currency and the number of its decimals. -/
structure PreciseCurrency where
  currency : Currency
  decimals : Nat
deriving DecidableEq, Repr

namespace PreciseCurrency

/-- The decimals with which price feeds count. -/
def feedDecimals : Nat := 8

/-- The usual number of decimals. -/
def usualDecimals (c : Currency) : Nat :=
  match c.kind with
  | .fiat => if c.value = "JPY" then 0 else 2
  | .bitcoin => 8
  | .ether | .token => 18

/-- A currency with its usual decimals. -/
def ofCurrency (c : Currency) : PreciseCurrency := ⟨c, usualDecimals c⟩

/-- Is the currency the one that price feeds know by this address? -/
def isAt (c : PreciseCurrency) (a : Address) : Bool := Address.same c.currency.feedAddress a.render

/-- An amount of a price feed in units of the currency, at most the largest amount. There is none if the scale itself
is larger than that. -/
def ofFeed? (c : PreciseCurrency) (a : Amount) : Option Amount :=
  if feedDecimals ≤ c.decimals then
    (Amount.tenTo? (c.decimals - feedDecimals)).map fun scale => Amount.clamp (a.value * scale.value)
  else some (Amount.clamp (a.value / 10 ^ (feedDecimals - c.decimals)))

end PreciseCurrency

end Invoicing
