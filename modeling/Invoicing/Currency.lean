import Invoicing.Keccak
import Invoicing.Octets

set_option autoImplicit false

/-! # Currencies

A currency is a fiat symbol, the native coin of a chain or a token named by its contract. Price feeds on the
ledger know it by an address: a token by its own, all others by the end of the digest of the symbol. -/

namespace Invoicing

inductive CurrencyKind where
  | fiat
  | ether
  | token
  | bitcoin
deriving DecidableEq, Repr

namespace CurrencyKind

def name : CurrencyKind → String
  | fiat => "ISO4217"
  | ether => "ETH"
  | token => "ERC20"
  | bitcoin => "BTC"

def ofName? : String → Option CurrencyKind
  | "ISO4217" => some fiat
  | "ETH" => some ether
  | "ERC20" => some token
  | "BTC" => some bitcoin
  | _ => none

instance : Wire CurrencyKind := ⟨fun k => .ofText k.name, fun j => j.name?.bind ofName?⟩

end CurrencyKind

/-- The currency in which a request is made. -/
structure Currency where
  kind : CurrencyKind
  value : String
  network : Option String
deriving DecidableEq, Repr

namespace Currency

/-- The last 20 of the 32 bytes of a digest. -/
def tail (digest : Hash) : Address :=
  ⟨digest.bytes.drop 12, by rw [List.length_drop, digest.length_eq]⟩

/-- The address by which price feeds know a symbol of either case. -/
def symbolAddress (symbol : String) : Address :=
  tail (Keccak.digestText (symbol.map Char.toUpper))

/-- The address by which price feeds know the currency. -/
def feedAddress (c : Currency) : String :=
  match c.kind with
  | .token => c.value.map Char.toLower
  | _ => (symbolAddress c.value).render

instance : Wire Currency where
  toJson c := .ofFields
    [("type", toJson c.kind), ("value", toJson c.value), ("network", c.network.map toJson)]
  ofJson? j := do
    let fields ← j.fields? ["type", "value", "network"]
    return {
      kind := ← fields.required "type" Wire.ofJson?
      value := ← fields.required "value" Wire.ofJson?
      network := ← fields.optional "network" Wire.ofJson? }

end Currency

end Invoicing
