import Invoicing.Amount
import Invoicing.Extension.Action
import Invoicing.Extension.Error

set_option autoImplicit false

/-! # Payment networks

A payment network is a way to pay a request, and each has rules for the requests it can be created for. The
conversion network takes any listed currency and pays in tokens; the token network pays in the token that the
request names. -/

namespace Invoicing

/-- The known ways to pay. -/
inductive PaymentNetwork where
  | conversion
  | token
deriving DecidableEq, Repr

namespace PaymentNetwork

/-- The extension that holds the network's values. -/
def id : PaymentNetwork → String
  | conversion => "pn-any-erc20-conversion-fee-proxy-contract"
  | token => "pn-erc20-fee-proxy-contract"

/-- The version that new extensions get. -/
def currentVersion : String := "0.1.0"

/-- The chain that is meant where none is named. -/
def defaultChain : String := "mainnet"

/-! ## Supported chains and currencies -/

/-- The currencies that can be converted on each chain. -/
def conversionCurrencies : List (String × List (CurrencyKind × List String)) :=
  [("mainnet",
    [(.fiat, ["USD", "EUR"]), (.ether, ["ETH"]),
     (.token, ["0x6b175474e89094c44da98b954eedeac495271d0f"])]),
   ("rinkeby",
    [(.fiat, ["EUR", "USD"]), (.ether, ["ETH"]),
     (.token, ["0xfab46e002bbf0b4509813474841e0716e6730136"])]),
   ("private",
    [(.fiat, ["USD", "EUR"]), (.ether, ["ETH"]),
     (.token, ["0x38cf23c52bb4b13f051aec09580a2de845a7fa35"])])]

/-- The chains with a conversion proxy. -/
def conversionChains : List String := conversionCurrencies.map Prod.fst

/-- The chains with a fee proxy. -/
def tokenChains : List String := ["mainnet", "rinkeby", "private"]

/-! ## Rules for new extensions -/

/-- Is a currency on a list? Tokens are listed by address, in any case. -/
def isListed (currency : Currency) (values : List String) : Bool :=
  values.any fun value =>
    match currency.kind with
    | .token => Address.same value currency.value
    | _ => value == currency.value

/-- Refuses a list of tokens that is missing, empty or holds anything but addresses. -/
def checkTokens (tokens : Option (List String)) : Except ExtensionError Unit :=
  match tokens with
  | none | some [] => .error .missingTokens
  | some tokens => if tokens.all Address.isValid then .ok () else .error .invalidTokens

/-- Refuses a request that cannot be converted. -/
def checkConversion (parameters : PaymentValues) (request : Request) : Except ExtensionError Unit :=
  let chain := parameters.network.getD defaultChain
  match conversionCurrencies.lookup chain with
  | none => .error (.unsupportedNetwork chain)
  | some table =>
    match table.lookup request.currency.kind with
    | none => .error (.unsupportedCurrencyKind request.currency.kind)
    | some values =>
      if isListed request.currency values then checkTokens parameters.tokensAccepted
      else .error (.unsupportedCurrency request.currency.value)

/-- Refuses a request that is not made in a token. -/
def checkToken (parameters : PaymentValues) (request : Request) : Except ExtensionError Unit :=
  let chain := (parameters.network.or request.currency.network).getD defaultChain
  if chain ∈ tokenChains then
    if request.currency.kind = .token then .ok ()
    else .error (.unsupportedCurrencyKind request.currency.kind)
  else .error (.unsupportedNetwork chain)

/-- The rules of a network for creating its extension. -/
def check : PaymentNetwork → PaymentValues → Request → Except ExtensionError Unit
  | conversion => checkConversion
  | token => checkToken

end PaymentNetwork

end Invoicing
