import Invoicing.Detection.Config
import Invoicing.Detection.Precision
import Invoicing.Ledger.Memory

set_option autoImplicit false

/-! # Searching for transfers

A search finds the transfers with one reference to one destination. It asks the ledger for the two kinds of logs of the
reference, pairs them by transaction, keeps the pairs that pay the destination in the right currency at a rate that
is fresh enough, and looks up when they happened. -/

namespace Invoicing

/-- What is searched for. -/
structure Search where
  currency : PreciseCurrency
  reference : String
  proxy : ProxyDeployment
  destination : String
  direction : Direction
  /-- The greatest age of a rate. -/
  maxRateTimespan : UInt64

/-- The two sides of a payment. -/
structure PairedTransfer where
  block : BlockNumber
  transaction : Hash
  conversion : Conversion
  transfer : Transfer
deriving DecidableEq

namespace Search

/-- The filter for one kind of logs of a reference. -/
def filter (s : Search) (kind reference : Hash) : LogFilter :=
  ⟨s.proxy.address, [some kind, some reference], s.proxy.creationBlock, .latest⟩

/-- The other side of a log, in the first log of its transaction. -/
def pair (transfers : List Log) (log : Log) : Except DetectionError PairedTransfer :=
  match Conversion.decode? log.data with
  | none => .error (.malformedLog Conversion.name log.transaction)
  | some conversion =>
    match transfers.find? fun t => t.transaction == log.transaction with
    | none => .error (.missingTransfer log.transaction)
    | some other =>
      match Transfer.decode? other.data with
      | none => .error (.malformedLog Transfer.name log.transaction)
      | some transfer => .ok ⟨log.block, log.transaction, conversion, transfer⟩

/-- Does a payment count? -/
def accepts (s : Search) (p : PairedTransfer) : Bool :=
  decide (p.conversion.maxRateTimespan.value ≤ s.maxRateTimespan.toNat) &&
    s.currency.isAt p.conversion.currency &&
    Address.same (Address.checksummed p.transfer.recipient) s.destination

/-- An amount of a price feed as text. -/
def scaled (s : Search) (a : Amount) : Except DetectionError String :=
  match s.currency.ofFeed? a with
  | some a => .ok a.render
  | none => .error .scaleTooLarge

/-- The event of a payment at a known time. -/
def event (s : Search) (p : PairedTransfer) (time : Timestamp) : Except DetectionError PaymentEvent := do
  return {
    amount := ← s.scaled p.conversion.amount
    name := s.direction
    details :=
      { block := p.block
        transaction := p.transaction
        destination := s.destination
        feeAddress := some (Address.checksummed p.transfer.feeAddress)
        feeAmount := some (← s.scaled p.conversion.feeAmount)
        tokenAmount := some p.transfer.amount.render
        tokenFee := some p.transfer.feeAmount.render
        maxRateTimespan := some p.conversion.maxRateTimespan.render }
    timestamp := time }

/-- The events of a search, in the order of the logs. -/
def events (s : Search) : LedgerM (List PaymentEvent) := do
  let reference ← MonadExcept.ofExcept (Reference.topic s.reference)
  let conversions ← Ledger.select (s.filter Conversion.topic reference)
  let transfers ← Ledger.select (s.filter Transfer.topic reference)
  let paired ← MonadExcept.ofExcept (conversions.mapM (pair transfers))
  (paired.filter s.accepts).mapM fun p => do
    MonadExcept.ofExcept (s.event p (← Ledger.time p.block))

end Search

end Invoicing
