import Invoicing.Detection.Detector
import Invoicing.Extension.Registry
import Invoicing.Service.Basic
import Invoicing.Storage.Memory
import Invoicing.Proofs.Record
import Invoicing.Proofs.Index.History
import Invoicing.Proofs.Index.Reading
import Invoicing.Proofs.Index.Batch
import Invoicing.Proofs.Index.Content
import Invoicing.Proofs.Index.Queries
import Invoicing.Proofs.Service.Task
import Invoicing.Proofs.Service.Run
import Invoicing.Proofs.Service.Growth
import Invoicing.Proofs.Service.Watermark
import Invoicing.Proofs.Json.Tree
import Invoicing.Proofs.Json.Wire
import Invoicing.Proofs.Block.Check
import Invoicing.Proofs.Block.Building
import Invoicing.Proofs.Block
import Invoicing.Proofs.Service.Channel
import Invoicing.Proofs.Address
import Invoicing.Proofs.Detection.Pairing
import Invoicing.Proofs.Service.Restart
import Invoicing.Proofs.Service.Provenance
import Invoicing.Proofs.Service.Topics
import Invoicing.Proofs.Index.Order
import Invoicing.Proofs.Service.Clock
import Invoicing.Proofs.Service.Resume
import Invoicing.Proofs.Service.Rebuild
import Invoicing.Proofs.Extension.Step
import Invoicing.Proofs.Extension.History
import Invoicing.Proofs.Extension.Authority
import Invoicing.Proofs.Extension.Validity
import Invoicing.Proofs.Index.Failure
import Invoicing.Proofs.Detection.Balance
import Invoicing.Proofs.Service.Storing
import Invoicing.Proofs.Index.Replay
import Invoicing.Proofs.Service.CatchUp
import Invoicing.Proofs.Service.Lifecycle
import Invoicing.Proofs.Service.Retry
import Invoicing.Proofs.Service.Replay
import Invoicing.Proofs.Service.Interference
import Invoicing.Proofs.Service.Pool
import Invoicing.Proofs.Timer.Notes
import Invoicing.Proofs.Timer.Loops
import Invoicing.Proofs.Timer.Session
import Invoicing.Proofs.Service.Automatic
import Invoicing.Proofs.Index.Arrival
import Invoicing.Proofs.Storage.Memory
import Invoicing.Proofs.Ledger.Answers
import Invoicing.Proofs.Detection.Search
import Invoicing.Proofs.Json.Records
import Invoicing.Proofs.Index.Atomic
import Invoicing.Proofs.Service.Interrupted
import Invoicing.Proofs.Service.Windows
import Invoicing.Proofs.Service.ByTopic
import Invoicing.Proofs.Block.Acceptance
import Invoicing.Proofs.Storage.Coverage
import Invoicing.Proofs.Service.Tagged
import Invoicing.Proofs.Index.Frame
import Invoicing.Proofs.Service.Frame
import Invoicing.Proofs.Detection.Audit
import Invoicing.Proofs.Detection.Once
import Invoicing.Proofs.Detection.Spelling
import Invoicing.Proofs.Detection.Causes
import Invoicing.Proofs.Extension.Builder
import Invoicing.Proofs.Extension.Independence
import Invoicing.Proofs.Detection.Precision
import Invoicing.Proofs.Timer.Schedule
import Invoicing.Proofs.Detection.Exact
import Invoicing.Proofs.Ledger.Words
import Invoicing.Proofs.Index.Loading
import Invoicing.Proofs.Address.Acceptance
import Invoicing.Proofs.Amount
