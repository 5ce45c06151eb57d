import Invoicing.Json.Fields

set_option autoImplicit false

/-! # Settings of the data service -/

namespace Invoicing

/-- How often the service looks for new data, and how hard it tries. -/
structure ServiceConfig where
  /-- Milliseconds between two looks. -/
  interval : UInt64
  /-- Attempts per look. -/
  maxAttempts : UInt32
  /-- Reads that one query may have in flight. -/
  maxReads : UInt64
deriving DecidableEq, Repr

namespace ServiceConfig

def standard : ServiceConfig := ⟨10000, 5, 5⟩

/-- Short intervals and a single attempt. -/
def brisk : ServiceConfig := ⟨100, 1, 2⟩

instance : Wire ServiceConfig where
  toJson c := .ofFields
    [("synchronization_interval_ms", some (.ofUInt64 c.interval)),
     ("max_sync_retries", some (.ofUInt32 c.maxAttempts)),
     ("max_concurrent_reads", some (.ofUInt64 c.maxReads))]
  ofJson? j := do
    let fields ← j.fields? ["synchronization_interval_ms", "max_sync_retries", "max_concurrent_reads"]
    return {
      interval := ← fields.default "synchronization_interval_ms" Json.uint64? standard.interval
      maxAttempts := ← fields.default "max_sync_retries" Json.uint32? standard.maxAttempts
      maxReads := ← fields.default "max_concurrent_reads" Json.uint64? standard.maxReads }

end ServiceConfig

end Invoicing
