import Invoicing.Ledger.Log

set_option autoImplicit false

/-! # Settings of payment detection -/

namespace Invoicing

/-- Where the conversion proxy lives on a network. -/
structure ProxyDeployment where
  address : Address
  /-- The first block that can hold one of its logs. -/
  creationBlock : BlockNumber
deriving DecidableEq

instance : Wire ProxyDeployment where
  toJson d := .ofFields [("address", toJson d.address), ("creation_block", toJson d.creationBlock)]
  ofJson? j := do
    let fields ← j.fields? ["address", "creation_block"]
    return {
      address := ← fields.required "address" Wire.ofJson?
      creationBlock := ← fields.required "creation_block" Wire.ofJson? }

/-- The known deployments and the limits of a search. -/
structure DetectionConfig where
  deployments : Dict String ProxyDeployment
  /-- The greatest rate age for requests that set none. -/
  maxRateTimespan : UInt64
  /-- Ledger calls that one search may have in flight. -/
  maxCalls : UInt64
deriving DecidableEq

namespace DetectionConfig

/-- The proxy of a private development chain. -/
def privateProxy : Address :=
  ⟨[0xde, 0x54, 0x91, 0xf7, 0x74, 0xf0, 0xcb, 0x00, 0x9a, 0xbc, 0xea, 0x73, 0x26, 0x34, 0x2e, 0x10,
    0x5d, 0xbb, 0x1b, 0x2e], rfl⟩

def standard : DetectionConfig := ⟨Dict.empty.insert "private" ⟨privateProxy, 0⟩, 0, 5⟩

/-- A proxy with a plain address, created at block 1. -/
def trial : DetectionConfig := ⟨Dict.empty.insert "private" ⟨.replicate 0xcc, 1⟩, 0, 2⟩

/-- The configuration with one more deployment. -/
def withDeployment (c : DetectionConfig) (network : String) (d : ProxyDeployment) : DetectionConfig :=
  { c with deployments := c.deployments.insert network d }

def deployment? (c : DetectionConfig) (network : String) : Option ProxyDeployment :=
  c.deployments.get? network

instance : Wire DetectionConfig where
  toJson c := .ofFields
    [("deployments", toJson c.deployments), ("max_rate_timespan", toJson c.maxRateTimespan),
     ("max_concurrent_requests", toJson c.maxCalls)]
  ofJson? j := do
    let fields ← j.fields? ["deployments", "max_rate_timespan", "max_concurrent_requests"]
    return {
      deployments := ← fields.default "deployments" Wire.ofJson? standard.deployments
      maxRateTimespan := ← fields.default "max_rate_timespan" Wire.ofJson? standard.maxRateTimespan
      maxCalls := ← fields.default "max_concurrent_requests" Wire.ofJson? standard.maxCalls }

end DetectionConfig

end Invoicing
