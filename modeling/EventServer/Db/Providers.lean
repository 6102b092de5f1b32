import EventServer.Db.Models

/-! # The tables of the providers

A provider instance is polled for observations; its checkpoint holds what the last one was, how
often polling has failed since, and which runner has leased the instance. Left out are the columns
nothing reads or sets. -/

namespace EventServer.Db

open EventServer.Lib EventServer.Python

structure ProviderInstance where
  providerInstanceId : String
  providerKey : String
  config : JsonObject := []
  enabled : Bool := true
  intervalSeconds : Option ℤ := none
  nextRunAt : Option Time := none

structure ProviderCheckpoint where
  providerInstanceId : String
  lastIdentity : Option String := none
  stateHash : Option String := none
  state : Option JsonObject := none
  lastSuccessAt : Option Time := none
  consecutiveFailures : ℕ := 0
  leaseOwner : Option String := none
  leaseUntil : Option Time := none

structure ObservationRecord where
  providerInstanceId : String
  schemaVersion : ℤ
  identity : String
  observedAt : Time
  effectiveAt : Time
  expiresAt : Option Time := none
  state : JsonObject
  sourceMetadata : JsonObject := []

/-- `uq_observation_identity`. -/
def ObservationRecord.key (r : ObservationRecord) : String × String :=
  (r.providerInstanceId, r.identity)

abbrev ProviderInstances := Table ProviderInstance.providerInstanceId
    ProviderInstance.providerInstanceId
abbrev ProviderCheckpoints :=
  Table ProviderCheckpoint.providerInstanceId ProviderCheckpoint.providerInstanceId
abbrev Observations := Table ObservationRecord.key ObservationRecord.key

end EventServer.Db
