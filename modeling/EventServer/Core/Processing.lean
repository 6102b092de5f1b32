import EventServer.Core.Provider
import EventServer.Core.Publication
import EventServer.Db.Providers

/-! # Processing observations

`core/processing.py`: an observation that has the identity and the state of the last one changes
only when the instance was last polled with success. Any other is stored, the events its provider
finds are published, and the checkpoint is advanced to it. The text of the state is compared by its
digest. -/

namespace EventServer.Core.Processing

open EventServer.Db EventServer.Python EventServer.Core.Publication

/-- The tables a call works on. -/
structure Db where
  store : Store := {}
  instances : ProviderInstances := .empty
  checkpoints : ProviderCheckpoints := .empty
  observations : Observations := .empty

/-- Why a call is rolled back. -/
inductive ProcessingError where
  | lookupError (message : String)
  | provider (e : ProviderError)
  | valueError (message : String)
  | publication (e : Raised)
  /-- A counter that has not been set is incremented. -/
  | typeError
  /-- A statement fails. -/
  | sqlAlchemyError

structure ProcessingResult where
  baselineCreated : Bool
  unchanged : Bool
  publications : List PublicationResult

/-- A call of `process`; `statementFails` if a statement of its transaction raises. -/
structure Process (ρ : Type) where
  providerInstanceId : String
  raw : ρ
  now : Time
  /-- The identifiers `uuid4` gives to the deliveries of an event. -/
  deliveryId : DomainEvent → String → String → String
  statementFails : Bool := false

/-- What a call of `process` has done: the observation it made of the raw data, and the events it
has published. -/
structure Processed where
  db : Db
  current : Observation
  published : List DomainEvent
  result : ProcessingResult

variable [Runtime] {ρ : Type}

def stateHash (o : Observation) : String := Runtime.sha256Hex (Json.obj o.state).dumps

omit [Runtime] in
/-- `_previous`. -/
def previous (checkpoint : ProviderCheckpoint) (current : Observation) :
    Except ProviderError (Option Observation) :=
  match checkpoint.lastIdentity, checkpoint.state with
  | some identity, some state =>
    let observedAt := checkpoint.lastSuccessAt.getD current.observedAt
    (Observation.of current.providerKey current.schemaVersion identity observedAt
      observedAt none state [("source", .str "provider-checkpoint")]).map some
  | _, _ => .ok none

omit [Runtime] in
/-- `_save_observation`. -/
def saveObservation (observations : Observations) (providerInstanceId : String)
    (current : Observation) : Observations :=
  match observations.get (providerInstanceId, current.identity) with
  | some _ => observations
  | none => observations.put
    { providerInstanceId := providerInstanceId
      schemaVersion := current.schemaVersion
      identity := current.identity
      observedAt := current.observedAt
      effectiveAt := current.effectiveAt
      expiresAt := current.expiresAt
      state := current.state
      sourceMetadata := current.sourceMetadata }

/-- The loop that publishes the events. -/
def publishAll (registry : ProviderRegistry ρ) (now : Time)
    (deliveryId : DomainEvent → String → String → String) :
    Store → List DomainEvent → Except ProcessingError (Store × List PublicationResult)
  | s, [] => .ok (s, [])
  | s, event :: events => do
    let provider ← (registry.providerForEvent event.eventKey).mapError .provider
    let message ← (provider.render event "zh-CN").mapError .provider
    let (s, publication) ← (publish s now
      { event := event, messages := [("default", message)],
        deliveryId := deliveryId event }).mapError
        .publication
    let (s, publications) ← publishAll registry now deliveryId s events
    .ok (s, publication :: publications)

omit [Runtime] in
/-- The checkpoint of an instance, added if there is none. -/
def checkpointOf (checkpoints : ProviderCheckpoints) (providerInstanceId : String) :
    ProviderCheckpoint :=
  (checkpoints.get providerInstanceId).getD { providerInstanceId := providerInstanceId }

omit [Runtime] in
/-- The checkpoint after an observation that has not changed. -/
def touch (checkpoint : ProviderCheckpoint) (current : Observation) : ProviderCheckpoint :=
  { checkpoint with lastSuccessAt := some current.observedAt, consecutiveFailures := 0 }

/-- The checkpoint after an observation that has changed. -/
def advance (checkpoint : ProviderCheckpoint) (current : Observation) : ProviderCheckpoint :=
  { checkpoint with
    lastIdentity := some current.identity
    stateHash := some (stateHash current)
    state := some current.state
    lastSuccessAt := some current.observedAt
    consecutiveFailures := 0 }

omit [Runtime] in
/-- The checkpoint after a failure. -/
def countFailure (checkpoint : ProviderCheckpoint) : ProviderCheckpoint :=
  { checkpoint with consecutiveFailures := checkpoint.consecutiveFailures + 1 }

/-- The condition under which an observation has not changed. -/
def unchanged (checkpoint : ProviderCheckpoint) (current : Observation) : Bool :=
  checkpoint.lastIdentity = some current.identity && checkpoint.stateHash = some (stateHash current)

/-- `process` from the observation of the instance on. -/
def processObservation (registry : ProviderRegistry ρ) (provider : Provider ρ) (db : Db)
    (call : Process ρ) (current : Observation) : Except ProcessingError Processed := do
  let checkpoint := checkpointOf db.checkpoints call.providerInstanceId
  if unchanged checkpoint current then
    .ok ⟨{ db with checkpoints := db.checkpoints.put (touch checkpoint current) }, current, [],
      ⟨false, true, []⟩⟩
  else
    let previous ← (previous checkpoint current).mapError .provider
    let events ← (provider.evaluate previous current).mapError .provider
    let (store, publications) ← publishAll registry call.now call.deliveryId db.store events
    .ok ⟨{ db with
        store := store
        observations := saveObservation db.observations call.providerInstanceId current
        checkpoints := db.checkpoints.put (advance checkpoint current) },
      current, events, ⟨checkpoint.lastIdentity.isNone, false, publications⟩⟩

/-- `process`. -/
def process (registry : ProviderRegistry ρ) (db : Db) (call : Process ρ) :
    Except ProcessingError Processed :=
  match db.instances.get call.providerInstanceId with
  | none => .error (.lookupError ("provider instance is unavailable: " ++ call.providerInstanceId))
  | some row =>
    if row.enabled = false then
      .error (.lookupError ("provider instance is unavailable: " ++ call.providerInstanceId))
    else do
      let provider ← (registry.get row.providerKey).mapError .provider
      let current ← (provider.normalize call.now call.raw).mapError .provider
      if current.providerKey ≠ row.providerKey then
        .error (.valueError "provider returned an observation for another provider_key")
      else
        let processed ← processObservation registry provider db call current
        if call.statementFails then .error .sqlAlchemyError else .ok processed

omit [Runtime] in
/-- `record_failure`: a checkpoint that is new has no counter before the flush. -/
def recordFailure (db : Db) (providerInstanceId : String) (statementFails : Bool) :
    Except ProcessingError Db :=
  match db.checkpoints.get providerInstanceId with
  | none => .error .typeError
  | some checkpoint =>
    if statementFails then .error .sqlAlchemyError
    else .ok { db with checkpoints := db.checkpoints.put (countFailure checkpoint) }

end EventServer.Core.Processing
