import EventServer.Core.Models
import EventServer.Python.JsonText

/-! # Providers

An observation is what a provider has made of the raw data of one poll: an identity and a state.
From the previous observation and the current one it finds the events to publish, and it renders
their messages. The registry finds the provider of a key and the one that renders an event. -/

namespace EventServer.Core

open EventServer.Python

/-- What a provider or the registry raises. -/
inductive ProviderError where
  | valueError (message : String)
  | validationError
  | keyError (key : String)
  | attributeError
  | overflowError
  | typeError
  deriving DecidableEq

/-- `core.models.Observation`. -/
structure Observation where
  providerKey : String
  schemaVersion : ℤ
  identity : String
  observedAt : Time
  effectiveAt : Time
  expiresAt : Option Time
  state : JsonObject
  sourceMetadata : JsonObject
  providerKey_length : 3 ≤ providerKey.length ∧ providerKey.length ≤ 128
  schemaVersion_pos : 1 ≤ schemaVersion
  identity_length : 1 ≤ identity.length ∧ identity.length ≤ 255

/-- `Observation(...)`. -/
def Observation.of (providerKey : String) (schemaVersion : ℤ) (identity : String)
    (observedAt effectiveAt : Time) (expiresAt : Option Time) (state : JsonObject)
    (sourceMetadata : JsonObject) : Except ProviderError Observation :=
  if h : (3 ≤ providerKey.length ∧ providerKey.length ≤ 128) ∧ 1 ≤ schemaVersion ∧
      1 ≤ identity.length ∧ identity.length ≤ 255 then
    .ok ⟨providerKey, schemaVersion, identity, observedAt, effectiveAt, expiresAt, state,
      sourceMetadata, h.1, h.2.1, h.2.2⟩
  else .error .validationError

/-- Observations with the same identity and the same state, up to the order of items. -/
def Same (o o' : Observation) : Prop :=
  o.identity = o'.identity ∧ (Json.obj o.state).canon = (Json.obj o'.state).canon

structure ProviderMetadata where
  providerKey : String
  eventKeys : List String

/-- A provider of raw data of type `ρ`. -/
structure Provider (ρ : Type) where
  metadata : ProviderMetadata
  /-- `normalize(raw)` at a reading of the clock. -/
  normalize : Time → ρ → Except ProviderError Observation
  evaluate : Option Observation → Observation → Except ProviderError (List DomainEvent)
  render : DomainEvent → String → Except ProviderError DeliveryMessage

/-- Of the previous observation a provider looks at the identity and the state. -/
def DependsOnState {ρ : Type} (provider : Provider ρ) : Prop :=
  ∀ p p' current, Same p p' → provider.evaluate (some p) current =
    provider.evaluate (some p') current

/-- The two dictionaries of the registry. -/
structure ProviderRegistry (ρ : Type) where
  providers : List (String × Provider ρ) := []
  events : List (String × Provider ρ) := []

namespace ProviderRegistry

variable {ρ : Type}

/-- The event keys of a provider that are taken. -/
def duplicates (r : ProviderRegistry ρ) (metadata : ProviderMetadata) : List String :=
  metadata.eventKeys.dedup.filter fun key => (r.events.lookup key).isSome

def register [Runtime] (r : ProviderRegistry ρ) (provider : Provider ρ) :
    Except ProviderError (ProviderRegistry ρ) :=
  let metadata := provider.metadata
  if (r.providers.lookup metadata.providerKey).isSome then
    .error (.valueError ("duplicate provider_key: " ++ metadata.providerKey))
  else if r.duplicates metadata ≠ [] then
    .error (.valueError ("duplicate event keys: " ++
      (Json.arr ((sortedStr (r.duplicates metadata)).map .str)).repr))
  else
    .ok
      { providers := r.providers ++ [(metadata.providerKey, provider)]
        events := r.events ++ metadata.eventKeys.map fun key => (key, provider) }

def get (r : ProviderRegistry ρ) (providerKey : String) : Except ProviderError (Provider ρ) :=
  match r.providers.lookup providerKey with
  | some provider => .ok provider
  | none => .error (.keyError providerKey)

def providerForEvent (r : ProviderRegistry ρ) (eventKey : String) :
    Except ProviderError (Provider ρ) :=
  match r.events.lookup eventKey with
  | some provider => .ok provider
  | none => .error (.keyError ("no provider registered for event: " ++ eventKey))

end ProviderRegistry

end EventServer.Core
