import EventServer.Python.Json

/-! # Events, messages and errors

`DomainEvent` and `DeliveryMessage` are what a publisher hands to the core; `Raised` is an exception
that leaves a service function, with its text. A function that raises leaves the database as it was:
its transaction is rolled back. -/

namespace EventServer

open Python

/-- `core.models.DomainEvent`. -/
structure DomainEvent where
  eventId : String
  eventKey : String
  schemaVersion : ℤ
  dedupeKey : String
  occurredAt : Time
  subject : JsonObject
  data : JsonObject
  metadata : JsonObject

/-- `core.models.DeliveryMessage`. -/
structure DeliveryMessage where
  title : String
  text : String
  data : JsonObject
  templateKey : String
  templateVersion : ℤ

/-- `message.model_dump(mode="json")`. -/
def DeliveryMessage.modelDump (m : DeliveryMessage) : Json :=
  .obj [("title", .str m.title), ("text", .str m.text), ("data", .obj m.data),
    ("template_key", .str m.templateKey), ("template_version", .int m.templateVersion)]

/-- The exceptions of the service layer. -/
inductive Raised where
  | authorizationError (message : String)
  | lastAdminError (message : String)
  | valueError (message : String)
  | pairingCodeError (message : String)
  | firstAdminBootstrapError (message : String)
  | eventNotFoundError (key : String)
  | invalidMatchKeyError (message : String)
  | publicationError (message : String)
  | leaseConflictError (message : String)
  /-- A unique index refused a row. -/
  | integrityError
  /-- A pattern that does not compile. -/
  | reError
  deriving DecidableEq

end EventServer
