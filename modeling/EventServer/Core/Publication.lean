import EventServer.Core.SchemaValidation
import EventServer.Core.MatchKeys
import EventServer.Db.Models

/-! # Publishing an event

`core/publication.py`: an event of an enabled type whose payload fits is stored once for its key and
its dedupe key; storing it creates one delivery for each subscription whose user may be notified and
whose match keys the event meets. -/

namespace EventServer.Core.Publication

open EventServer.Db EventServer.Python EventServer.Core.MatchKeys EventServer.Core.SchemaValidation

structure Publish where
  event : DomainEvent
  messages : List (String × DeliveryMessage)
  nextAttemptAt : Option Time := none
  /-- The identifier `uuid4` gives to the delivery for a user. -/
  deliveryId : String → String → String

structure PublicationResult where
  eventId : String
  created : Bool
  deliveriesCreated : ℕ
  deriving DecidableEq

/-- The row stored for an event. -/
def occurrenceOf (event : DomainEvent) : EventOccurrence where
  eventId := event.eventId
  eventKey := event.eventKey
  schemaVersion := event.schemaVersion
  dedupeKey := event.dedupeKey
  occurredAt := event.occurredAt
  subject := event.subject
  data := event.data
  metadata := event.metadata

/-- The lookup by event key and dedupe key. -/
def findExisting (occurrences : EventOccurrences) (event : DomainEvent) : Option EventOccurrence :=
  occurrences.rows.find? fun o => o.eventKey = event.eventKey ∧ o.dedupeKey = event.dedupeKey

/-- The recipient query: subscriptions joined with their user and the granted `command` row. -/
def recipients (s : Store) (eventKey : String) : List Subscription :=
  s.subscriptions.rows.flatMap fun sub =>
    (s.users.rows.filter fun u => u.platform = sub.platform ∧
      u.openid = sub.openid).flatMap fun u =>
      (s.userPermissions.rows.filter fun p =>
        p.platform = sub.platform ∧ p.openid = sub.openid ∧ p.permissionKey = .command ∧
          p.granted).flatMap fun _ =>
        if sub.eventKey = eventKey ∧ u.accountStatus = .active then [sub] else []

/-- `messages.get(locale, messages["default"])`, where `default` is known to be there. -/
def messageFor (messages : List (String × DeliveryMessage)) (fallback : DeliveryMessage)
    (locale : String) : DeliveryMessage :=
  (messages.lookup locale).getD fallback

/-- The delivery added for one recipient. -/
def Publish.delivery (a : Publish) (now : Time) (fallback : DeliveryMessage) (sub : Subscription) :
    Delivery where
  deliveryId := a.deliveryId sub.platform sub.openid
  eventId := a.event.eventId
  eventKey := a.event.eventKey
  platform := sub.platform
  openid := sub.openid
  message := (messageFor a.messages fallback sub.locale).modelDump
  nextAttemptAt := a.nextAttemptAt.getD now
  createdAt := now

variable [Runtime]

/-- The recipients the event reaches. -/
def reached (s : Store) (eventType : EventType) (event : DomainEvent) : List Subscription :=
  (recipients s event.eventKey).filter fun sub =>
    recipientMatches eventType.matchKeyField event.data sub.matchKeys

/-- The deliveries the loop adds. -/
def Publish.deliveries (s : Store) (a : Publish) (now : Time) (eventType : EventType)
    (fallback : DeliveryMessage) : List Delivery :=
  (reached s eventType a.event).map (a.delivery now fallback)

/-- The checks before the first lookup: the event type and the default message. -/
def Publish.check (s : Store) (a : Publish) : Except Raised (EventType × DeliveryMessage) :=
  match s.eventTypes.get a.event.eventKey with
  | none => .error (.publicationError ("event type is not enabled: " ++ a.event.eventKey))
  | some eventType =>
    if eventType.enabled = false then
      .error (.publicationError ("event type is not enabled: " ++ a.event.eventKey))
    else if eventType.schemaVersion ≠ a.event.schemaVersion then
      .error (.publicationError "event schema version does not match registry")
    else
      match validatePayload eventType.payloadSchema a.event.data with
      | .error .reError => .error .reError
      | .error (.payloadSchemaError message) =>
        .error (.publicationError ("event payload schema validation failed: " ++ message))
      | .ok () =>
        match a.messages.lookup "default" with
        | none => .error (.publicationError "a default delivery message is required")
        | some fallback => .ok (eventType, fallback)

def publish (s : Store) (now : Time) (a : Publish) : Except Raised (Store × PublicationResult) :=
  match a.check s with
  | .error e => .error e
  | .ok (eventType, fallback) =>
    match findExisting s.eventOccurrences a.event with
    | some existing => .ok (s, ⟨existing.eventId, false, 0⟩)
    | none =>
      match s.eventOccurrences.insert? (occurrenceOf a.event) with
      | none =>
        -- the savepoint is rolled back and the lookup repeated
        match findExisting s.eventOccurrences a.event with
        | some existing => .ok (s, ⟨existing.eventId, false, 0⟩)
        | none => .error .integrityError
      | some occurrences =>
        let created := a.deliveries s now eventType fallback
        match s.deliveries.insertAll? created with
        | none => .error .integrityError
        | some deliveries =>
          .ok ({ s with eventOccurrences := occurrences, deliveries := deliveries },
            ⟨a.event.eventId, true, created.length⟩)

end EventServer.Core.Publication
