import EventServer.Services.Users
import EventServer.Core.Publication
import EventServer.PublisherAdmin
import EventServer.Python.DateTime

/-! # The publish API

`api/publish.py` and `api/helpers.py`: a publisher submits an event with its messages and, if it is
to be delivered later, a time for that. The event is stored under the identity of the publisher that
the token belongs to, whatever the request says in its metadata. -/

namespace EventServer.Api.Publish

open EventServer.Db EventServer.Python EventServer.Core.Publication
open EventServer.Auth.Publisher EventServer.CatalogAdmin
open EventServer.Services.Users (maskIdentifier)

/-- The setting of `config.py` that publishing depends on, within its bounds. -/
structure Settings where
  deliveryMaxScheduleHorizonSeconds : ℤ := 86400
  lower : 60 ≤ deliveryMaxScheduleHorizonSeconds := by decide
  upper : deliveryMaxScheduleHorizonSeconds ≤ 604800 := by decide

/-- A `datetime`: with an offset it is a point in time, without one a wall clock reading. -/
inductive DateTime where
  | aware (t : Time)
  | naive (wall : ℤ)

structure PublishEventRequest where
  eventKey : String
  schemaVersion : ℤ
  dedupeKey : String
  occurredAt : DateTime
  notifyAt : Option DateTime := none
  subject : JsonObject
  data : JsonObject
  metadata : JsonObject := []
  messages : List (String × DeliveryMessage)

/-- The constraints on the fields of a `DeliveryMessage`. -/
def messageValid (m : DeliveryMessage) : Bool :=
  1 ≤ m.title.length && m.title.length ≤ 200 && 1 ≤ m.text.length && m.text.length ≤ 4000 &&
    1 ≤ m.templateKey.length && m.templateKey.length ≤ 128 && 1 ≤ m.templateVersion

/-- The constraints on the fields, and `reject_naive_notify_at`. -/
def PublishEventRequest.valid (body : PublishEventRequest) : Bool :=
  isEventKey body.eventKey && body.eventKey.length ≤ 128 && 1 ≤ body.schemaVersion &&
    1 ≤ body.dedupeKey.length && body.dedupeKey.length ≤ 255 &&
    (match body.notifyAt with
      | some (.naive _) => false
      | _ => true) &&
    body.messages ≠ [] && body.messages.all fun m => messageValid m.2

/-- A body as the API function receives it. -/
abbrev ValidRequest := { body : PublishEventRequest // body.valid = true }

structure PublishEventResponse where
  eventId : String
  created : Bool
  deliveriesCreated : ℕ
  notifyAt : Option Time
  deriving DecidableEq

/-- A call of `publish_event`: the request, the readings of the clock and what is generated at
random. -/
structure Call where
  credentials : Option Credentials
  body : ValidRequest
  /-- The reading of `resolve_notify_at`. -/
  now : Time
  /-- The reading for the rows that are stored. -/
  storedAt : Time
  eventId : String
  deliveryId : String → String → String
  requestId : Option String := none
  /-- The order in which the database returns the publishers. -/
  order : String → ℕ := fun _ => 0

/-- The point in time of a request, if it carries one. -/
def PublishEventRequest.notifyTime (body : PublishEventRequest) : Option Time :=
  match body.notifyAt with
  | some (.aware t) => some t
  | _ => none

/-- `resolve_notify_at`. -/
def resolveNotifyAt (notifyAt : Option Time) (settings : Settings) (now : Time) :
    Except ApiError (Option Time) :=
  match notifyAt with
  | none => .ok none
  | some value =>
    if value ≤ now then .ok (some now)
    else if now + seconds settings.deliveryMaxScheduleHorizonSeconds < value then
      .error (.http 422 "notify_at is beyond the configured scheduling horizon")
    else .ok (some value)

/-- `{**fields, key: value}`. -/
def setItem (fields : JsonObject) (key : String) (value : Json) : JsonObject :=
  if (fields.lookup key).isSome then
    fields.map fun f => if f.1 = key then (key, value) else f
  else fields ++ [(key, value)]

/-- The `DomainEvent` of a call, unless its model refuses the fields. -/
def Call.event (c : Call) (publisher : EventPublisher) : Except ApiError DomainEvent :=
  match c.body.val.occurredAt with
  | .naive _ => .error .validationError
  | .aware t => .ok
    { eventId := c.eventId
      eventKey := c.body.val.eventKey
      schemaVersion := c.body.val.schemaVersion
      dedupeKey := c.body.val.dedupeKey
      occurredAt := t
      subject := c.body.val.subject
      data := c.body.val.data
      metadata := setItem c.body.val.metadata "publisher_key" (.str publisher.publisherKey) }

/-- The call of the publication service. -/
def Call.publish (c : Call) (event : DomainEvent) (notifyAt : Option Time) :
    Core.Publication.Publish where
  event := event
  messages := c.body.val.messages
  nextAttemptAt := notifyAt
  deliveryId := c.deliveryId

/-- The audit entry of a publication. -/
def Call.audit (c : Call) (publisher : EventPublisher) (result : PublicationResult)
    (notifyAt : Option Time) : AuditLog where
  targetType := "event_occurrence"
  targetIdMasked := maskIdentifier (some result.eventId)
  action := "publisher_publish"
  result := if result.created then "created" else "duplicate"
  requestId := c.requestId
  details := .obj [("publisher_key", .str publisher.publisherKey),
    ("event_key", .str c.body.val.eventKey), ("deliveries_created", .int result.deliveriesCreated),
    ("notify_at", match notifyAt with
      | some t => .str (isoformat t)
      | none => .null)]

/-- The condition of `publish_event` on the publisher. -/
def mayPublish (publisher : EventPublisher) (eventKey : String) : Bool :=
  publisher.allowedEventPrefixes.any fun p => p.toList.isPrefixOf eventKey.toList

variable [Runtime]

/-- `publish_event`, with the identity its token resolves to. -/
def publishEvent (settings : Settings) (publishers : EventPublishers) (s : Store) (c : Call) :
    Except ApiError (Store × PublishEventResponse) :=
  match requirePublisherAuth (enabledRows publishers c.order) c.credentials with
  | .error e => .error e
  | .ok publisher =>
    if mayPublish publisher c.body.val.eventKey then
      match c.event publisher with
      | .error e => .error e
      | .ok event =>
        match resolveNotifyAt c.body.val.notifyTime settings c.now with
        | .error e => .error e
        | .ok notifyAt =>
          match publish s c.storedAt (c.publish event notifyAt) with
          | .error (.publicationError message) => .error (.http 422 message)
          | .error e => .error (.raised e)
          | .ok (s, result) =>
            .ok ({ s with auditLogs := s.auditLogs ++ [c.audit publisher result notifyAt] },
              ⟨result.eventId, result.created, result.deliveriesCreated, notifyAt⟩)
    else .error (.http 403 "publisher is not authorized for this event key")

/-! ### What a publication that is accepted has done -/

/-- The steps of a call of `publish_event` that returns. -/
structure Accepted (settings : Settings) (publishers : EventPublishers) (s : Store) (c : Call)
    (s' : Store) (r : PublishEventResponse) (publisher : EventPublisher) (event : DomainEvent)
    (notifyAt : Option Time) (published : Store) : Prop where
  auth : requirePublisherAuth (enabledRows publishers c.order) c.credentials = .ok publisher
  allowed : mayPublish publisher c.body.val.eventKey = true
  isEvent : c.event publisher = .ok event
  resolved : resolveNotifyAt c.body.val.notifyTime settings c.now = .ok notifyAt
  stored : publish s c.storedAt (c.publish event notifyAt) =
    .ok (published, ⟨r.eventId, r.created, r.deliveriesCreated⟩)
  response : r.notifyAt = notifyAt
  store : s' = { published with auditLogs := s'.auditLogs }

theorem publishEvent_ok {settings : Settings} {publishers : EventPublishers}
    {s s' : Store} {c : Call} {r : PublishEventResponse}
    (h : publishEvent settings publishers s c = .ok (s', r)) :
    ∃ publisher event notifyAt published,
      Accepted settings publishers s c s' r publisher event notifyAt published := by
  unfold publishEvent at h
  cases hauth : requirePublisherAuth (enabledRows publishers c.order) c.credentials with
  | error e => simp [hauth] at h
  | ok publisher =>
    simp only [hauth] at h
    split_ifs at h with hallowed
    cases hevent : c.event publisher with
    | error e => simp [hevent] at h
    | ok event =>
      simp only [hevent] at h
      cases hnotify : resolveNotifyAt c.body.val.notifyTime settings c.now with
      | error e => simp [hnotify] at h
      | ok notifyAt =>
        simp only [hnotify] at h
        cases hpub : publish s c.storedAt (c.publish event notifyAt) with
        | error e => cases e <;> simp [hpub] at h
        | ok x =>
          simp only [hpub, Except.ok.injEq, Prod.mk.injEq] at h
          obtain ⟨rfl, rfl⟩ := h
          exact ⟨publisher, event, notifyAt, x.1, hauth, hallowed, hevent, hnotify, hpub, rfl, rfl⟩

omit [Runtime] in
theorem event_ok {c : Call} {publisher : EventPublisher} {event : DomainEvent}
    (h : c.event publisher = .ok event) :
    event.eventId = c.eventId ∧ event.eventKey = c.body.val.eventKey ∧
      event.schemaVersion = c.body.val.schemaVersion ∧ event.dedupeKey = c.body.val.dedupeKey ∧
      event.data = c.body.val.data ∧
      event.metadata =
        setItem c.body.val.metadata "publisher_key" (.str publisher.publisherKey) := by
  unfold Call.event at h
  split at h
  · cases h
  · cases h
    exact ⟨rfl, rfl, rfl, rfl, rfl, rfl⟩

omit [Runtime] in
/-- **The time of delivery**: the later one of the reading of the clock and the time asked for,
which is within the horizon. -/
theorem resolveNotifyAt_some {settings : Settings} {n now : Time} {notifyAt : Option Time}
    (h : resolveNotifyAt (some n) settings now = .ok notifyAt) :
    notifyAt = some (max now n) ∧
      max now n ≤ now + seconds settings.deliveryMaxScheduleHorizonSeconds := by
  have hpos : 0 ≤ seconds settings.deliveryMaxScheduleHorizonSeconds := by
    have := settings.lower
    unfold seconds
    omega
  simp only [resolveNotifyAt] at h
  split_ifs at h with h1 h2
  · cases h
    rw [max_eq_left h1]
    exact ⟨rfl, Int.le_add_of_nonneg_right hpos⟩
  · cases h
    rw [max_eq_right (le_of_not_ge h1)]
    exact ⟨rfl, not_lt.mp h2⟩

omit [Runtime] in
theorem resolveNotifyAt_beyond {settings : Settings} {n now : Time}
    (h : now + seconds settings.deliveryMaxScheduleHorizonSeconds < n) :
    resolveNotifyAt (some n) settings now =
      .error (.http 422 "notify_at is beyond the configured scheduling horizon") := by
  have hpos : 0 ≤ seconds settings.deliveryMaxScheduleHorizonSeconds := by
    have := settings.lower
    unfold seconds
    omega
  have hlt : now < n := lt_of_le_of_lt (Int.le_add_of_nonneg_right hpos) h
  simp only [resolveNotifyAt]
  rw [if_neg (not_le.mpr hlt), if_pos h]

omit [Runtime] in
theorem lookup_setItem (fields : JsonObject) (key : String) (value : Json) :
    (setItem fields key value).lookup key = some value := by
  unfold setItem
  split_ifs with h
  · induction fields with
    | nil => simp at h
    | cons f fields ih =>
      by_cases hk : f.1 = key
      · simp [hk]
      · have hne : (key == f.1) = false := beq_eq_false_iff_ne.mpr (Ne.symm hk)
        rw [List.lookup_cons, hne] at h
        rw [List.map_cons, if_neg hk, List.lookup_cons, hne]
        exact ih h
  · have hnone : fields.lookup key = none := Option.not_isSome_iff_eq_none.mp h
    rw [List.lookup_append, hnone, List.lookup_cons_self, Option.none_or]

end EventServer.Api.Publish
