import EventServer.System
import EventServer.Api.Publish

/-! # The server as publishers see it

The committed store together with the publishers: events are published through the API only, under
the token of a publisher; publishers are created and given new tokens by the local tool; every other
request is one of `System`. A request that is refused changes nothing.

`event_cases` says once what a request can do to the events and the deliveries. -/

namespace EventServer.Api.Server

open EventServer.Db EventServer.Lib EventServer.Python EventServer.System
open EventServer.Core.Publication EventServer.CatalogAdmin
open EventServer.Auth.Publisher EventServer.PublisherAdmin EventServer.Api.Publish
open EventServer.Deliveries.Outbox (eligible)
open EventServer.Deliveries.Steps (step_cases status_of_holdsLease)

structure State where
  store : Store := {}
  publishers : EventPublishers := .empty

def isPublication : Op → Bool
  | .publish .. => true
  | _ => false

/-- A request to one of the other services. -/
abbrev OtherOp := { op : Op // isPublication op = false }

inductive Request where
  | publishEvent (c : Publish.Call)
  | upsert (a : Upsert)
  | other (op : OtherOp)

variable [Runtime]

/-- The server after a request. -/
def step (settings : Settings) (n : ℕ) (sv : State) : Request → State
  | .publishEvent c =>
    match publishEvent settings sv.publishers sv.store c with
    | .ok r => { sv with store := r.1 }
    | .error _ => sv
  | .upsert a =>
    match upsert sv.publishers a with
    | .ok publishers => { sv with publishers := publishers }
    | .error _ => sv
  | .other op => { sv with store := System.step n sv.store op.val }

/-- What a call that stores a new event has found and stored. -/
structure Created (settings : Settings) (sv : State) (c : Publish.Call) (s' : Store)
    (publisher : EventPublisher) (event : DomainEvent) (notifyAt : Option Time)
    (eventType : EventType) (fallback : DeliveryMessage) : Prop where
  auth : requirePublisherAuth (enabledRows sv.publishers c.order) c.credentials = .ok publisher
  allowed : mayPublish publisher c.body.val.eventKey = true
  isEvent : c.event publisher = .ok event
  resolved : resolveNotifyAt c.body.val.notifyTime settings c.now = .ok notifyAt
  checked : (c.publish event notifyAt).check sv.store = .ok (eventType, fallback)
  occurrences : sv.store.eventOccurrences.insert? (occurrenceOf event) = some s'.eventOccurrences
  deliveries : sv.store.deliveries.insertAll?
    ((c.publish event notifyAt).deliveries sv.store c.storedAt eventType fallback) =
      some s'.deliveries

/-- **A call that is accepted** repeats a stored event and changes neither events nor deliveries, or
stores a new event. -/
theorem publishEvent_cases {settings : Settings} {sv : State} {c : Publish.Call} {s' : Store}
    {r : PublishEventResponse} (h : publishEvent settings sv.publishers sv.store c = .ok (s', r)) :
    (r.created = false ∧ SameOutbox sv.store s') ∨
      r.created = true ∧ r.eventId = c.eventId ∧
        ∃ publisher event notifyAt eventType fallback,
          Created settings sv c s' publisher event notifyAt eventType fallback := by
  obtain ⟨publisher, event, notifyAt, published, hacc⟩ := publishEvent_ok h
  have hs : s'.eventOccurrences = published.eventOccurrences ∧
      s'.deliveries = published.deliveries := by
    rw [hacc.store]
    exact ⟨rfl, rfl⟩
  have hstored := publish_ok hacc.stored
  generalize hresult : (⟨r.eventId, r.created, r.deliveriesCreated⟩ : PublicationResult) = result
    at hstored
  cases hstored with
  | existing o =>
    refine Or.inl ⟨by rw [PublicationResult.mk.injEq] at hresult; exact hresult.2.1, hs.1, hs.2⟩
  | created eventType fallback hc _ ho hd =>
    rw [PublicationResult.mk.injEq] at hresult
    have hid : r.eventId = c.eventId := hresult.1.trans (event_ok hacc.isEvent).1
    refine Or.inr ⟨hresult.2.1, hid, publisher, event, notifyAt, eventType, fallback, ?_⟩
    exact
      { auth := hacc.auth, allowed := hacc.allowed, isEvent := hacc.isEvent
        resolved := hacc.resolved, checked := hc
        occurrences := by rw [hs.1]; exact ho
        deliveries := by rw [hs.2]; exact hd }

/-- The ways a request can act on the events. -/
inductive EventStep (settings : Settings) (n : ℕ) (sv : State) : Request → Prop
  | same {req : Request}
    (h : (step settings n sv req).store.eventOccurrences = sv.store.eventOccurrences) :
    EventStep settings n sv req
  | created (c : Publish.Call) (publisher : EventPublisher) (event : DomainEvent)
    (notifyAt : Option Time) (eventType : EventType) (fallback : DeliveryMessage)
    (h : Created settings sv c (step settings n sv (.publishEvent c)).store publisher event notifyAt
      eventType fallback) : EventStep settings n sv (.publishEvent c)

/-- **Every request leaves the events alone or stores one.** -/
theorem event_cases (settings : Settings) (n : ℕ) (sv : State) (req : Request) :
    EventStep settings n sv req := by
  cases req with
  | publishEvent c =>
    cases h : publishEvent settings sv.publishers sv.store c with
    | error e => exact .same (by simp only [step, h])
    | ok x =>
      have hs : (step settings n sv (.publishEvent c)).store = x.1 := by simp only [step, h]
      rcases publishEvent_cases h with ⟨-, hsame⟩ |
        ⟨-, -, publisher, event, notifyAt, eventType, fallback, hcreated⟩
      · exact .same (by rw [hs]; exact hsame.eventOccurrences)
      · rw [← hs] at hcreated
        exact .created c publisher event notifyAt eventType fallback hcreated
  | upsert a =>
    refine .same ?_
    simp only [step]
    cases upsert sv.publishers a <;> rfl
  | other op =>
    refine .same ?_
    show (System.step n sv.store op.val).eventOccurrences = _
    cases outbox_cases n sv.store op.val with
    | same h => exact h.eventOccurrences
    | created now a _ _ he => exact absurd op.property (by rw [he]; simp [isPublication])
    | call _ _ ho => exact ho

/-- **What a request other than a publication does to a delivery**: nothing, or it claims it, or it
reports on a lease. -/
theorem delivery_other {n : ℕ} {s : Store} {op : Op} (hop : isPublication op = false) {d : Delivery}
    (hd : d ∈ (System.step n s op).deliveries) :
    ∃ d₀ ∈ s.deliveries, d₀.target = d.target ∧
      (d = d₀ ∨ (∃ a, op = .claim a ∧ eligible a.now d₀ = true) ∨ d₀.status = .leased) := by
  have hcall : ∀ c, (∀ now ds, c ≠ .enqueue now ds) → (∀ a, c = .claim a → op = .claim a) →
      (System.step n s op).deliveries = Deliveries.Steps.step n s.deliveries c →
      ∃ d₀ ∈ s.deliveries, d₀.target = d.target ∧
        (d = d₀ ∨ (∃ a, op = .claim a ∧ eligible a.now d₀ = true) ∨ d₀.status = .leased) := by
    intro c henq hclaim hc
    rw [hc] at hd
    have hg : (Deliveries.Steps.step n s.deliveries c).get d.deliveryId = some d :=
      Table.mem_iff_get.mp hd
    cases step_cases n s.deliveries d.deliveryId c with
    | keep h' =>
      rw [h'] at hg
      exact ⟨d, Table.mem_of_get hg, rfl, Or.inl rfl⟩
    | enqueue => exact absurd rfl (henq _ _)
    | @claim a d₀ hg₀ he _ _ h' =>
      rw [h', Option.some_inj] at hg
      exact ⟨d₀, Table.mem_of_get hg₀, by rw [← hg]; rfl, Or.inr (Or.inl ⟨a, hclaim a rfl, he⟩)⟩
    | @ack a d₀ _ hg₀ hl h' =>
      rw [h', Option.some_inj] at hg
      exact ⟨d₀, Table.mem_of_get hg₀, by rw [← hg]; rfl, Or.inr (Or.inr (status_of_holdsLease hl))⟩
    | @fail a d₀ _ hg₀ hl h' =>
      rw [h', Option.some_inj] at hg
      exact ⟨d₀, Table.mem_of_get hg₀, by rw [← hg, a.apply_target n],
        Or.inr (Or.inr (status_of_holdsLease hl))⟩
  have hstep := deliveries_step n s op
  cases op with
  | publish => cases hop
  | claim a =>
    exact hcall (.claim a) (by simp) (by intro b hb; cases hb; rfl) hstep
  | ack a => exact hcall (.ack a) (by simp) (by simp) hstep
  | fail a => exact hcall (.fail a) (by simp) (by simp) hstep
  | setPermissions | changeRole | createPairingCode | approvePairingCode | bootstrapFirstAdmin
  | subscribe | unsubscribe | register | setAccountStatus =>
    rw [hstep] at hd
    exact ⟨d, hd, rfl, Or.inl rfl⟩

/-! ### A sample -/

omit [Runtime] in
/-- The runtime of the samples, with the digest of the token of `ci-builds`. -/
abbrev sampleRuntime : Runtime := .ascii
  [("0123456789abcdef0123456789abcdef",
      "3eb1bd439947eb762998e566ccc2e099c791118b2f40579cc4f7da2b5061b7f9"),
    ("ABCDEFGH", "9ac2197d9258257b1ae8463e4214e4cd0a578bc1517f2415928b91be4283fc48")]

omit [Runtime] in
/-- The publisher of build events. -/
def samplePublisher : Upsert where
  publisherKey := "ci-builds"
  token := "0123456789abcdef0123456789abcdef"
  prefixes := ["build."]

omit [Runtime] in
def sampleSettings : Settings := {}

omit [Runtime] in
/-- `alice` has subscribed to failed builds, and `ci-builds` may publish them. -/
def sampleState : State :=
  run (@step sampleRuntime sampleSettings 5)
    { store := run (@System.step sampleRuntime 5) {} sampleSetup }
    [.upsert samplePublisher]

omit [Runtime] in
/-- A build of the project `core` has failed. -/
def sampleRequest : PublishEventRequest where
  eventKey := "build.pipeline.failed"
  schemaVersion := 1
  dedupeKey := "build-7"
  occurredAt := .aware (seconds 10)
  subject := []
  data := [("projects", .arr [.str "core"])]
  messages := samplePublish.messages

omit [Runtime] in
theorem valid_notifyAt (body : PublishEventRequest) (notifyAt : Option Time) :
    { body with notifyAt := notifyAt.map .aware }.valid = { body with notifyAt := none }.valid := by
  cases notifyAt <;> rfl

omit [Runtime] in
def sampleBody (notifyAt : Option Time) : ValidRequest where
  val := { sampleRequest with notifyAt := notifyAt.map .aware }
  property := (valid_notifyAt sampleRequest notifyAt).trans (by decide)

omit [Runtime] in
def sampleCall (eventId : String) (now : Time) (notifyAt : Option Time) : Publish.Call where
  credentials := some ⟨"Bearer", "0123456789abcdef0123456789abcdef"⟩
  body := sampleBody notifyAt
  now := now
  storedAt := now
  eventId := eventId
  deliveryId _ openid := "d-" ++ openid

end EventServer.Api.Server
