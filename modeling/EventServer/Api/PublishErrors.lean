import EventServer.Api.Server
import EventServer.Core.Recipients
import EventServer.Python.IsoFormat

/-! # What a publication ends in

`publish_event` with all that can raise in it: `DomainEvent` has constraints of its own, and a
`datetime` lies in the years 1 to 9999, so that a conversion to UTC and a sum can leave them. A call
returns after its rows are committed together, or is refused with a status and changes nothing,
exactly if `occurred_at` has an offset and none of these limits is met (`expected_iff`). -/

namespace EventServer.Api.PublishErrors

open EventServer.Db EventServer.Lib EventServer.Python EventServer.System
open EventServer.Core.Publication EventServer.Core.Recipients EventServer.Core.SchemaValidation
open EventServer.Auth.Publisher EventServer.CatalogAdmin EventServer.Api.Publish
open EventServer.Api.Server (sampleSettings sampleState sampleCall sampleRequest)

/-- What leaves `publish_event` in place of a response. -/
inductive Failure where
  | api (e : ApiError)
  | overflowError
  deriving DecidableEq

/-- A `datetime` that has been computed. -/
def checkRange (t : Time) : Except Failure Time :=
  if InRange t then .ok t else .error .overflowError

/-- `resolve_notify_at`. -/
def resolveNotifyAt (notifyAt : Option Time) (settings : Settings) (now : Time) :
    Except Failure (Option Time) :=
  match notifyAt with
  | none => .ok none
  | some value =>
    -- `astimezone`
    match checkRange value with
    | .error e => .error e
    | .ok value =>
      if value ≤ now then .ok (some now)
      else
        match checkRange (now + seconds settings.deliveryMaxScheduleHorizonSeconds) with
        | .error e => .error e
        | .ok horizon =>
          if horizon < value then
            .error (.api (.http 422 "notify_at is beyond the configured scheduling horizon"))
          else .ok (some value)

/-- The constraints on the fields of a `DomainEvent`. -/
def eventValid (event : DomainEvent) : Bool :=
  1 ≤ event.eventId.length && event.eventId.length ≤ 36 && isEventKey event.eventKey &&
    event.eventKey.length ≤ 128 && 1 ≤ event.schemaVersion && 1 ≤ event.dedupeKey.length &&
    event.dedupeKey.length ≤ 255

/-- `DomainEvent(...)`. -/
def domainEvent (c : Publish.Call) (publisher : EventPublisher) : Except Failure DomainEvent :=
  match c.event publisher with
  | .error e => .error (.api e)
  | .ok event => if eventValid event then .ok event else .error (.api .validationError)

/-! ### The parts of a call -/

theorem eventValid_of_event {c : Publish.Call} {publisher : EventPublisher} {event : DomainEvent}
    (hid : c.eventId.length = 36) (h : c.event publisher = .ok event) :
    eventValid event = true := by
  obtain ⟨heid, hkey, hversion, hdedupe, -⟩ := event_ok h
  have hv := c.body.property
  simp only [PublishEventRequest.valid, Bool.and_eq_true, decide_eq_true_eq] at hv
  obtain ⟨⟨⟨⟨⟨⟨⟨hk, hklen⟩, hver⟩, hd⟩, hdlen⟩, -⟩, -⟩, -⟩ := hv
  simp only [eventValid, heid, hkey, hversion, hdedupe, hid, hk, hklen, hver, hd,
    hdlen, decide_true, Bool.and_true]
  decide

theorem domainEvent_aware {c : Publish.Call} (hid : c.eventId.length = 36) {t : Time}
    (h : c.body.val.occurredAt = .aware t) (publisher : EventPublisher) :
    ∃ event, c.event publisher = .ok event ∧ domainEvent c publisher = .ok event := by
  have hevent : ∃ event, c.event publisher = .ok event := by
    simp only [Publish.Call.event, h]
    exact ⟨_, rfl⟩
  obtain ⟨event, hevent⟩ := hevent
  refine ⟨event, hevent, ?_⟩
  simp only [domainEvent, hevent]
  rw [if_pos (eventValid_of_event hid hevent)]

/-- **A time without an offset is refused by the model of the event**, not by that of the
request. -/
theorem domainEvent_naive {c : Publish.Call} {wall : ℤ} (h : c.body.val.occurredAt = .naive wall)
    (publisher : EventPublisher) : domainEvent c publisher = .error (.api .validationError) := by
  simp only [domainEvent, Publish.Call.event, h]

theorem resolveNotifyAt_cases (notifyAt : Option Time) (settings : Settings) (now : Time) :
    (resolveNotifyAt notifyAt settings now = .error .overflowError ∧
      ∃ n, notifyAt = some n ∧ (InRange n → now < n ∧
        ¬ InRange (now + seconds settings.deliveryMaxScheduleHorizonSeconds))) ∨
    ((∀ n, notifyAt = some n → InRange n ∧ (now < n →
        InRange (now + seconds settings.deliveryMaxScheduleHorizonSeconds))) ∧
      ((∃ at', resolveNotifyAt notifyAt settings now = .ok at') ∨
        resolveNotifyAt notifyAt settings now =
          .error (.api (.http 422 "notify_at is beyond the configured scheduling horizon")))) := by
  cases notifyAt with
  | none => exact Or.inr ⟨by simp, Or.inl ⟨none, rfl⟩⟩
  | some n =>
    simp only [resolveNotifyAt, checkRange, Option.some.injEq, exists_eq_left', forall_eq']
    by_cases hn : InRange n
    · by_cases hle : n ≤ now
      · simp only [if_pos hn, if_pos hle]
        exact Or.inr ⟨⟨hn, fun hlt => absurd hle (not_le.mpr hlt)⟩, Or.inl ⟨_, rfl⟩⟩
      · by_cases hh : InRange (now + seconds settings.deliveryMaxScheduleHorizonSeconds)
        · simp only [if_pos hn, if_neg hle, if_pos hh]
          refine Or.inr ⟨⟨hn, fun _ => hh⟩, ?_⟩
          split_ifs
          · exact Or.inr rfl
          · exact Or.inl ⟨_, rfl⟩
        · simp only [if_pos hn, if_neg hle, if_neg hh]
          exact Or.inl ⟨trivial, fun _ => ⟨not_le.mp hle, hh⟩⟩
    · simp only [if_neg hn]
      exact Or.inl ⟨trivial, fun h => absurd h hn⟩

/-- The identifiers of `uuid4` are new. -/
structure Fresh (s : Store) (c : Publish.Call) : Prop where
  length : c.eventId.length = 36
  eventId : ∀ o ∈ s.eventOccurrences, o.eventId ≠ c.eventId
  deliveryId : ∀ sub ∈ s.subscriptions, ∀ sub' ∈ s.subscriptions,
    c.deliveryId sub.platform sub.openid = c.deliveryId sub'.platform sub'.openid →
      sub.platform = sub'.platform ∧ sub.openid = sub'.openid
  deliveryIds : ∀ d ∈ s.deliveries, ∀ sub ∈ s.subscriptions,
    d.deliveryId ≠ c.deliveryId sub.platform sub.openid

/-- The dates of a call have an offset and stay in the years 1 to 9999. -/
structure WithinLimits (settings : Settings) (c : Publish.Call) : Prop where
  occurredAt : ∃ t, c.body.val.occurredAt = .aware t
  notifyAt : ∀ n, c.body.val.notifyTime = some n → InRange n
  horizon : ∀ n, c.body.val.notifyTime = some n → c.now < n →
    InRange (c.now + seconds settings.deliveryMaxScheduleHorizonSeconds)

variable [Runtime]

/-! ### The call -/

/-- `publish_event`, up to its commit. -/
def publishEvent (settings : Settings) (publishers : EventPublishers) (s : Store)
    (c : Publish.Call) :
    Except Failure (Store × PublishEventResponse) :=
  match requirePublisherAuth (enabledRows publishers c.order) c.credentials with
  | .error e => .error (.api e)
  | .ok publisher =>
    if mayPublish publisher c.body.val.eventKey then
      match domainEvent c publisher with
      | .error e => .error e
      | .ok event =>
        match resolveNotifyAt c.body.val.notifyTime settings c.now with
        | .error e => .error e
        | .ok notifyAt =>
          match publish s c.storedAt (c.publish event notifyAt) with
          | .error (.publicationError message) => .error (.api (.http 422 message))
          | .error e => .error (.api (.raised e))
          | .ok (s, result) =>
            .ok ({ s with auditLogs := s.auditLogs ++ [c.audit publisher result notifyAt] },
              ⟨result.eventId, result.created, result.deliveriesCreated, notifyAt⟩)
    else .error (.api (.http 403 "publisher is not authorized for this event key"))

/-- The committed rows after a call, and what it ends in: a session that is closed without a commit
is rolled back. -/
def served (settings : Settings) (publishers : EventPublishers) (s : Store) (c : Publish.Call) :
    Store × Except Failure PublishEventResponse :=
  match publishEvent settings publishers s c with
  | .ok (s', r) => (s', .ok r)
  | .error e => (s, .error e)

/-! ### What is expected -/

/-- The rows of a publication with its response: the event with its deliveries, unless it is stored
already, and one entry of the audit. -/
structure Stored (publisher : EventPublisher) (s : Store) (c : Publish.Call) (s' : Store)
    (r : PublishEventResponse) : Prop where
  published : ∃ event notifyAt published, c.event publisher = .ok event ∧ r.notifyAt = notifyAt ∧
    Published s c.storedAt (c.publish event notifyAt) published
      ⟨r.eventId, r.created, r.deliveriesCreated⟩ ∧
        s' = { published with auditLogs := s'.auditLogs }
  audit : s'.auditLogs = s.auditLogs ++
    [c.audit publisher ⟨r.eventId, r.created, r.deliveriesCreated⟩ r.notifyAt]

/-- A call returns after its rows are committed, or is refused with a 4xx status and changes
nothing. -/
inductive Expected (publisher : EventPublisher) (s : Store) (c : Publish.Call) :
    Store × Except Failure PublishEventResponse → Prop
  | stored {s' : Store} {r : PublishEventResponse} (h : Stored publisher s c s' r) :
    Expected publisher s c (s', .ok r)
  | refused {status : ℕ} {detail : String} (h : 400 ≤ status ∧ status < 500) :
    Expected publisher s c (s, .error (.api (.http status detail)))

/-- The patterns of the registered schemas compile. -/
def SchemasCompile (s : Store) : Prop :=
  ∀ eventType ∈ s.eventTypes, ∀ data,
    validatePayload eventType.payloadSchema data ≠ .error .reError

/-- The patterns that the check of a request meets compile. -/
def Compiles (s : Store) (body : PublishEventRequest) : Prop :=
  ∀ eventType, s.eventTypes.get body.eventKey = some eventType → eventType.enabled = true →
    eventType.schemaVersion = body.schemaVersion →
      validatePayload eventType.payloadSchema body.data ≠ .error .reError

theorem SchemasCompile.compiles {s : Store} (h : SchemasCompile s) (body : PublishEventRequest) :
    Compiles s body :=
  fun eventType hget _ _ => h eventType (Table.mem_of_get hget) body.data

/-- A check that does not pass is a `PublicationError` if the patterns compile. -/
theorem check_error {s : Store} {c : Publish.Call} {publisher : EventPublisher}
    {event : DomainEvent} {notifyAt : Option Time} {e : Raised} (hs : Compiles s c.body.val)
    (hevent : c.event publisher = .ok event) (h : (c.publish event notifyAt).check s = .error e) :
    ∃ message, e = .publicationError message := by
  obtain ⟨-, hkey, hversion, -, hdata, -⟩ := event_ok hevent
  unfold Publish.check at h
  split at h
  · cases h
    exact ⟨_, rfl⟩
  · rename_i eventType hget
    split_ifs at h with henabled hsame
    · cases h
      exact ⟨_, rfl⟩
    · cases h
      exact ⟨_, rfl⟩
    · split at h
      · rename_i hv
        simp only [Publish.Call.publish, hkey, hversion, hdata] at hget hsame hv
        exact absurd hv (hs eventType hget (by simpa using henabled) (not_not.mp hsame))
      · cases h
        exact ⟨_, rfl⟩
      · split at h
        · cases h
          exact ⟨_, rfl⟩
        · cases h

/-- **With new identifiers, the service returns or raises a `PublicationError`.** -/
theorem publish_cases {s : Store} {c : Publish.Call} {publisher : EventPublisher}
    {event : DomainEvent} (hs : Compiles s c.body.val) (hf : DeliveriesOfEvents s)
    (hnew : Fresh s c) (hevent : c.event publisher = .ok event) (notifyAt : Option Time) :
    (∃ message, publish s c.storedAt (c.publish event notifyAt) =
      .error (.publicationError message)) ∨
    ∃ s' r, publish s c.storedAt (c.publish event notifyAt) = .ok (s', r) := by
  have heid : event.eventId = c.eventId := (event_ok hevent).1
  unfold publish
  cases hc : (c.publish event notifyAt).check s with
  | error e =>
    obtain ⟨message, rfl⟩ := check_error hs hevent hc
    exact Or.inl ⟨message, rfl⟩
  | ok checked =>
    obtain ⟨eventType, fallback⟩ := checked
    cases hfind : findExisting s.eventOccurrences event with
    | some o => exact Or.inr ⟨s, _, by simp only [Publish.Call.publish, hfind]; rfl⟩
    | none =>
      have hno : ∀ o ∈ s.eventOccurrences, o.eventId ≠ event.eventId := by
        rw [heid]
        exact hnew.eventId
      obtain ⟨occurrences, ho⟩ : ∃ t, s.eventOccurrences.insert? (occurrenceOf event) = some t := by
        cases hi : s.eventOccurrences.insert? (occurrenceOf event) with
        | some t => exact ⟨t, rfl⟩
        | none =>
          rcases Table.insert?_eq_none.mp hi with ⟨o, ho, hk⟩ | ⟨o, ho, hd⟩
          · exact absurd hk (hno o ho)
          · have hne := List.find?_eq_none.mp hfind o ho
            have hkeys : o.eventKey = event.eventKey ∧ o.dedupeKey = event.dedupeKey :=
              Prod.mk.inj hd
            exact absurd (decide_eq_true hkeys) hne
      obtain ⟨deliveries, hd⟩ := exists_insertAll_deliveries (a := c.publish event notifyAt) hf hno
        hnew.deliveryId hnew.deliveryIds c.storedAt eventType fallback
      have hfind' : findExisting s.eventOccurrences (c.publish event notifyAt).event = none := hfind
      have ho' : s.eventOccurrences.insert? (occurrenceOf (c.publish event notifyAt).event) =
          some occurrences := ho
      simp only [hfind', ho', hd]
      exact Or.inr ⟨_, _, rfl⟩

/-! ### A call -/

/-- A call of an authenticated publisher goes wrong, is refused, or stores its rows. -/
theorem served_cases (settings : Settings) {publishers : EventPublishers} {s : Store}
    {c : Publish.Call} {publisher : EventPublisher}
    (hauth : requirePublisherAuth (enabledRows publishers c.order) c.credentials = .ok publisher)
    (hs : Compiles s c.body.val) (hf : DeliveriesOfEvents s) (hnew : Fresh s c) :
    (mayPublish publisher c.body.val.eventKey = true ∧ ¬ WithinLimits settings c ∧
      (served settings publishers s c = (s, .error (.api .validationError)) ∨
        served settings publishers s c = (s, .error .overflowError))) ∨
    ((mayPublish publisher c.body.val.eventKey = true → WithinLimits settings c) ∧
      Expected publisher s c (served settings publishers s c)) := by
  by_cases hmay : mayPublish publisher c.body.val.eventKey = true
  · cases hat : c.body.val.occurredAt with
    | naive wall =>
      refine Or.inl ⟨hmay, fun h => ?_, Or.inl ?_⟩
      · obtain ⟨t, ht⟩ := h.occurredAt
        rw [hat] at ht
        cases ht
      · simp only [served, publishEvent, hauth, hmay, if_true, domainEvent_naive hat]
    | aware t =>
      obtain ⟨event, hevent, hdomain⟩ := domainEvent_aware hnew.length hat publisher
      rcases resolveNotifyAt_cases c.body.val.notifyTime settings c.now with
        ⟨hover, n, hn, hlimit⟩ | ⟨hin, hres⟩
      · refine Or.inl ⟨hmay, fun h => ?_, Or.inr ?_⟩
        · obtain ⟨hlt, hnot⟩ := hlimit (h.notifyAt n hn)
          exact hnot (h.horizon n hn hlt)
        · simp only [served, publishEvent, hauth, hmay, if_true, hdomain, hover]
      · have hwithin : WithinLimits settings c :=
          ⟨⟨t, hat⟩, fun n hn => (hin n hn).1, fun n hn => (hin n hn).2⟩
        refine Or.inr ⟨fun _ => hwithin, ?_⟩
        rcases hres with ⟨notifyAt, hok⟩ | hbeyond
        · rcases publish_cases hs hf hnew hevent notifyAt with ⟨message, hp⟩ | ⟨s', r, hp⟩
          · simp only [served, publishEvent, hauth, hmay, if_true, hdomain, hok, hp]
            exact .refused (by decide)
          · simp only [served, publishEvent, hauth, hmay, if_true, hdomain, hok, hp]
            have hstored := publish_ok hp
            have haudit : s'.auditLogs = s.auditLogs := by
              cases hstored with
              | existing => rfl
              | created _ _ _ _ _ _ hs' => rw [hs']
            refine .stored ⟨⟨event, notifyAt, s', hevent, rfl, hstored, rfl⟩, ?_⟩
            rw [haudit]
        · simp only [served, publishEvent, hauth, hmay, if_true, hdomain, hbeyond]
          exact .refused (by decide)
  · refine Or.inr ⟨fun h => absurd h hmay, ?_⟩
    simp only [served, publishEvent, hauth, hmay]
    exact .refused (by decide)

/-- **A publication never fails unexpectedly** exactly if the publisher may not publish the event at
all, or the dates of the request have an offset and stay within their limits. -/
theorem expected_iff {settings : Settings} {publishers : EventPublishers} {s : Store}
    {c : Publish.Call} {publisher : EventPublisher}
    (hauth : requirePublisherAuth (enabledRows publishers c.order) c.credentials = .ok publisher)
    (hs : SchemasCompile s) (hf : DeliveriesOfEvents s) (hnew : Fresh s c) :
    Expected publisher s c (served settings publishers s c) ↔
      (mayPublish publisher c.body.val.eventKey = true → WithinLimits settings c) := by
  rcases served_cases settings hauth (hs.compiles c.body.val) hf hnew with ⟨hmay, hnot,
    hfails⟩ | ⟨h, hexp⟩
  · refine ⟨fun hexp => ?_, fun h => absurd (h hmay) hnot⟩
    rcases hfails with hf | hf
    · rw [hf] at hexp
      cases hexp
    · rw [hf] at hexp
      cases hexp
  · exact ⟨fun _ => h, fun _ => hexp⟩

omit [Runtime] in
theorem resolveNotifyAt_eq {settings : Settings} {c : Publish.Call} (h : WithinLimits settings c) :
    resolveNotifyAt c.body.val.notifyTime settings c.now =
      (Publish.resolveNotifyAt c.body.val.notifyTime settings c.now).mapError .api := by
  cases hn : c.body.val.notifyTime with
  | none => rfl
  | some n =>
    simp only [resolveNotifyAt, Publish.resolveNotifyAt, checkRange, if_pos (h.notifyAt n hn)]
    by_cases hle : n ≤ c.now
    · simp only [if_pos hle]
      rfl
    · simp only [if_neg hle, if_pos (h.horizon n hn (not_le.mp hle))]
      split_ifs <;> rfl

theorem publishEvent_eq {settings : Settings} {publishers : EventPublishers} {s : Store}
    {c : Publish.Call} (hid : c.eventId.length = 36) (h : WithinLimits settings c) :
    publishEvent settings publishers s c =
      (Publish.publishEvent settings publishers s c).mapError .api := by
  obtain ⟨t, hat⟩ := h.occurredAt
  unfold publishEvent Publish.publishEvent
  cases requirePublisherAuth (enabledRows publishers c.order) c.credentials with
  | error e => rfl
  | ok publisher =>
    obtain ⟨event, hevent, hdomain⟩ := domainEvent_aware hid hat publisher
    simp only [hevent, hdomain]
    rw [resolveNotifyAt_eq h]
    by_cases hmay : mayPublish publisher c.body.val.eventKey = true
    · simp only [if_pos hmay]
      cases Publish.resolveNotifyAt c.body.val.notifyTime settings c.now with
      | error e => rfl
      | ok notifyAt =>
        simp only [Except.mapError]
        cases publish s c.storedAt (c.publish event notifyAt) with
        | ok x => rfl
        | error e => cases e <;> rfl
    · simp only [if_neg hmay]
      rfl

/-! ### Calls that go wrong -/

theorem not_expected_of_error {publisher : EventPublisher} {s : Store} {c : Publish.Call}
    {x : Store × Except Failure PublishEventResponse}
    (h : x.2 = .error (.api .validationError) ∨ x.2 = .error .overflowError) :
    ¬ Expected publisher s c x := by
  intro hexp
  cases hexp with
  | stored => rcases h with h | h <;> cases h
  | refused => rcases h with h | h <;> cases h

section Sample

open EventServer.Api.Server (samplePublisher sampleRuntime sampleBody)

omit [Runtime]

/-- The request of the sample with other times. -/
def sampleRequestAt (occurredAt : DateTime) (notifyAt : Option Time) : PublishEventRequest :=
  { sampleRequest with occurredAt := occurredAt, notifyAt := notifyAt.map .aware }

theorem valid_sampleRequestAt (occurredAt : DateTime) (notifyAt : Option Time) :
    (sampleRequestAt occurredAt notifyAt).valid = true := by
  rw [← (sampleBody notifyAt).property]
  cases notifyAt <;> rfl

/-- Its call, at the time `now`. -/
def sampleCallAt (occurredAt : DateTime) (notifyAt : Option Time) (now : Time) : Publish.Call :=
  { sampleCall "00000000-0000-4000-8000-000000000001" now none with
    body := ⟨sampleRequestAt occurredAt notifyAt, valid_sampleRequestAt occurredAt notifyAt⟩ }

/-- What it ends in is expected. -/
def SampleExpected (c : Publish.Call) : Prop :=
  @Expected sampleRuntime (@PublisherAdmin.Upsert.row sampleRuntime samplePublisher)
    sampleState.store c (@served sampleRuntime sampleSettings sampleState.publishers
    sampleState.store c)

/-- **Requests that are valid and go wrong**: an `occurred_at` without an offset, a `notify_at` that
is the first instant of the year 1 one hour east of Greenwich, and one that is a minute after a call
on the last day of the year 9999. -/
theorem not_expected :
    ¬ SampleExpected (sampleCallAt (.naive 0) none 0) ∧
      ¬ SampleExpected (sampleCallAt (.aware 0) (some (-719162 * day - seconds 3600)) 0) ∧
      ¬ SampleExpected (sampleCallAt (.aware 0) (some (2932896 * day + seconds 60))
        (2932896 * day)) := by
  let _ := sampleRuntime
  exact ⟨not_expected_of_error (Or.inl (by decide)), not_expected_of_error (Or.inr (by decide)),
    not_expected_of_error (Or.inr (by decide))⟩

theorem schemasCompile_sample : @SchemasCompile sampleRuntime sampleState.store := by
  intro eventType hmem data hv
  have hempty : (sampleState.store.eventTypes.rows.map (·.payloadSchema.isEmpty)).all id =
      true := by
    decide
  have he : eventType.payloadSchema.isEmpty = true :=
    List.all_eq_true.mp hempty _ (List.mem_map_of_mem hmem)
  unfold validatePayload at hv
  rw [if_pos he] at hv
  cases hv

/-- A request with an offset that asks for no time of delivery. -/
theorem expected_iff_sample : SampleExpected (sampleCallAt (.aware 0) none 0) := by
  have hauth : @requirePublisherAuth sampleRuntime
      (enabledRows sampleState.publishers (sampleCallAt (.aware 0) none 0).order)
      (sampleCallAt (.aware 0) none 0).credentials =
        .ok (@PublisherAdmin.Upsert.row sampleRuntime samplePublisher) := by decide
  have hdeliveries : sampleState.store.deliveries.rows.length = 0 := by decide
  have hoccurrences : sampleState.store.eventOccurrences.rows.length = 0 := by decide
  have hnone : ∀ d, d ∉ sampleState.store.deliveries := by
    intro d hd
    rw [← Table.mem_rows, List.length_eq_zero_iff.mp hdeliveries] at hd
    cases hd
  have hno : ∀ o, o ∉ sampleState.store.eventOccurrences := by
    intro o ho
    rw [← Table.mem_rows, List.length_eq_zero_iff.mp hoccurrences] at ho
    cases ho
  have hids : ∀ sub ∈ sampleState.store.subscriptions.rows,
      ∀ sub' ∈ sampleState.store.subscriptions.rows,
      (sampleCallAt (.aware 0) none 0).deliveryId sub.platform sub.openid =
        (sampleCallAt (.aware 0) none 0).deliveryId sub'.platform sub'.openid →
      sub.platform = sub'.platform ∧ sub.openid = sub'.openid := by decide
  have hfresh : Fresh sampleState.store (sampleCallAt (.aware 0) none 0) :=
    { length := by decide
      eventId := fun o ho => absurd ho (hno o)
      deliveryId := hids
      deliveryIds := fun d hd => absurd hd (hnone d) }
  have hwithin : WithinLimits sampleSettings (sampleCallAt (.aware 0) none 0) :=
    { occurredAt := ⟨0, rfl⟩
      notifyAt := fun _ hn => by cases hn
      horizon := fun _ hn => by cases hn }
  exact (@expected_iff sampleRuntime _ _ _ _ _ hauth schemasCompile_sample
    (fun d hd => absurd hd (hnone d)) hfresh).mpr fun _ => hwithin

end Sample

end EventServer.Api.PublishErrors
