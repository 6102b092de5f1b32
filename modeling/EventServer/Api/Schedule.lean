import EventServer.Api.Server
import EventServer.Core.Recipients

/-! # Deliveries that are scheduled

A publication that asks for a time of delivery stores its deliveries with that time as their
`next_attempt_at`, or with the time of the request if that is later. Until then they are `pending`,
and no request can change them: a claim compares `next_attempt_at` with its clock, and there is no
lease to report on or to wait for (`waiting_step`). -/

namespace EventServer.Api.Schedule

open EventServer.Db EventServer.Lib EventServer.Python
open EventServer.Core.Publication EventServer.Core.Recipients
open EventServer.Auth.Publisher EventServer.PublisherAdmin EventServer.Api.Publish
open EventServer.Api.Server
open EventServer.Deliveries.Outbox
open EventServer.Deliveries.Steps (mem_returned)

/-- The reading of the clock of a claim. -/
def claimTime? : Request → Option Time
  | .other ⟨.claim a, _⟩ => some a.now
  | _ => none

/-- The readings of the clock of successive claims never go back. -/
def ClaimsOrdered (reqs : List Request) : Prop := (reqs.filterMap claimTime?).Pairwise (· ≤ ·)

/-- The event is stored, and its deliveries wait for the time `m`. -/
def Waiting (m : Time) (eventId : String) (s : Store) : Prop :=
  (∃ o ∈ s.eventOccurrences, o.eventId = eventId) ∧
    ∀ d ∈ s.deliveries, d.eventId = eventId → d.status = .pending ∧ d.nextAttemptAt = m

theorem le_of_eligible {m now : Time} {d : Delivery}
    (h : d.status = .pending ∧ d.nextAttemptAt = m) (he : eligible now d = true) : m ≤ now := by
  simpa [eligible, h.1, h.2] using he

variable [Runtime]

theorem mem_created {settings : Settings} {sv : State} {c : Publish.Call} {s' : Store}
    {publisher : EventPublisher} {event : DomainEvent} {notifyAt : Option Time}
    {eventType : EventType} {fallback : DeliveryMessage}
    (h : Created settings sv c s' publisher event notifyAt eventType fallback) {d : Delivery}
    (hd : d ∈ s'.deliveries) : d ∈ sv.store.deliveries ∨
      d.eventId = event.eventId ∧ d.status = .pending ∧
        d.nextAttemptAt = notifyAt.getD c.storedAt := by
  rw [← Table.mem_rows, Table.rows_of_insertAll? h.deliveries] at hd
  rcases List.mem_append.mp hd with hold | hnew
  · exact Or.inl hold
  · obtain ⟨sub, -, rfl⟩ := List.mem_map.mp hnew
    exact Or.inr ⟨rfl, rfl, rfl⟩

/-- **Until its time has come, no request changes a delivery that waits.** -/
theorem waiting_step {settings : Settings} {n : ℕ} {sv : State} {req : Request} {m : Time}
    {eventId : String} (h : Waiting m eventId sv.store)
    (hreq : ∀ t, claimTime? req = some t → t < m) :
    Waiting m eventId (step settings n sv req).store := by
  obtain ⟨⟨o, ho, hoe⟩, hrows⟩ := h
  cases req with
  | publishEvent c =>
    cases hp : publishEvent settings sv.publishers sv.store c with
    | error e =>
      simp only [step, hp]
      exact ⟨⟨o, ho, hoe⟩, hrows⟩
    | ok x =>
      simp only [step, hp]
      rcases publishEvent_cases hp with ⟨-, hsame⟩ | ⟨-, -, _, event, _, _, _, hcreated⟩
      · refine ⟨⟨o, ?_, hoe⟩, ?_⟩
        · rw [hsame.eventOccurrences]; exact ho
        · rw [hsame.deliveries]; exact hrows
      · -- the new event is another one
        obtain ⟨hkey, -, hstored⟩ := Table.insert?_eq_some.mp hcreated.occurrences
        refine ⟨⟨o, ?_, hoe⟩, fun d hd he => ?_⟩
        · rw [← Table.mem_rows, hstored]
          exact List.mem_append_left _ ho
        · rcases mem_created hcreated hd with hold | ⟨hid, -⟩
          · exact hrows d hold he
          · exact absurd (hoe.trans (he.symm.trans hid)) (hkey o ho)
  | upsert a =>
    have hs : (step settings n sv (.upsert a)).store = sv.store := by
      simp only [step]
      cases upsert sv.publishers a <;> rfl
    rw [hs]
    exact ⟨⟨o, ho, hoe⟩, hrows⟩
  | other op =>
    refine ⟨⟨o, ?_, hoe⟩, fun d hd he => ?_⟩
    · have hsame : (step settings n sv (.other op)).store.eventOccurrences =
          sv.store.eventOccurrences := by
        cases event_cases settings n sv (.other op) with
        | same hsame => exact hsame
      rw [hsame]
      exact ho
    · obtain ⟨d₀, hd₀, ht, hcase⟩ := delivery_other op.property hd
      have he₀ : d₀.eventId = eventId := (eventId_of_target ht).trans he
      have hwait := hrows d₀ hd₀ he₀
      rcases hcase with rfl | ⟨a, hop, hel⟩ | hleased
      · exact hwait
      · have hlt : a.now < m := by
          refine hreq a.now ?_
          obtain ⟨op, hprop⟩ := op
          cases hop
          rfl
        exact absurd (le_of_eligible hwait hel) (not_le.mpr hlt)
      · rw [hwait.1] at hleased
        cases hleased

/-- In a run whose claims are all before its time, a delivery goes on waiting. -/
theorem waiting_run {settings : Settings} {n : ℕ} {sv : State} {reqs : List Request} {m : Time}
    {eventId : String} (h : Waiting m eventId sv.store)
    (hreqs : ∀ req ∈ reqs, ∀ t, claimTime? req = some t → t < m) :
    Waiting m eventId (run (step settings n) sv reqs).store := by
  refine run_invariant (C := fun _ req => ∀ t, claimTime? req = some t → t < m)
    (I := fun sv : State => Waiting m eventId sv.store) (fun _ _ h hreq => waiting_step h hreq) h ?_
  rintro pre req post rfl
  exact hreqs req (by simp)

omit [Runtime] in
theorem le_of_claimsOrdered {pre post : List Request} {req : Request} {t : Time}
    (h : ClaimsOrdered (pre ++ req :: post)) (ht : claimTime? req = some t) :
    ∀ req' ∈ pre, ∀ t', claimTime? req' = some t' → t' ≤ t := by
  intro req' hreq' t' ht'
  unfold ClaimsOrdered at h
  rw [List.filterMap_append, List.pairwise_append] at h
  refine h.2.2 t' (List.mem_filterMap.mpr ⟨req', hreq', ht'⟩) t ?_
  exact List.mem_filterMap.mpr ⟨req, List.mem_cons_self, ht⟩

/-- What a call that stores an event with a time of delivery leads to. -/
structure OnTime (settings : Settings) (n : ℕ) (sv : State) (c : Publish.Call) (m : Time)
    (eventId : String) (s' : Store) : Prop where
  /-- Its deliveries wait for that time, which is within the horizon. -/
  stored : Waiting m eventId s'
  horizon : m ≤ c.now + seconds settings.deliveryMaxScheduleHorizonSeconds
  /-- No later claim that reads the clock before it returns one of them. -/
  later : ∀ reqs, ClaimsOrdered reqs → ∀ pre a h post, reqs = pre ++ .other ⟨.claim a, h⟩ :: post →
    a.now < m →
      ∀ x ∈ (claim (run (step settings n) { sv with store := s' } pre).store.deliveries a).2,
        x.eventId ≠ eventId

theorem onTime_created {settings : Settings} {n : ℕ} {sv : State} {c : Publish.Call} {s' : Store}
    {r : PublishEventResponse} {notifyTime : Time} (hfk : DeliveriesOfEvents sv.store)
    (hn : c.body.val.notifyTime = some notifyTime)
    (h : publishEvent settings sv.publishers sv.store c = .ok (s', r)) (hr : r.created = true) :
    OnTime settings n sv c (max c.now notifyTime) r.eventId s' := by
  obtain ⟨hfalse, -⟩ | ⟨-, hid, publisher, event, notifyAt, eventType, fallback, hcreated⟩ :=
    publishEvent_cases h
  · rw [hr] at hfalse
    cases hfalse
  · have hres := hcreated.resolved
    rw [hn] at hres
    obtain ⟨rfl, hle⟩ := resolveNotifyAt_some hres
    obtain ⟨hkey, -, hstored⟩ := Table.insert?_eq_some.mp hcreated.occurrences
    have heid : event.eventId = r.eventId := (event_ok hcreated.isEvent).1.trans hid.symm
    have hwait : Waiting (max c.now notifyTime) r.eventId s' := by
      refine ⟨⟨occurrenceOf event, ?_, heid⟩, fun d hd he => ?_⟩
      · rw [← Table.mem_rows, hstored]
        exact List.mem_append_right _ List.mem_cons_self
      · rcases mem_created hcreated hd with hold | ⟨-, hs, hnext⟩
        · -- no delivery of the event was there before
          obtain ⟨o, ho, hoe⟩ := hfk d hold
          exact absurd (hoe.trans (he.trans heid.symm)) (hkey o ho)
        · exact ⟨hs, hnext⟩
    refine ⟨hwait, hle, ?_⟩
    rintro reqs hord pre a hop post rfl hlt x hx hxe
    have hpre := le_of_claimsOrdered hord (t := a.now) rfl
    have hrun : Waiting (max c.now notifyTime) r.eventId
        (run (step settings n) { sv with store := s' } pre).store :=
      waiting_run hwait fun req hreq t ht => lt_of_le_of_lt (hpre req hreq t ht) hlt
    obtain ⟨d, hget, hel, -, rfl, -⟩ := mem_returned hx
    exact absurd (le_of_eligible (hrun.2 d (Table.mem_of_get hget) hxe) hel) (not_le.mpr hlt)

/-- **Scheduled delivery.** A publication with a time of delivery `n`, in a store whose deliveries
are all of stored events, that stores a new event stores its deliveries with the later one of `n`
and the time of the request, within the horizon, and no later claim returns one of them before; one
that repeats a stored event leaves events and deliveries alone; and if `n` is beyond the horizon
nothing is stored. -/
theorem scheduled_delivery {settings : Settings} {n : ℕ} {sv : State} {c : Publish.Call}
    {notifyTime : Time} (hfk : DeliveriesOfEvents sv.store)
    (hn : c.body.val.notifyTime = some notifyTime) :
    (∀ s' r, publishEvent settings sv.publishers sv.store c = .ok (s', r) →
      if r.created then OnTime settings n sv c (max c.now notifyTime) r.eventId s'
      else s'.eventOccurrences = sv.store.eventOccurrences ∧ s'.deliveries = sv.store.deliveries) ∧
    (c.now + seconds settings.deliveryMaxScheduleHorizonSeconds < notifyTime →
      step settings n sv (.publishEvent c) = sv) := by
  constructor
  · intro s' r h
    by_cases hr : r.created = true
    · rw [if_pos hr]
      exact onTime_created hfk hn h hr
    · rw [if_neg hr]
      rcases publishEvent_cases h with ⟨-, hsame⟩ | ⟨hr', -⟩
      · exact ⟨hsame.eventOccurrences, hsame.deliveries⟩
      · exact absurd hr' hr
  · intro hbeyond
    cases hp : publishEvent settings sv.publishers sv.store c with
    | error e => simp only [step, hp]
    | ok x =>
      obtain ⟨publisher, event, notifyAt, published, hacc⟩ := publishEvent_ok hp
      have hres := hacc.resolved
      rw [hn, resolveNotifyAt_beyond hbeyond] at hres
      cases hres

omit [Runtime] in
theorem exists_of_response {x : Except ApiError (Store × PublishEventResponse)}
    {r : PublishEventResponse} (h : x.toOption.map (·.2) = some r) : ∃ s', x = .ok (s', r) := by
  cases x with
  | error e => cases h
  | ok y =>
    cases h
    exact ⟨y.1, rfl⟩

omit [Runtime] in
theorem deliveriesOfEvents_sample : DeliveriesOfEvents sampleState.store := by
  show ∀ d ∈ sampleState.store.deliveries.rows, _
  have hempty : sampleState.store.deliveries.rows.length = 0 := by decide
  rw [List.length_eq_zero_iff.mp hempty]
  intro d hd
  cases hd

omit [Runtime] in
/-- The message about a build is delivered a minute and a half later. -/
theorem scheduled_delivery_sample : ∃ s' r,
    @publishEvent sampleRuntime sampleSettings sampleState.publishers sampleState.store
        (sampleCall "e-1" (seconds 10) (some (seconds 100))) = .ok (s', r) ∧
      @OnTime sampleRuntime sampleSettings 5 sampleState
        (sampleCall "e-1" (seconds 10) (some (seconds 100)))
        (max (seconds 10) (seconds 100)) r.eventId s' := by
  have hr : (@publishEvent sampleRuntime sampleSettings sampleState.publishers sampleState.store
      (sampleCall "e-1" (seconds 10) (some (seconds 100)))).toOption.map (·.2) =
        some ⟨"e-1", true, 1, some (seconds 100)⟩ := by decide
  obtain ⟨s', hp⟩ := exists_of_response hr
  have hon := (@scheduled_delivery sampleRuntime sampleSettings 5 sampleState
    (sampleCall "e-1" (seconds 10) (some (seconds 100))) (seconds 100) deliveriesOfEvents_sample
    rfl).1 s' _ hp
  rw [if_pos rfl] at hon
  exact ⟨s', _, hp, hon⟩

/-! ### Repeated requests -/

/-- No claim returns a delivery of the event of an accepted call before the time the call asks for,
also if the call repeats a stored event. -/
def NeverEarly : Prop :=
  ∀ (settings : Settings) (n : ℕ) (sv : State) (c : Publish.Call) (s' : Store)
    (r : PublishEventResponse) (notifyTime : Time), DeliveriesOfEvents sv.store →
    c.body.val.notifyTime = some notifyTime →
    publishEvent settings sv.publishers sv.store c = .ok (s', r) →
    ∀ reqs, ClaimsOrdered reqs → ∀ pre a h post, reqs = pre ++ .other ⟨.claim a, h⟩ :: post →
      a.now < max c.now notifyTime →
      ∀ x ∈ (claim (run (step settings n) { sv with store := s' } pre).store.deliveries a).2,
        x.eventId ≠ r.eventId

omit [Runtime] in
/-- The event has been published without a time of delivery. -/
def samplePublished : State :=
  @step sampleRuntime sampleSettings 5 sampleState
    (.publishEvent (sampleCall "e-1" (seconds 20) none))

omit [Runtime] in
def sampleClaim : Claim where
  workerId := "w-1"
  platform := "qqbot"
  limit := 10
  leaseSeconds := 60
  now := seconds 40
  token _ := "token-1"

omit [Runtime] in
/-- **A repeated request does not delay the event**: the message that is to be delivered after 100 s
according to the second request is claimed after 40 s. -/
theorem repeat_is_early : ¬ @NeverEarly sampleRuntime := by
  intro h
  have hr : (@publishEvent sampleRuntime sampleSettings samplePublished.publishers
      samplePublished.store (sampleCall "e-2" (seconds 30) (some (seconds 100)))).toOption.map
      (·.2) = some ⟨"e-1", false, 0, some (seconds 100)⟩ := by decide
  have hfk : DeliveriesOfEvents samplePublished.store := by
    show ∀ d ∈ samplePublished.store.deliveries.rows,
      ∃ o ∈ samplePublished.store.eventOccurrences.rows, o.eventId = d.eventId
    decide
  have hclaim : ∃ x ∈ (@claim sampleRuntime samplePublished.store.deliveries sampleClaim).2,
      x.eventId = "e-1" := by decide
  obtain ⟨s', hp⟩ := exists_of_response hr
  have hsame : s'.deliveries = samplePublished.store.deliveries := by
    rcases @publishEvent_cases sampleRuntime _ _ _ _ _ hp with ⟨-, hsame⟩ | ⟨hc, -⟩
    · exact hsame.deliveries
    · cases hc
  obtain ⟨x, hx, hxe⟩ := hclaim
  refine h sampleSettings 5 samplePublished _ s' _ (seconds 100) hfk rfl hp
    [.other ⟨.claim sampleClaim, rfl⟩] (List.pairwise_singleton _ _) [] sampleClaim rfl [] rfl
    (by decide) x ?_ hxe
  rw [run_nil]
  show x ∈ (@claim sampleRuntime s'.deliveries sampleClaim).2
  rw [hsame]
  exact hx

end EventServer.Api.Schedule
