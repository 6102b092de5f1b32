import EventServer.Scheduler.Nights

/-! # Whom the polls tell

What a transaction of a poll runner does to the store of the server is a run of publications, one
for each event of its instance with the message its provider renders (`next_store`). So what holds
of every run of requests holds of the polls as well. An event of a provider is stored by the
processing of an instance; its deliveries go to the subscriptions that qualify then, one to each,
and nothing that happens later adds one or takes one away (`subscribers_told`). -/

namespace EventServer.Scheduler.Recipients

open EventServer.Core EventServer.Core.Processing EventServer.Core.Publication
  EventServer.Core.Recipients
open EventServer.Core.Observations (process_ok)
open EventServer.Db EventServer.Lib EventServer.Providers EventServer.Providers.Warframe
  EventServer.Python
open EventServer.Scheduler.PollRunner EventServer.Scheduler.Polling
open EventServer.System (Op OutboxOnly outbox_cases outbox_step)

/-! ### What the transactions ask of the server -/

/-- The publication of an event with a message, as the loop of `process` makes it. -/
def publication (now : Time) (deliveryId : DomainEvent → String → String → String)
    (event : DomainEvent) (message : DeliveryMessage) : Op :=
  .publish now { event := event, messages := [("default", message)],
                 deliveryId := deliveryId event }

/-- The publication of one of the events, with the message its provider renders. -/
inductive Publishes (registry : ProviderRegistry Raw) (now : Time)
    (deliveryId : DomainEvent → String → String → String) (events : List DomainEvent) : Op → Prop
  | event (event : DomainEvent) (provider : Provider Raw) (message : DeliveryMessage)
    (hmem : event ∈ events) (hprovider : registry.providerForEvent event.eventKey = .ok provider)
    (hrender : provider.render event "zh-CN" = .ok message) :
    Publishes registry now deliveryId events (publication now deliveryId event message)

variable [Runtime]

/-- The requests a transaction amounts to. -/
def Amounts (std : Stdlib) (op : Op) : Event → Prop
  | .process poll lease _ => ∃ events, Publishes (registry std)
    (poll.clock lease.providerInstanceId)
      (poll.deliveryId lease.providerInstanceId) events op
  | .request op' => op = op'
  | _ => False

section Store

variable {std : Stdlib} {lib : WorldState.Library} {n : ℕ}
  {registry : ProviderRegistry Raw} {now : Time}
  {deliveryId : DomainEvent → String → String → String}

omit [Runtime] in
theorem Publishes.mono {events events' : List DomainEvent} {op : Op}
    (h : Publishes registry now deliveryId events op) (hsub : events ⊆ events') :
    Publishes registry now deliveryId events' op := by
  cases h with
  | event event provider message hmem hprovider hrender =>
    exact .event event provider message (hsub hmem) hprovider hrender

theorem publishAll_run (n : ℕ) {events : List DomainEvent} {s s' : Store}
    {results : List PublicationResult}
    (h : publishAll registry now deliveryId s events = .ok (s', results)) :
    ∃ ops, s' = run (System.step n) s ops ∧
      ∀ op ∈ ops, Publishes registry now deliveryId events op := by
  induction events generalizing s results with
  | nil =>
    cases h
    exact ⟨[], rfl, fun _ hmem => absurd hmem List.not_mem_nil⟩
  | cons event events ih =>
    unfold publishAll at h
    simp only [bind_eq_ok, mapError_eq_ok] at h
    obtain ⟨provider, hprovider, message, hrender, ⟨s₁, result⟩, hpublish,
      ⟨s₂, rest⟩, hrest, h⟩ := h
    cases h
    obtain ⟨ops, hrun, hops⟩ := ih hrest
    have hstep : System.step n s (publication now deliveryId event message) = s₁ := by
      simp only [publication, System.step, System.committed, hpublish]
    refine ⟨publication now deliveryId event message :: ops, ?_, fun op hmem => ?_⟩
    · rw [run_cons, hstep, hrun]
    · rcases List.mem_cons.mp hmem with rfl | hmem
      · exact .event event provider message List.mem_cons_self hprovider hrender
      · exact (hops op hmem).mono (List.subset_cons_self event events)

theorem process_run (n : ℕ) {db : Db} {call : Process Raw} {done : Processed}
    (h : process registry db call = .ok done) : ∃ ops events,
      done.db.store = run (System.step n) db.store ops ∧
        ∀ op ∈ ops, Publishes registry call.now call.deliveryId events op := by
  obtain ⟨row, provider, -, -, -, -, hobs⟩ := process_ok h
  unfold processObservation at hobs
  simp only at hobs
  split_ifs at hobs
  · rw [← Except.ok.inj hobs]
    exact ⟨[], [], rfl, fun _ hmem => absurd hmem List.not_mem_nil⟩
  · simp only [bind_eq_ok, mapError_eq_ok] at hobs
    obtain ⟨prev, -, events, -, ⟨s, results⟩, hpublished, hdone⟩ := hobs
    rw [← Except.ok.inj hdone]
    obtain ⟨ops, hrun, hops⟩ := publishAll_run n hpublished
    exact ⟨ops, events, hrun, hops⟩

/-- **A transaction amounts to a run of requests.** -/
theorem next_store (std : Stdlib) (lib : WorldState.Library) (n : ℕ) (w : World)
    (e : Event) : ∃ ops,
    (next std lib n w e).base.db.store = run (System.step n) w.base.db.store ops ∧
      ∀ op ∈ ops, Amounts std op e := by
  have hnone : ∀ w' : World, w'.base.db.store = w.base.db.store → ∃ ops,
      w'.base.db.store = run (System.step n) w.base.db.store ops ∧ ∀ op ∈ ops, Amounts std op e :=
    fun w' h => ⟨[], h, fun _ hmem => absurd hmem List.not_mem_nil⟩
  cases e with
  | claim poll locked => exact hnone _ (touches_claim poll locked w.base.db).store
  | process poll lease payload =>
    have hcases : next std lib n w (.process poll lease payload) = w ∨ ∃ raw done,
        Processes std lib w poll lease payload (next std lib n w (.process poll lease payload))
          raw done :=
      next_process poll lease payload
    rcases hcases with hsame | ⟨raw, done, -, hdone, db, htouches, hworld⟩
    · exact hnone _ (by rw [hsame])
    · obtain ⟨ops, events, hrun, hops⟩ := process_run n hdone
      refine ⟨ops, ?_, fun op hmem => ⟨events, hops op hmem⟩⟩
      rw [hworld, ← hrun]
      exact htouches.store
  | recordFailure poll lease =>
    refine hnone _ ?_
    unfold next
    simp only
    cases hfail : recordLeaseFailure poll lease w.base.db with
    | error e => rfl
    | ok r => exact (touches_recordLeaseFailure hfail).store
  | request op => exact ⟨[op], rfl, fun op' hmem => List.mem_singleton.mp hmem⟩

theorem run_store (std : Stdlib) (lib : WorldState.Library) (n : ℕ) (w : World)
    (events : List Event) :
    ∃ ops, (run (next std lib n) w events).base.db.store =
      run (System.step n) w.base.db.store ops := by
  induction events generalizing w with
  | nil => exact ⟨[], rfl⟩
  | cons e events ih =>
    obtain ⟨ops, hnext, -⟩ := next_store std lib n w e
    obtain ⟨ops', hrest⟩ := ih (next std lib n w e)
    exact ⟨ops ++ ops', by rw [run_cons, hrest, hnext, run_append]⟩

/-- Nothing is added to the deliveries of a stored event, and none is taken away. -/
theorem deliveriesOf_polls {w : World} {o : EventOccurrence}
    (h : o ∈ w.base.db.store.eventOccurrences) (events : List Event) :
    deliveriesOf (run (next std lib n) w events).base.db.store.deliveries o.eventId =
      deliveriesOf w.base.db.store.deliveries o.eventId := by
  obtain ⟨ops, hrun⟩ := run_store std lib n w events
  rw [hrun]
  exact deliveriesOf_run h ops

end Store

/-! ### Publications leave the subscribers alone -/

section Subscribers

variable {n : ℕ} {s s' : Store}

theorem qualifies_of_outboxOnly (h : OutboxOnly s s') (eventType : EventType) (event : DomainEvent)
    (sub : Subscription) : Qualifies s' eventType event sub ↔ Qualifies s eventType event sub := by
  obtain ⟨occurrences, deliveries, rfl⟩ := h
  exact ⟨fun ⟨h1, h2, h3, h4⟩ => ⟨h1, h2, h3, h4⟩, fun ⟨h1, h2, h3, h4⟩ => ⟨h1, h2, h3, h4⟩⟩

theorem outboxOnly_run {ops : List Op} (s : Store) (h : ∀ op ∈ ops, op.onOutbox = true) :
    OutboxOnly s (run (System.step n) s ops) := by
  induction ops generalizing s with
  | nil => exact ⟨_, _, rfl⟩
  | cons op ops ih =>
    obtain ⟨o, d, hone⟩ := outbox_step n s (h op List.mem_cons_self)
    obtain ⟨o', d', hrest⟩ := ih (System.step n s op) fun op' hmem =>
      h op' (List.mem_cons_of_mem op hmem)
    refine ⟨o', d', ?_⟩
    rw [run_cons, hrest, hone]

end Subscribers

/-! ### Whom an event is told -/

section Told

variable {std : Stdlib} {lib : WorldState.Library} {n : ℕ} {w : World}

/-- Whom the event `o` is told that is published in the store `s`, and how: the message of its
provider goes to each subscription that qualifies. -/
structure Telling (std : Stdlib) (s : Store) (o : EventOccurrence) (event : DomainEvent)
    (message : DeliveryMessage) (subs : List Subscription) : Prop where
  stored : occurrenceOf event = o
  rendered : ∃ provider, (registry std).providerForEvent event.eventKey = .ok provider ∧
    provider.render event "zh-CN" = .ok message
  nodup : subs.Nodup
  qualifies : ∃ eventType, s.eventTypes.get o.eventKey = some eventType ∧
    ∀ sub, sub ∈ subs ↔ Qualifies s eventType event sub

/-- The event `o` was published when an instance was processed; its deliveries are those it had
then, and has had ever since. -/
def Told (std : Stdlib) (lib : WorldState.Library) (n : ℕ) (w : World) (events : List Event)
    (o : EventOccurrence) : Prop :=
  ∃ pre poll lease payload post event message subs,
    events = pre ++ .process poll lease payload :: post ∧
    Telling std (run (next std lib n) w pre).base.db.store o event message subs ∧
    ∀ mid rest, post = mid ++ rest →
      deliveriesOf
        (run (next std lib n) w (pre ++ .process poll lease payload ::
          mid)).base.db.store.deliveries o.eventId = subs.map fun sub =>
          (sub.platform, sub.openid, message.modelDump)

omit [Runtime] in
theorem lookup_default {message fallback : DeliveryMessage}
    (h : [("default", message)].lookup "default" = some fallback) (locale : String) :
    ([("default", message)].lookup locale).getD fallback = message := by
  have hsame : message = fallback := Option.some.inj h
  subst hsame
  rw [List.lookup_cons]
  cases locale == "default" <;> rfl

/-- What a publication that stores the event `o` has found and done. -/
theorem created_deliveries {s : Store} {op : Op} {o : EventOccurrence}
    (hrefs : DeliveriesOfEvents s) (hold : o ∉ s.eventOccurrences)
    (hnew : o ∈ (System.step n s op).eventOccurrences) :
    ∃ now a eventType fallback, op = .publish now a ∧ occurrenceOf a.event = o ∧
      s.eventTypes.get o.eventKey = some eventType ∧ a.messages.lookup "default" = some fallback ∧
      deliveriesOf (System.step n s op).deliveries o.eventId =
        (reached s eventType a.event).map fun sub =>
          (sub.platform, sub.openid, ((a.messages.lookup sub.locale).getD fallback).modelDump) := by
  cases outbox_cases n s op with
  | same hs =>
    rw [hs.eventOccurrences] at hnew
    exact absurd hnew hold
  | call _ _ ho =>
    rw [ho] at hnew
    exact absurd hnew hold
  | created now a eventType fallback he hp hc hi hd =>
    obtain ⟨hkey, -, hrows⟩ := Table.insert?_eq_some.mp hi
    have hoa : occurrenceOf a.event = o := by
      rw [← Table.mem_rows, hrows, List.mem_append, List.mem_singleton] at hnew
      rcases hnew with hmem | rfl
      · exact absurd hmem hold
      · rfl
    have hnone : ∀ d ∈ s.deliveries, d.eventId ≠ a.event.eventId := by
      intro d hd' hid
      obtain ⟨o', ho', hoe⟩ := hrefs d hd'
      exact hkey o' ho' (hoe.trans hid)
    obtain ⟨htype, hfallback⟩ := check_ok hc
    subst hoa
    exact ⟨now, a, eventType, fallback, he, rfl, htype, hfallback, deliveriesOf_created hnone hd⟩

theorem deliveriesOfEvents_run {s : Store} (h : DeliveriesOfEvents s) (ops : List Op) :
    DeliveriesOfEvents (run (System.step n) s ops) :=
  run_invariant_all (I := DeliveriesOfEvents) (fun _ op h => deliveriesOfEvents_step h op) h ops

/-- The event `o` is stored by the publication `a`, which follows the requests `first` in the
transaction `e`. -/
structure StoredBy (std : Stdlib) (lib : WorldState.Library) (n : ℕ) (w : World)
    (o : EventOccurrence) (pre : List Event) (e : Event) (first : List Op) (now : Time)
    (a : Publish) (last : List Op) : Prop where
  store : (next std lib n (run (next std lib n) w pre) e).base.db.store =
    run (System.step n) (run (next std lib n) w pre).base.db.store (first ++ .publish now a :: last)
  amounts : ∀ op ∈ first ++ .publish now a :: last, Amounts std op e
  before : o ∉ (run (System.step n) (run (next std lib n) w pre).base.db.store
    first).eventOccurrences
  after : o ∈ (System.step n (run (System.step n) (run (next std lib n) w pre).base.db.store first)
    (.publish now a)).eventOccurrences

/-- An event that is stored in the end has been stored by a publication. -/
theorem exists_storedBy {events : List Event} {o : EventOccurrence}
    (hrefs : DeliveriesOfEvents w.base.db.store) (hold : o ∉ w.base.db.store.eventOccurrences)
    (hnew : o ∈ (run (next std lib n) w events).base.db.store.eventOccurrences) :
    ∃ pre e post first now a last, events = pre ++ e :: post ∧
      StoredBy std lib n w o pre e first now a last ∧
      DeliveriesOfEvents (run (System.step n) (run (next std lib n) w pre).base.db.store
        first) := by
  obtain ⟨pre, e, post, rfl, hpre, hpost⟩ :=
    exists_last_entry (P := fun w : World => o ∈ w.base.db.store.eventOccurrences) hold hnew
  obtain ⟨before, hbefore⟩ := run_store std lib n w pre
  obtain ⟨ops, hstore, hops⟩ := next_store std lib n (run (next std lib n) w pre) e
  have hstored : o ∈ (next std lib n (run (next std lib n) w pre)
      e).base.db.store.eventOccurrences :=
    hpost [] post rfl
  rw [hstore] at hstored
  -- the request within the transaction that has stored the event
  obtain ⟨first, op, last, rfl, hfirst, hlast⟩ :=
    exists_last_entry (P := fun s : Store => o ∈ s.eventOccurrences) hpre hstored
  have hrefs' : DeliveriesOfEvents
      (run (System.step n) (run (next std lib n) w pre).base.db.store first) := by
    rw [hbefore]
    exact deliveriesOfEvents_run (deliveriesOfEvents_run hrefs before) first
  have hafter : o ∈ (System.step n
      (run (System.step n) (run (next std lib n) w pre).base.db.store first) op).eventOccurrences :=
    hlast [] last rfl
  obtain ⟨now, a, -, -, rfl, -⟩ := created_deliveries hrefs' hfirst hafter
  exact ⟨pre, e, post, first, now, a, last, rfl, ⟨hstore, hops, hfirst, hafter⟩, hrefs'⟩

theorem StoredBy.stored {o : EventOccurrence} {pre : List Event} {e : Event} {first last : List Op}
    {now : Time} {a : Publish} (h : StoredBy std lib n w o pre e first now a last) :
    o ∈ (next std lib n (run (next std lib n) w pre) e).base.db.store.eventOccurrences := by
  rw [h.store, run_append, run_cons]
  exact run_invariant_all (I := fun s : Store => o ∈ s.eventOccurrences)
    (fun _ _ => eventOccurrences_mono) h.after last

/-- The publications before it in the processing of an instance leave the subscribers alone. -/
theorem StoredBy.outboxOnly {o : EventOccurrence} {pre : List Event} {poll : Poll}
    {lease : Leases.ProviderLease} {payload : JsonObject} {first last : List Op}
    {now : Time} {a : Publish}
    (h : StoredBy std lib n w o pre (.process poll lease payload) first now a last) :
    OutboxOnly (run (next std lib n) w pre).base.db.store
      (run (System.step n) (run (next std lib n) w pre).base.db.store first) := by
  refine outboxOnly_run _ fun op hmem => ?_
  obtain ⟨_, hpub⟩ := h.amounts op (List.mem_append_left _ hmem)
  cases hpub
  rfl

theorem StoredBy.process {o : EventOccurrence} {pre post : List Event} {e : Event}
    {first last : List Op} {now : Time} {a : Publish}
    (h : StoredBy std lib n w o pre e first now a last)
    (hforeign : ∀ e' ∈ pre ++ e :: post, e'.Foreign std) (hkey : a.event.eventKey ∈ eventKeys std) :
    ∃ poll lease payload event provider message, e = .process poll lease payload ∧
      Op.publish now a = publication (poll.clock lease.providerInstanceId)
        (poll.deliveryId lease.providerInstanceId) event message ∧
      (registry std).providerForEvent event.eventKey = .ok provider ∧
      provider.render event "zh-CN" = .ok message := by
  have hop := h.amounts (.publish now a) (by simp)
  cases e with
  | claim | recordFailure => exact hop.elim
  | request op' =>
    have hsame : Op.publish now a = op' := hop
    exact absurd hkey (hforeign (.request op') (by simp) now a hsame.symm)
  | process poll lease payload =>
    obtain ⟨published, hpublishes⟩ := hop
    generalize Op.publish now a = asked at hpublishes ⊢
    cases hpublishes with
    | event event provider message hmem hprovider hrender =>
      exact ⟨poll, lease, payload, event, provider, message, rfl, rfl, hprovider, hrender⟩

/-- **An event of a provider** that is stored during the polls is told those who qualify. -/
theorem told_of_stored {events : List Event} {o : EventOccurrence}
    (hrefs : DeliveriesOfEvents w.base.db.store) (hforeign : ∀ e ∈ events, e.Foreign std)
    (hkey : o.eventKey ∈ eventKeys std) (hold : o ∉ w.base.db.store.eventOccurrences)
    (hnew : o ∈ (run (next std lib n) w events).base.db.store.eventOccurrences) :
    Told std lib n w events o := by
  obtain ⟨pre, e, post, first, now, a, last, rfl, hby, hrefs'⟩ := exists_storedBy hrefs hold hnew
  obtain ⟨now', a', eventType, fallback, heq, hoa, htype, hfallback, hdeliveries⟩ :=
    created_deliveries hrefs' hby.before hby.after
  obtain ⟨rfl, rfl⟩ := Op.publish.inj heq
  have hakey : a.event.eventKey ∈ eventKeys std := by
    rw [← hoa] at hkey
    exact hkey
  obtain ⟨poll, lease, payload, event, provider, message, rfl, hasked, hprovider, hrender⟩ :=
    hby.process hforeign hakey
  obtain ⟨rfl, rfl⟩ := Op.publish.inj hasked
  have honly := hby.outboxOnly
  refine ⟨pre, poll, lease, payload, post, event, message,
    reached (run (System.step n) (run (next std lib n) w pre).base.db.store first)
      eventType event, rfl,
    ⟨hoa, ⟨provider, hprovider, hrender⟩, nodup_reached _ eventType event, eventType, ?_, ?_⟩, ?_⟩
  · obtain ⟨_, _, hsame⟩ := honly
    rw [hsame] at htype
    exact htype
  · exact fun sub => mem_reached.trans (qualifies_of_outboxOnly honly eventType event sub)
  · intro mid rest hsplit
    rw [run_append, run_cons, deliveriesOf_polls hby.stored, hby.store, run_append, run_cons,
      deliveriesOf_run hby.after, hdeliveries]
    refine List.map_congr_left fun sub _ => ?_
    rw [lookup_default hfallback]

theorem mem_eventKeys_of_announces {eventKey : String} {p o : Observation}
    (h : Announces eventKey p o) : eventKey ∈ eventKeys std := by
  cases h with
  | night => exact Nights.night_mem_eventKeys
  | rotation =>
    exact List.mem_flatMap.mpr
      ⟨konzuRotationProvider std, by simp [providers], by simp [konzuRotationProvider]⟩
  | ghouls =>
    exact List.mem_flatMap.mpr ⟨ghoulEventProvider
      std, by simp [providers], by simp [ghoulEventProvider]⟩

/-- **Whoever is subscribed is told, once.** For everything the polls announce there is an event
whose deliveries, from the processing that announced it on, are one for each subscription that
qualified then. -/
theorem subscribers_told (hinj : Function.Injective Runtime.sha256Hex)
    (htexts : FloatTexts) {db : Db} (hfresh : Fresh std db) (hrefs : DeliveriesOfEvents db.store)
    (events : List Event) (hforeign : ∀ e ∈ events, e.Foreign std) {eventKey : String}
    {o : Observation}
    (h : Announced (run (next std lib n) { base := { db := db } } events).base eventKey o) :
    ∃ s ∈ (run (next std lib n) { base := { db := db } } events).base.db.store.eventOccurrences,
      s.eventKey = eventKey ∧ s.dedupeKey = o.identity ∧
        Told std lib n { base := { db := db } } events s := by
  have hkey : eventKey ∈ eventKeys std := by
    obtain ⟨_, _, -, hannounces⟩ := h
    exact mem_eventKeys_of_announces hannounces
  obtain ⟨s, hs, hskey, hdedupe⟩ := (sound_run lib n hinj htexts hfresh events hforeign).heard
    eventKey o h
  have hmem : s.eventKey ∈ eventKeys std := by rw [hskey]; exact hkey
  refine ⟨s, hs, hskey, hdedupe, told_of_stored hrefs hforeign hmem ?_ hs⟩
  exact fun hold => hfresh.events s hold hmem

end Told

/-! ### A sample -/

section Sample

omit [Runtime]

theorem sampleWorld_store :
    sampleWorld.base.db.store.eventOccurrences.rows.map (·.eventKey) = ["warframe.cetus.night"] ∧
      sampleWorld.base.db.store.deliveries.rows.map (fun d => (d.platform, d.openid)) =
        [("qqbot", "subscriber")] := by decide +kernel

theorem subscribers_told_sample : ∃ o, Announced sampleWorld.base "warframe.cetus.night" o ∧
    ∃ s ∈ sampleWorld.base.db.store.eventOccurrences, s.eventKey = "warframe.cetus.night" ∧
      s.dedupeKey = o.identity ∧ @Told Observations.sampleRuntime sampleStd
        WorldState.sampleLibrary 5
        { base := { db := sampleDb } } sampleEvents s := by
  let _ := Observations.sampleRuntime
  have htexts := floatTexts_sample rfl
  have hsound : Sound sampleStd sampleWorld.base :=
    sound_run WorldState.sampleLibrary 5 Observations.sampleRuntime_injective htexts sampleDb_fresh
      sampleEvents sampleEvents_foreign
  have hstored : "warframe.cetus.night" ∈
      sampleWorld.base.db.store.eventOccurrences.rows.map (·.eventKey) := by
    rw [sampleWorld_store.1]
    exact List.mem_singleton_self _
  obtain ⟨s, hs, hkey⟩ := List.mem_map.mp hstored
  have hmem : s.eventKey ∈ eventKeys sampleStd := by
    rw [hkey]
    exact Nights.night_mem_eventKeys
  obtain ⟨o, ho, -, -⟩ := hsound.told s (Table.mem_rows.mp hs) hmem
  rw [hkey] at ho
  have hnone : DeliveriesOfEvents sampleDb.store :=
    fun _ hd => absurd (Table.mem_rows.mpr hd) List.not_mem_nil
  exact ⟨o, ho, subscribers_told Observations.sampleRuntime_injective htexts sampleDb_fresh hnone
    sampleEvents sampleEvents_foreign ho⟩

end Sample

end EventServer.Scheduler.Recipients
