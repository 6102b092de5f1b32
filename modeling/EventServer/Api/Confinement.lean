import EventServer.Lib.Namespace
import EventServer.Api.Server

/-! # What a publisher may publish

An event that was stored through the API carries its publisher: it was published with a token whose
digest an enabled publisher had at that moment, under a type that was enabled with the same schema
version and accepted its data, and its key lies in one of the namespaces of that publisher.
Namespaces are given as prefixes; because they end with a dot, the comparison of texts is one of
segments (`startsWith_iff`). -/

namespace EventServer.Api.Confinement

open EventServer.Db EventServer.Lib EventServer.Python
open EventServer.Core.Publication EventServer.Core.SchemaValidation EventServer.CatalogAdmin
open EventServer.System (checked_ok)
open EventServer.Auth.Publisher EventServer.PublisherAdmin EventServer.Api.Publish
open EventServer.Api.Server

/-! ### Namespaces -/

/-- The segments of a prefix, without the empty one after its last dot. -/
def prefixSegments (p : String) : List (List Char) := (segments p.toList).dropLast

/-- The key lies under the prefix, segment by segment. -/
def InNamespace (p key : String) : Prop := ProperInitial (prefixSegments p) (segments key.toList)

theorem segments_eq_splitOn (cs : List Char) : segments cs = cs.splitOn '.' := by
  induction cs with
  | nil => rfl
  | cons c cs ih =>
    rw [List.splitOn_cons_eq_if_modifyHead, segments, ih]
    by_cases hc : c = '.'
    · simp [hc]
    · rw [if_neg hc, if_neg (by simpa using hc)]
      cases h : cs.splitOn '.' with
      | nil => exact absurd h (List.splitOn_ne_nil '.' cs)
      | cons w ws => rfl

/-- **A prefix of a publisher is a prefix of the keys of its namespace**, and of no others. -/
theorem startsWith_iff {p : String} (hp : isNamespace p = true) (key : String) :
    p.toList <+: key.toList ↔ InNamespace p key := by
  unfold isNamespace at hp
  cases hs : segments p.toList with
  | nil => rw [hs] at hp; cases hp
  | cons first rest =>
    rw [hs] at hp
    simp only [Bool.and_eq_true, decide_eq_true_eq] at hp
    rw [segments_eq_splitOn] at hs
    obtain ⟨q, hq, hsplit⟩ := eq_concat_of_splitOn hs hp.1.2
    unfold InNamespace prefixSegments
    rw [segments_eq_splitOn, segments_eq_splitOn, hsplit, List.dropLast_concat, hq]
    exact isPrefix_iff_segments

/-! ### Publishers -/

/-- Every publisher has namespaces as its prefixes. -/
def PrefixesValid (sv : State) : Prop :=
  ∀ publisher ∈ sv.publishers, ∀ p ∈ publisher.allowedEventPrefixes, isNamespace p = true

variable [Runtime]

theorem prefixesValid_step {settings : Settings} {n : ℕ} {sv : State} {req : Request}
    (h : PrefixesValid sv) : PrefixesValid (step settings n sv req) := by
  cases req with
  | publishEvent c =>
    simp only [step]
    cases publishEvent settings sv.publishers sv.store c <;> exact h
  | other op => exact h
  | upsert a =>
    simp only [step]
    cases hu : upsert sv.publishers a with
    | error e => exact h
    | ok publishers =>
      obtain ⟨-, -, -, hprefixes, rfl⟩ := upsert_ok hu
      intro publisher hm p hp
      rcases Table.mem_put.mp hm with rfl | ⟨hold, -⟩
      · exact hprefixes p (mem_row_prefixes.mp hp)
      · exact h publisher hold p hp

/-! ### Stored events -/

/-- The event `o` was stored for the publisher by the call `c`. -/
structure StoredFor (sv : State) (c : Publish.Call) (o : EventOccurrence)
    (publisher : EventPublisher) (eventType : EventType) : Prop where
  /-- The row holds the event of the request. -/
  event : ∃ event, c.event publisher = .ok event ∧ o = occurrenceOf event
  stored : publisher ∈ sv.publishers
  enabled : publisher.enabled = true
  token : ∃ credentials, c.credentials = some credentials ∧ credentials.isBearer = true ∧
    publisher.tokenHash = tokenHash credentials.credentials
  registered : sv.store.eventTypes.get o.eventKey = some eventType
  eventTypeEnabled : eventType.enabled = true
  schemaVersion : eventType.schemaVersion = o.schemaVersion
  accepted : validatePayload eventType.payloadSchema o.data = .ok ()
  metadata : o.metadata.lookup "publisher_key" = some (.str publisher.publisherKey)
  confined : ∃ p ∈ publisher.allowedEventPrefixes, InNamespace p o.eventKey

theorem storedFor_created {settings : Settings} {sv : State} {c : Publish.Call} {s' : Store}
    {publisher : EventPublisher} {event : DomainEvent} {notifyAt : Option Time}
    {eventType : EventType} {fallback : DeliveryMessage} (hv : PrefixesValid sv)
    (h : Created settings sv c s' publisher event notifyAt eventType fallback) :
    StoredFor sv c (occurrenceOf event) publisher eventType := by
  obtain ⟨credentials, hcred, hbearer, hrow, hhash⟩ := requirePublisherAuth_ok h.auth
  obtain ⟨hstored, henabled⟩ := mem_enabledRows.mp hrow
  obtain ⟨htype, htypeEnabled, hversion, hvalid⟩ := checked_ok h.checked
  obtain ⟨-, hkey, -, -, -, hmetadata⟩ := event_ok h.isEvent
  refine ⟨⟨event, h.isEvent, rfl⟩, hstored, henabled, ⟨credentials, hcred, hbearer, hhash⟩, htype,
    htypeEnabled, hversion, hvalid, ?_, ?_⟩
  · show event.metadata.lookup "publisher_key" = _
    rw [hmetadata]
    exact lookup_setItem _ _ _
  · obtain ⟨p, hp, hpre⟩ := List.any_eq_true.mp h.allowed
    refine ⟨p, hp, (startsWith_iff (hv publisher hstored p hp) _).mp ?_⟩
    show p.toList <+: event.eventKey.toList
    rw [hkey]
    exact List.isPrefixOf_iff_prefix.mp hpre

/-- **Publishers are confined to their namespaces.** For every prefix a publisher can be given and
every event key, the prefix is one of the key exactly if its segments are a proper initial part of
those of the key; and every event stored during a run was published by a call with the token of a
publisher that was enabled then, under a type that was enabled with its schema version and accepted
its data, with the key of the publisher in its metadata and its own key in a namespace of the
publisher. -/
theorem publisher_confinement {settings : Settings} {n : ℕ} {sv₀ : State} (h₀ : PrefixesValid sv₀) :
    (∀ p key, isNamespace p = true → isEventKey key = true →
      (p.toList <+: key.toList ↔ InNamespace p key)) ∧
    ∀ reqs, ∀ o ∈ (run (step settings n) sv₀ reqs).store.eventOccurrences,
      o ∉ sv₀.store.eventOccurrences →
        ∃ pre c post publisher eventType, reqs = pre ++ .publishEvent c :: post ∧
          StoredFor (run (step settings n) sv₀ pre) c o publisher eventType := by
  refine ⟨fun p key hp _ => startsWith_iff hp key, fun reqs o ho hnew => ?_⟩
  obtain ⟨pre, req, post, rfl, hpre, hpost⟩ :=
    exists_last_entry (P := fun sv : State => o ∈ sv.store.eventOccurrences) hnew ho
  have hafter := hpost [] post rfl
  rw [run_nil] at hafter
  have hv : PrefixesValid (run (step settings n) sv₀ pre) :=
    run_invariant_all (I := PrefixesValid) (fun _ _ h => prefixesValid_step h) h₀ pre
  cases event_cases settings n (run (step settings n) sv₀ pre) req with
  | same h => rw [h] at hafter; exact absurd hafter hpre
  | created c publisher event notifyAt eventType fallback h =>
    have hrows := (Table.insert?_eq_some.mp h.occurrences).2.2
    rw [← Table.mem_rows, hrows, List.mem_append, List.mem_singleton] at hafter
    rcases hafter with hold | rfl
    · exact absurd hold hpre
    · exact ⟨pre, c, post, publisher, eventType, rfl, storedFor_created hv h⟩

omit [Runtime] in
/-- A request that names another publisher in its metadata. -/
def sampleForged : Publish.Call where
  credentials := some ⟨"Bearer", "0123456789abcdef0123456789abcdef"⟩
  body :=
    ⟨{ sampleRequest with metadata := [("publisher_key", .str "somebody-else")] }, by decide⟩
  now := seconds 20
  storedAt := seconds 20
  eventId := "e-1"
  deliveryId _ openid := "d-" ++ openid

omit [Runtime] in
/-- The server before a publisher has been onboarded. -/
def sampleStart : State := { store := run (@System.step sampleRuntime 5) {} System.sampleSetup }

omit [Runtime] in
/-- `ci-builds` is onboarded and publishes. -/
def sampleRequests : List Request := [.upsert samplePublisher, .publishEvent sampleForged]

omit [Runtime] in
/-- The event that was stored is one of its publisher. -/
theorem publisher_confinement_sample :
    ∃ o ∈ (run (@step sampleRuntime sampleSettings 5) sampleStart
      sampleRequests).store.eventOccurrences,
      ∃ pre c post publisher eventType, sampleRequests = pre ++ .publishEvent c :: post ∧
        @StoredFor sampleRuntime (run (@step sampleRuntime sampleSettings 5) sampleStart pre) c
          o publisher
          eventType := by
  have hlength : (run (@step sampleRuntime sampleSettings 5) sampleStart
      sampleRequests).store.eventOccurrences.rows.length = 1 := by decide
  obtain ⟨o, ho⟩ := List.length_eq_one_iff.mp hlength
  have hmem : o ∈ (run (@step sampleRuntime sampleSettings 5) sampleStart
      sampleRequests).store.eventOccurrences := by
    rw [← Table.mem_rows, ho]
    exact List.mem_cons_self
  have hstart : sampleStart.store.eventOccurrences.rows.length = 0 := by decide
  have hnew : o ∉ sampleStart.store.eventOccurrences := by
    rw [← Table.mem_rows, List.length_eq_zero_iff.mp hstart]
    exact List.not_mem_nil
  exact ⟨o, hmem, (@publisher_confinement sampleRuntime sampleSettings 5 sampleStart
    (fun _ h => by cases h)).2 sampleRequests o hmem hnew⟩

end EventServer.Api.Confinement
