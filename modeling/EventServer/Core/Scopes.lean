import EventServer.Core.Observations
import EventServer.Lib.Restrict

/-! # What an instance works on

A scope is what the processing of one instance reads and writes of the tables that are written at
all: the rows of the instance, the events of its keys, and their deliveries. Processing does on the
scope of its instance what it does on the whole database (`process_only`), and is not seen in a
scope that is apart from it (`only_process`). The event types, the subscriptions and the users are
only read, and belong to every scope. -/

namespace EventServer.Core.Scopes

open EventServer.Db EventServer.Lib EventServer.Lib.Table EventServer.Python
  EventServer.Core.Publication
open EventServer.Core.Processing EventServer.Core.Observations

/-- An instance, its event keys, and the identifiers that its events and their deliveries can
get. -/
structure Scope where
  providerInstanceId : String
  eventKeys : List String
  eventId : String → Prop
  deliveryId : String → Prop

namespace Scope

def occurrence (c : Scope) (o : EventOccurrence) : Prop := o.eventKey ∈ c.eventKeys ∨
    c.eventId o.eventId

def delivery (c : Scope) (d : Delivery) : Prop :=
  d.eventKey ∈ c.eventKeys ∨ c.eventId d.eventId ∨ c.deliveryId d.deliveryId

/-- The rows of the scope. -/
noncomputable def onlyStore (c : Scope) (s : Store) : Store :=
  { s with
    eventOccurrences := s.eventOccurrences.restrict c.occurrence
    deliveries := s.deliveries.restrict c.delivery }

/-- The rows of the scope. -/
noncomputable def only (c : Scope) (db : Db) : Db where
  store := c.onlyStore db.store
  instances := db.instances.restrict fun r => r.providerInstanceId = c.providerInstanceId
  checkpoints := db.checkpoints.restrict fun r => r.providerInstanceId = c.providerInstanceId
  observations := db.observations.restrict fun r => r.providerInstanceId = c.providerInstanceId

/-- Two scopes have nothing in common. -/
structure Apart (c c' : Scope) : Prop where
  providerInstanceId : c.providerInstanceId ≠ c'.providerInstanceId
  eventKeys : ∀ eventKey ∈ c.eventKeys, eventKey ∉ c'.eventKeys
  eventId : ∀ id, c.eventId id → ¬ c'.eventId id
  deliveryId : ∀ id, c.deliveryId id → ¬ c'.deliveryId id

/-- The event belongs to the scope. -/
structure Event (c : Scope) (event : DomainEvent) : Prop where
  eventKey : event.eventKey ∈ c.eventKeys
  eventId : c.eventId event.eventId

end Scope

variable {c c' : Scope}

/-! ### Publishing -/

section Publish

variable [Runtime] {s s' : Store} {now : Time} {a : Publish} {result : PublicationResult}

omit [Runtime] in
theorem findExisting_only (h : c.Event a.event) :
    findExisting (s.eventOccurrences.restrict c.occurrence) a.event =
      findExisting s.eventOccurrences a.event := by
  refine find?_restrict fun o ho => ?_
  have hsame : o.eventKey = a.event.eventKey ∧ o.dedupeKey = a.event.dedupeKey := by simpa using ho
  exact Or.inl (hsame.1 ▸ h.eventKey)

omit [Runtime] in
theorem covers_occurrence (h : c.Event a.event) :
    Covers EventOccurrence.eventId EventOccurrence.dedupe c.occurrence (occurrenceOf a.event) := by
  rintro o (hid | hdedupe)
  · exact Or.inr (hid ▸ h.eventId)
  · have hkey : o.eventKey = a.event.eventKey := (Prod.mk.inj hdedupe).1
    exact Or.inl (hkey ▸ h.eventKey)

theorem covers_deliveries (h : c.Event a.event) (hids : ∀ p o, c.deliveryId (a.deliveryId p o))
    {eventType : EventType} {fallback : DeliveryMessage} :
    ∀ d ∈ a.deliveries s now eventType fallback,
      Covers Delivery.deliveryId Delivery.target c.delivery d := by
  intro d hd d' hcollides
  obtain ⟨sub, -, rfl⟩ := List.mem_map.mp hd
  rcases hcollides with hid | htarget
  · exact Or.inr (Or.inr (hid ▸ hids sub.platform sub.openid))
  · have hevent : d'.eventId = a.event.eventId := (Prod.mk.inj htarget).1
    exact Or.inr (Or.inl (hevent ▸ h.eventId))

/-- **An event is published in its scope as it is in the whole store.** -/
theorem publish_only (h : c.Event a.event) (hids : ∀ p o, c.deliveryId (a.deliveryId p o)) :
    publish (c.onlyStore s) now a = (publish s now a).map fun r => (c.onlyStore r.1, r.2) := by
  have hcheck : a.check (c.onlyStore s) = a.check s := rfl
  have hfind : findExisting (c.onlyStore s).eventOccurrences a.event =
      findExisting s.eventOccurrences a.event := findExisting_only h
  have hinsert : (c.onlyStore s).eventOccurrences.insert? (occurrenceOf a.event) =
      (s.eventOccurrences.insert? (occurrenceOf a.event)).map fun t => t.restrict c.occurrence :=
    insert?_restrict (covers_occurrence h)
  unfold publish
  rw [hcheck]
  cases a.check s with
  | error e => rfl
  | ok r =>
    obtain ⟨eventType, fallback⟩ := r
    have hcreated : a.deliveries (c.onlyStore s) now eventType fallback =
        a.deliveries s now eventType fallback := rfl
    have hdeliveries : (c.onlyStore s).deliveries.insertAll?
        (a.deliveries s now eventType fallback) =
        (s.deliveries.insertAll? (a.deliveries s now eventType fallback)).map fun t =>
          t.restrict c.delivery :=
      insertAll?_restrict (covers_deliveries h hids)
    simp only [hfind, hinsert, hcreated, hdeliveries]
    cases findExisting s.eventOccurrences a.event with
    | some existing => rfl
    | none =>
      cases s.eventOccurrences.insert? (occurrenceOf a.event) with
      | none => rfl
      | some occurrences =>
        cases s.deliveries.insertAll? (a.deliveries s now eventType fallback) with
        | none => rfl
        | some deliveries => rfl

theorem only_publish (hapart : c.Apart c') (h : c'.Event a.event)
    (hids : ∀ p o, c'.deliveryId (a.deliveryId p o)) (hok : publish s now a = .ok (s', result)) :
    c.onlyStore s' = c.onlyStore s := by
  have hoccurrence : ¬ c.occurrence (occurrenceOf a.event) := by
    rintro (hkey | hid)
    · exact hapart.eventKeys _ hkey h.eventKey
    · exact hapart.eventId _ hid h.eventId
  have hdelivery : ∀ eventType fallback, ∀ d ∈ a.deliveries s now eventType fallback,
      ¬ c.delivery d := by
    intro eventType fallback d hd
    obtain ⟨sub, -, rfl⟩ := List.mem_map.mp hd
    rintro (hkey | hid | hid)
    · exact hapart.eventKeys _ hkey h.eventKey
    · exact hapart.eventId _ hid h.eventId
    · exact hapart.deliveryId _ hid (hids sub.platform sub.openid)
  unfold publish at hok
  cases hcheck : a.check s with
  | error e => simp [hcheck] at hok
  | ok r =>
    obtain ⟨eventType, fallback⟩ := r
    simp only [hcheck] at hok
    cases hfind : findExisting s.eventOccurrences a.event with
    | some existing =>
      simp only [hfind] at hok
      cases hok
      rfl
    | none =>
      simp only [hfind] at hok
      cases hinsert : s.eventOccurrences.insert? (occurrenceOf a.event) with
      | none => simp [hinsert] at hok
      | some occurrences =>
        simp only [hinsert] at hok
        cases hall : s.deliveries.insertAll? (a.deliveries s now eventType fallback) with
        | none => simp [hall] at hok
        | some deliveries =>
          simp only [hall] at hok
          cases hok
          unfold Scope.onlyStore
          simp only [restrict_of_insert? hinsert hoccurrence,
            restrict_of_insertAll? hall (hdelivery eventType fallback)]

end Publish

/-! ### Publishing all events -/

section PublishAll

variable [Runtime] {ρ : Type} {registry : ProviderRegistry ρ} {now : Time}
  {deliveryId : DomainEvent → String → String → String}

theorem publishAll_only (hids : ∀ e p o, c.deliveryId (deliveryId e p o))
    {events : List DomainEvent} (h : ∀ e ∈ events, c.Event e) (s : Store) :
    publishAll registry now deliveryId (c.onlyStore s) events =
      (publishAll registry now deliveryId s events).map fun r => (c.onlyStore r.1, r.2) := by
  induction events generalizing s with
  | nil => rfl
  | cons event events ih =>
    unfold publishAll
    cases registry.providerForEvent event.eventKey with
    | error e => rfl
    | ok provider =>
      simp only [Except.mapError, bind, Except.bind]
      cases provider.render event "zh-CN" with
      | error e => rfl
      | ok message =>
        simp only
        rw [publish_only (h event List.mem_cons_self) (hids event)]
        cases publish s now ⟨event, [("default", message)], none, deliveryId event⟩ with
        | error e => rfl
        | ok r =>
          simp only [Except.map]
          rw [ih (fun e he => h e (List.mem_cons_of_mem event he))]
          cases publishAll registry now deliveryId r.1 events with
          | error e => rfl
          | ok r' => rfl

theorem only_publishAll (hapart : c.Apart c') (hids : ∀ e p o, c'.deliveryId (deliveryId e p o))
    {events : List DomainEvent} (h : ∀ e ∈ events, c'.Event e) {s s' : Store}
    {results : List PublicationResult}
    (hok : publishAll registry now deliveryId s events = .ok (s', results)) :
    c.onlyStore s' = c.onlyStore s := by
  induction events generalizing s results with
  | nil =>
    cases hok
    rfl
  | cons event events ih =>
    unfold publishAll at hok
    simp only [bind_eq_ok, mapError_eq_ok] at hok
    obtain ⟨provider, -, message, -, ⟨s₁, result⟩, hpublish, ⟨s₂, results'⟩, hrest, hdone⟩ := hok
    cases hdone
    rw [ih (fun e he => h e (List.mem_cons_of_mem event he)) hrest]
    exact only_publish hapart (h event List.mem_cons_self) (hids event) hpublish

end PublishAll

/-! ### Processing -/

section Process

variable [Runtime] {ρ : Type} {registry : ProviderRegistry ρ} {provider : Provider ρ} {db : Db}
  {call : Process ρ} {current : Observation} {done : Processed}

omit [Runtime] in
theorem checkpointOf_only (i : String) (hi : i = c.providerInstanceId) :
    checkpointOf (c.only db).checkpoints i = checkpointOf db.checkpoints i := by
  unfold checkpointOf Scope.only
  rw [get_restrict fun r hr => hr.trans hi]

omit [Runtime] in
theorem saveObservation_only {observations : Observations} {i : String}
    (hi : i = c.providerInstanceId) (current : Observation) :
    (saveObservation observations i current).restrict
        (fun r => r.providerInstanceId = c.providerInstanceId) =
      saveObservation (observations.restrict fun r => r.providerInstanceId = c.providerInstanceId) i
        current := by
  have hcovers : ∀ r : ObservationRecord, r.key = (i, current.identity) →
      r.providerInstanceId = c.providerInstanceId := fun r hr => (Prod.mk.inj hr).1.trans hi
  unfold saveObservation
  rw [get_restrict hcovers]
  cases observations.get (i, current.identity) with
  | some _ => rfl
  | none => exact put_restrict hcovers

omit [Runtime] in
theorem only_saveObservation {observations : Observations} {i : String}
    (hi : i ≠ c.providerInstanceId) (current : Observation) :
    (saveObservation observations i current).restrict
        (fun r => r.providerInstanceId = c.providerInstanceId) =
      observations.restrict fun r => r.providerInstanceId = c.providerInstanceId := by
  unfold saveObservation
  cases observations.get (i, current.identity) with
  | some _ => rfl
  | none => exact restrict_put_other fun r hr he => hi ((Prod.mk.inj hr).1.symm.trans he)

/-- What a call has done, with the rows of the scope only. -/
noncomputable def Scope.processed (c : Scope) (done : Processed) : Processed :=
  { done with db := c.only done.db }

omit [Runtime] in
theorem put_checkpoint_only {checkpoint : ProviderCheckpoint}
    (h : checkpoint.providerInstanceId = c.providerInstanceId) :
    (c.only db).checkpoints.put checkpoint =
      (db.checkpoints.put checkpoint).restrict fun r =>
        r.providerInstanceId = c.providerInstanceId :=
  (put_restrict fun _ hr => hr.trans h).symm

omit [Runtime] in
theorem only_put_checkpoint {checkpoints : ProviderCheckpoints} {checkpoint : ProviderCheckpoint}
    (h : checkpoint.providerInstanceId ≠ c.providerInstanceId) :
    (checkpoints.put checkpoint).restrict (fun r => r.providerInstanceId = c.providerInstanceId) =
      checkpoints.restrict fun r => r.providerInstanceId = c.providerInstanceId :=
  restrict_put_other fun _ hr he => h (hr.symm.trans he)

theorem processObservation_only (hi : call.providerInstanceId = c.providerInstanceId)
    (hevents : ∀ prev events, provider.evaluate prev current = .ok events → ∀ e ∈ events, c.Event e)
    (hids : ∀ e p o, c.deliveryId (call.deliveryId e p o)) :
    processObservation registry provider (c.only db) call current =
      (processObservation registry provider db call current).map c.processed := by
  have hid : (checkpointOf db.checkpoints call.providerInstanceId).providerInstanceId =
      c.providerInstanceId := (checkpointOf_id _ _).trans hi
  unfold processObservation
  simp only [checkpointOf_only call.providerInstanceId hi]
  by_cases hsame : unchanged (checkpointOf db.checkpoints call.providerInstanceId) current = true
  · rw [if_pos hsame, if_pos hsame]
    rw [put_checkpoint_only]
    · rfl
    · exact hid
  · rw [if_neg hsame, if_neg hsame]
    have hadvance : (advance (checkpointOf db.checkpoints call.providerInstanceId)
        current).providerInstanceId = c.providerInstanceId := hid
    have hsave : saveObservation (c.only db).observations call.providerInstanceId current =
        (saveObservation db.observations call.providerInstanceId current).restrict fun r =>
          r.providerInstanceId = c.providerInstanceId := (saveObservation_only hi current).symm
    rw [put_checkpoint_only hadvance, hsave]
    cases previous (checkpointOf db.checkpoints call.providerInstanceId) current with
    | error e => rfl
    | ok prev =>
      simp only [Except.mapError, bind, Except.bind]
      cases hevaluate : provider.evaluate prev current with
      | error e => rfl
      | ok events =>
        have hpublish : publishAll registry call.now call.deliveryId (c.only db).store events =
            (publishAll registry call.now call.deliveryId db.store events).map fun r =>
              (c.onlyStore r.1, r.2) := publishAll_only hids
                (hevents prev events hevaluate) db.store
        simp only [hpublish]
        cases publishAll registry call.now call.deliveryId db.store events with
        | error e => rfl
        | ok r => rfl

/-- What a call on the raw data of an instance with the provider key `providerKey` can publish
belongs to the scope. -/
structure Scope.Within (c : Scope) (registry : ProviderRegistry ρ) (providerKey : String)
    (call : Process ρ) : Prop where
  providerInstanceId : call.providerInstanceId = c.providerInstanceId
  events : ∀ provider current prev events, registry.get providerKey = .ok provider →
    provider.normalize call.now call.raw = .ok current →
      provider.evaluate prev current = .ok events →
    ∀ e ∈ events, c.Event e
  deliveryId : ∀ e p o, c.deliveryId (call.deliveryId e p o)

/-- **Processing does in the scope of its instance what it does in the whole database.** -/
theorem process_only {providerKey : String} (h : c.Within registry providerKey call)
    (hkey : ∀ row, db.instances.get c.providerInstanceId = some row →
      row.providerKey = providerKey) :
    process registry (c.only db) call = (process registry db call).map c.processed := by
  have hget : (c.only db).instances.get call.providerInstanceId =
      db.instances.get call.providerInstanceId :=
    get_restrict fun r hr => hr.trans h.providerInstanceId
  unfold process
  rw [hget]
  cases hrow : db.instances.get call.providerInstanceId with
  | none => rfl
  | some row =>
    have hrowKey : row.providerKey = providerKey := hkey row (h.providerInstanceId ▸ hrow)
    simp only
    by_cases henabled : row.enabled = false
    · rw [if_pos henabled, if_pos henabled]
      rfl
    · rw [if_neg henabled, if_neg henabled]
      cases hprovider : registry.get row.providerKey with
      | error e => rfl
      | ok provider =>
        simp only [Except.mapError, bind, Except.bind]
        cases hcurrent : provider.normalize call.now call.raw with
        | error e => rfl
        | ok current =>
          simp only
          by_cases hother : current.providerKey ≠ row.providerKey
          · rw [if_pos hother, if_pos hother]
            rfl
          · rw [if_neg hother, if_neg hother]
            rw [hrowKey] at hprovider
            rw [processObservation_only h.providerInstanceId
              (fun prev events => h.events provider current prev events hprovider hcurrent)
              h.deliveryId]
            cases processObservation registry provider db call current with
            | error e => rfl
            | ok processed =>
              simp only [Except.map]
              split_ifs <;> rfl

/-- Processing is not seen in a scope that is apart from that of its instance. -/
theorem only_process {providerKey : String} (hapart : c.Apart c')
    (h : c'.Within registry providerKey call)
    (hkey : ∀ row, db.instances.get c'.providerInstanceId = some row →
      row.providerKey = providerKey)
    (hok : process registry db call = .ok done) : c.only done.db = c.only db := by
  obtain ⟨row, provider, hrow, -, hprovider, hcurrent, hobs⟩ := process_ok hok
  have hrowKey : row.providerKey = providerKey := hkey row (h.providerInstanceId ▸ hrow)
  rw [hrowKey] at hprovider
  have hne : call.providerInstanceId ≠ c.providerInstanceId := by
    rw [h.providerInstanceId]
    exact hapart.providerInstanceId.symm
  have hid : (checkpointOf db.checkpoints call.providerInstanceId).providerInstanceId ≠
      c.providerInstanceId := by
    rw [checkpointOf_id]
    exact hne
  unfold processObservation at hobs
  simp only at hobs
  split_ifs at hobs with hsame
  · have hdone := Except.ok.inj hobs
    rw [← hdone]
    unfold Scope.only
    simp only
    rw [only_put_checkpoint]
    exact hid
  · simp only [bind_eq_ok, mapError_eq_ok] at hobs
    obtain ⟨prev, -, events, hevents, ⟨store, publications⟩, hpublish, hdone⟩ := hobs
    have hstore : c.onlyStore store = c.onlyStore db.store :=
      only_publishAll hapart h.deliveryId
        (h.events provider done.current prev events hprovider hcurrent hevents) hpublish
    have hdone := Except.ok.inj hdone
    rw [← hdone]
    unfold Scope.only
    simp only [hstore]
    rw [only_put_checkpoint, only_saveObservation hne]
    exact hid

end Process

end EventServer.Core.Scopes
