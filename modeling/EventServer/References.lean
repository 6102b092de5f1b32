import EventServer.Api.Retention
import EventServer.Api.Custody

/-! # Foreign keys

The foreign keys of `db/models.py` are no part of the table types: the services keep them by
themselves, so the database never has to refuse a row for them. Permissions and subscriptions belong
to stored users, aliases, subscriptions and events to registered event types, deliveries to stored
events; and the event key that a delivery repeats is that of its event (`references_run`). -/

namespace EventServer.References

open EventServer.Db EventServer.Lib EventServer.Python EventServer.System
open EventServer.Services.Users EventServer.Services.Pairing EventServer.Services.Accounts
open EventServer.Services.Subscriptions EventServer.CatalogAdmin EventServer.Core.Publication
open EventServer.Core.Recipients EventServer.Deliveries.Outbox EventServer.Deliveries.Content
open EventServer.Api.Server (State)
open EventServer.Api.App (Settings Action AnyRow KeepsVersion retained_step SameTables
  invariant_step)
open Table (Refers)

def UserPermission.user (r : UserPermission) : String × String := (r.platform, r.openid)

def Subscription.user (r : Subscription) : String × String := (r.platform, r.openid)

/-- Every row that refers to another has it. -/
structure Consistent (s : Store) : Prop where
  userPermissions : Refers UserPermission.user s.userPermissions s.users
  eventAliases : Refers EventAlias.eventKey s.eventAliases s.eventTypes
  eventOccurrences : Refers EventOccurrence.eventKey s.eventOccurrences s.eventTypes
  subscribers : Refers Subscription.user s.subscriptions s.users
  subscriptions : Refers Subscription.eventKey s.subscriptions s.eventTypes
  deliveries : Refers Delivery.eventId s.deliveries s.eventOccurrences
  /-- `deliveries.event_key` repeats the key of the event. -/
  eventKeys : ∀ d ∈ s.deliveries, ∀ o ∈ s.eventOccurrences, o.eventId = d.eventId →
    d.eventKey = o.eventKey

section Step

variable [Runtime] {n : ℕ} {s : Store}

/-- The rows of permissions that a request writes are those of a user that it has made sure of. -/
theorem user_of_permission (op : Op) {r : UserPermission} (hr : r ∈ (step n s op).userPermissions) :
    (∃ r₀ ∈ s.userPermissions, UserPermission.user r₀ = UserPermission.user r) ∨
      ∃ u, (step n s op).users.get (UserPermission.user r) = some u := by
  have huser : ∀ {r : UserPermission} {p o : String} {key : PermissionKey},
      UserPermission.key r = (p, o, key) → UserPermission.user r = (p, o) := by
    intro r p o key h
    simp only [UserPermission.key, Prod.mk.injEq] at h
    rw [UserPermission.user, h.1, h.2.1]
  cases account_cases n s op with
  | same h =>
    rw [h.userPermissions] at hr
    exact Or.inl ⟨r, hr, rfl⟩
  | permissions a _ _ _ h =>
    rw [h.userPermissions, applyPermissions_eq] at hr
    rw [h.users, applyPermissions_eq]
    rcases Table.mem_foldl_put (P := fun r => UserPermission.user r = (a.platform, a.openid))
      (fun t key => huser (row_key t a key)) hr with hold | hnew
    · exact Or.inl ⟨r, hold, rfl⟩
    · rw [hnew]
      exact Or.inr ⟨_, (get_ensureUser s a.platform a.openid _).trans (if_pos rfl)⟩
  | role a role _ _ _ h =>
    rw [h.userPermissions] at hr
    exact Or.inl ⟨r, hr, rfl⟩
  | promote a openid h =>
    rw [h.userPermissions] at hr
    rw [h.users]
    rcases Table.mem_foldl_put (P := fun r => UserPermission.user r = (a.platform, openid))
      (fun t key => huser (permission_key t a openid key)) hr with hold | hnew
    · exact Or.inl ⟨r, hold, rfl⟩
    · rw [hnew]
      exact Or.inr ⟨_, (get_promote s a openid _).trans (if_pos rfl)⟩
  | status platform openid status he =>
    rw [he] at hr
    exact Or.inl ⟨r, hr, rfl⟩

omit [Runtime] in
theorem registered_of_resolveEvent {s : Store} {eventKey : String} {event : EventType}
    (h : resolveEvent s eventKey = .ok event) : s.eventTypes.get event.eventKey = some event := by
  have hfound : ∀ k, s.eventTypes.get k = some event →
      s.eventTypes.get event.eventKey = some event :=
    fun k hk => Table.mem_iff_get.mp (Table.mem_of_get hk)
  simp only [resolveEvent] at h
  split at h
  · cases h
  · rename_i found hfind
    split_ifs at h
    cases h
    cases hget : s.eventTypes.get eventKey with
    | some e =>
      rw [hget] at hfind
      exact hfound eventKey (hget.trans hfind)
    | none =>
      rw [hget] at hfind
      simp only at hfind
      split at hfind
      · exact hfound _ hfind
      · cases hfind

omit [Runtime] in
theorem user_of_entitled {s : Store} {p o : String} (h : Entitled s p o) :
    ∃ u, s.users.get (p, o) = some u := by
  obtain ⟨⟨u, hu, -⟩, -⟩ := h
  exact ⟨u, hu⟩

/-- A subscription that a request stores belongs to a stored user and a registered event type. -/
theorem parents_of_subscription (op : Op) {r : Subscription}
    (hr : r ∈ (step n s op).subscriptions) :
    r ∈ s.subscriptions ∨ (∃ u, s.users.get (Subscription.user r) = some u) ∧
      ∃ e, s.eventTypes.get r.eventKey = some e := by
  rcases op.on_cases with ha | hc | ho
  · rw [(sameEvents_step s ha).subscriptions] at hr
    exact Or.inl hr
  · cases op with
    | subscribe a =>
      simp only [step] at hr
      cases h : subscribe s a with
      | error e =>
        simp only [h, committed] at hr
        exact Or.inl hr
      | ok x =>
        simp only [h, committed] at hr
        obtain ⟨event, requested, hentitled, hresolve, -, hstore, hkey, -⟩ := subscribe_ok h
        rw [hstore] at hr
        rcases Table.mem_put.mp hr with rfl | ⟨hold, -⟩
        · simp only [Subscription.key, Prod.mk.injEq] at hkey
          obtain ⟨hp, ho, he⟩ := hkey
          rw [Subscription.user, hp, ho, he]
          exact Or.inr ⟨user_of_entitled hentitled, event, registered_of_resolveEvent hresolve⟩
        · exact Or.inl hold
    | unsubscribe a =>
      refine Or.inl ?_
      simp only [step] at hr
      cases h : unsubscribe s a with
      | error e =>
        simp only [h, committed] at hr
        exact hr
      | ok x =>
        simp only [h, committed] at hr
        rcases unsubscribe_ok h with hstore | ⟨eventKey, hstore⟩
        · rw [hstore] at hr
          exact hr
        · rw [hstore] at hr
          exact (Table.mem_erase.mp hr).1
    | register entry =>
      refine Or.inl ?_
      simp only [step] at hr
      cases h : (register s entry).map fun s => (s, ()) with
      | error e =>
        simp only [h, committed] at hr
        exact hr
      | ok x =>
        simp only [h, committed] at hr
        obtain ⟨_, -, hstore⟩ := register_ok (registered_ok h)
        rw [hstore] at hr
        exact hr
    | _ => cases hc
  · rw [(sameCatalog_step s ho).subscriptions] at hr
    exact Or.inl hr

theorem parent_of_occurrence (op : Op) {o : EventOccurrence}
    (ho : o ∈ (step n s op).eventOccurrences) :
    o ∈ s.eventOccurrences ∨ ∃ e, s.eventTypes.get o.eventKey = some e := by
  cases outbox_cases n s op with
  | same h =>
    rw [h.eventOccurrences] at ho
    exact Or.inl ho
  | call c _ hsame _ =>
    rw [hsame] at ho
    exact Or.inl ho
  | created now a eventType fallback _ _ hc hinsert _ =>
    rw [← Table.mem_rows, (Table.insert?_eq_some.mp hinsert).2.2, List.mem_append,
      List.mem_singleton] at ho
    rcases ho with hold | rfl
    · exact Or.inl hold
    · exact Or.inr ⟨eventType, (check_ok hc).1⟩

theorem eventKeys_step (h : Consistent s) (op : Op) : ∀ d ∈ (step n s op).deliveries,
    ∀ o ∈ (step n s op).eventOccurrences, o.eventId = d.eventId → d.eventKey = o.eventKey := by
  intro d hd o ho heq
  cases outbox_cases n s op with
  | same hsame =>
    rw [hsame.deliveries] at hd
    rw [hsame.eventOccurrences] at ho
    exact h.eventKeys d hd o ho heq
  | call c hc hsame hcall =>
    rw [hcall] at hd
    rw [hsame] at ho
    obtain ⟨d₀, hd₀, hcontent⟩ := content_origin hc hd
    have hid : d₀.eventId = d.eventId := congrArg DeliveryContent.eventId hcontent
    have hkey : d₀.eventKey = d.eventKey := congrArg DeliveryContent.eventKey hcontent
    rw [← hkey]
    exact h.eventKeys d₀ hd₀ o ho (heq.trans hid.symm)
  | created now a eventType fallback _ _ _ hinsert hdeliveries =>
    obtain ⟨hfresh, -, hrows⟩ := Table.insert?_eq_some.mp hinsert
    rw [← Table.mem_rows, hrows, List.mem_append, List.mem_singleton] at ho
    rw [← Table.mem_rows, Table.rows_of_insertAll? hdeliveries, List.mem_append] at hd
    -- the identifier of the new event is that of no stored one
    have hnew : ∀ o₀ ∈ s.eventOccurrences, o₀.eventId ≠ a.event.eventId :=
      fun o₀ ho₀ => hfresh o₀ ho₀
    rcases hd with hd | hd
    · rcases ho with ho | rfl
      · exact h.eventKeys d hd o ho heq
      · obtain ⟨o₀, hget⟩ := h.deliveries d hd
        have hid : o₀.eventId = d.eventId := Table.key_of_get hget
        exact absurd (hid.trans heq.symm) (hnew o₀ (Table.mem_of_get hget))
    · obtain ⟨sub, -, rfl⟩ := List.mem_map.mp hd
      rcases ho with ho | rfl
      · exact absurd heq (hnew o ho)
      · rfl

/-- **Every request keeps the foreign keys.** -/
theorem consistent_step (s : Store) (op : Op) (h : Consistent s) : Consistent (step n s op) := by
  have hkeep := retained_step (n := n) s op
  exact
    { userPermissions := h.userPermissions.step hkeep.users fun r hr => user_of_permission op hr
      eventAliases := by
        rw [hkeep.eventAliases]
        exact h.eventAliases.step hkeep.eventTypes fun r hr => Or.inl ⟨r, hr, rfl⟩
      eventOccurrences := by
        refine h.eventOccurrences.step hkeep.eventTypes fun o ho => ?_
        rcases parent_of_occurrence op ho with hold | ⟨e, he⟩
        · exact Or.inl ⟨o, hold, rfl⟩
        · obtain ⟨e', he', -⟩ := hkeep.eventTypes _ e he
          exact Or.inr ⟨e', he'⟩
      subscribers := by
        refine h.subscribers.step hkeep.users fun r hr => ?_
        rcases parents_of_subscription op hr with hold | ⟨⟨u, hu⟩, -⟩
        · exact Or.inl ⟨r, hold, rfl⟩
        · obtain ⟨u', hu', -⟩ := hkeep.users _ u hu
          exact Or.inr ⟨u', hu'⟩
      subscriptions := by
        refine h.subscriptions.step hkeep.eventTypes fun r hr => ?_
        rcases parents_of_subscription op hr with hold | ⟨-, e, he⟩
        · exact Or.inl ⟨r, hold, rfl⟩
        · obtain ⟨e', he', -⟩ := hkeep.eventTypes _ e he
          exact Or.inr ⟨e', he'⟩
      deliveries := by
        have hparents : DeliveriesOfEvents s := by
          intro d hd
          obtain ⟨o, hget⟩ := h.deliveries d hd
          exact ⟨o, Table.mem_of_get hget, Table.key_of_get hget⟩
        intro d hd
        obtain ⟨o, ho, hid⟩ := deliveriesOfEvents_step (n := n) hparents op d hd
        exact ⟨o, by rw [← hid]; exact Table.mem_iff_get.mp ho⟩
      eventKeys := eventKeys_step h op }

end Step

variable [Runtime] [Api.Publish.Pydantic]

/-- **The foreign keys hold in every state.** Every row that refers to another finds it, after any
actions of clients, publishers and tools: no row is written before the rows it refers to, and none
of these is ever removed. -/
theorem references_run (settings : Settings) {sv₀ : State} (h₀ : Consistent sv₀.store)
    (actions : List Action) : Consistent (run (Api.App.step settings) sv₀ actions).store := by
  refine run_invariant_all (I := fun sv : State => Consistent sv.store)
    (fun sv action h => ?_) h₀ actions
  refine invariant_step (fun s s' hs hc => ?_) consistent_step h action
  obtain ⟨logs, rfl⟩ := hs
  exact ⟨hc.userPermissions, hc.eventAliases, hc.eventOccurrences, hc.subscribers, hc.subscriptions,
    hc.deliveries, hc.eventKeys⟩

omit [Runtime] [Api.Publish.Pydantic] in
theorem consistent_empty : Consistent {} := by
  constructor <;> exact fun _ hr => absurd hr List.not_mem_nil

section Sample

open Api.App

omit [Runtime] [Api.Publish.Pydantic]

/-- `bob` subscribes to failed builds. -/
def sampleSubscription : Request where
  credentials := sampleCredentials "internal-token-0123456789"
  target := .addSubscription "bob" none
    (.json (.obj [("event_key", .str "build.pipeline.failed"), ("match_keys", .arr [.str "core"])]))

/-- `bob` is granted permission and subscribes, and an event for him is published. -/
def sampleActions : List Action :=
  sampleAdmin ++ [.http sampleDraw sampleGrant, .tool ⟨.register sampleEntry, rfl⟩,
    .http sampleDraw sampleSubscription, .upsert Api.Server.samplePublisher,
    .http sampleDraw samplePublication]

/-- The state after them. -/
def sampleReferences : Store :=
  (run (@Api.App.step Api.Server.sampleRuntime sampleEpoch sampleSettings) {} sampleActions).store

theorem references_run_sample : sampleReferences.userPermissions.rows.length = 3 ∧
    sampleReferences.subscriptions.rows.length = 1 ∧
    sampleReferences.eventOccurrences.rows.length = 1 ∧
    sampleReferences.deliveries.rows.length = 1 ∧ Consistent sampleReferences :=
  ⟨by decide, by decide, by decide, by decide,
    @references_run Api.Server.sampleRuntime sampleEpoch sampleSettings {}
      consistent_empty sampleActions⟩

end Sample

end EventServer.References
