import EventServer.Api.Responses
import EventServer.Core.SchemaVersions
import EventServer.Deliveries.Content
import EventServer.Lib.Retention
import EventServer.Services.Provenance

/-! # What the server never forgets

Nothing but subscriptions is ever removed. Events and audit entries are appended; a delivery keeps
what it says, and once it is sent or dead it stays as it is; a pairing code keeps its user and its
expiry, and once it is consumed it stays as it is; an event type keeps its schema version
(`retention`). -/

namespace EventServer.Api.App

open EventServer.Db EventServer.Lib EventServer.Python EventServer.System
open EventServer.Auth.Publisher EventServer.Api.Publish EventServer.Api.Subscriptions
open EventServer.Api.Bodies EventServer.Api.Server EventServer.CatalogAdmin
  EventServer.PublisherAdmin
open EventServer.Core.Publication EventServer.Services.Accounts
open EventServer.Services.Users EventServer.Services.Pairing EventServer.Services.Subscriptions
open EventServer.Services.Provenance (SameCode sameCode_consume)
open EventServer.Core.SchemaVersions (registrable_of_ok)
open EventServer.Deliveries.Outbox
open EventServer.Deliveries.LeaseSafety (Final final_step)
open EventServer.Deliveries.Content
open Table (Retains)

/-- A row that may change in every column but its key. -/
def AnyRow {ρ : Type} (_ _ : ρ) : Prop := True

/-- What a delivery says does not change, attempts are counted up, and a final state is final. -/
structure KeepsDelivery (d d' : Delivery) : Prop where
  content : contentOf d' = contentOf d
  attempts : d.attempts ≤ d'.attempts
  final : Final d → d' = d

/-- A code keeps its user and its expiry, and changes once, when it is consumed. -/
structure KeepsCode (row row' : PairingCode) : Prop where
  same : SameCode row row'
  consumed : row.consumedAt ≠ none → row' = row

def KeepsVersion (e e' : EventType) : Prop := e'.schemaVersion = e.schemaVersion

/-- The tables of `s'` keep what those of `s` hold, except for the subscriptions. -/
structure Retained (s s' : Store) : Prop where
  users : Retains AnyRow s.users s'.users
  userPermissions : Retains AnyRow s.userPermissions s'.userPermissions
  eventTypes : Retains KeepsVersion s.eventTypes s'.eventTypes
  eventAliases : s'.eventAliases = s.eventAliases
  eventOccurrences : s.eventOccurrences.rows <+: s'.eventOccurrences.rows
  deliveries : Retains KeepsDelivery s.deliveries s'.deliveries
  pairingCodes : Retains KeepsCode s.pairingCodes s'.pairingCodes

section Relations

theorem anyRow {ρ : Type} (r : ρ) : AnyRow r r := trivial

theorem KeepsDelivery.refl (d : Delivery) : KeepsDelivery d d := ⟨rfl, le_refl _, fun _ => rfl⟩

theorem KeepsDelivery.trans (d₁ d₂ d₃ : Delivery) (h : KeepsDelivery d₁ d₂)
    (h' : KeepsDelivery d₂ d₃) :
    KeepsDelivery d₁ d₃ where
  content := h'.content.trans h.content
  attempts := h.attempts.trans h'.attempts
  final hf := by
    have heq := h.final hf
    subst heq
    exact h'.final hf

theorem KeepsCode.refl (row : PairingCode) : KeepsCode row row := ⟨SameCode.refl row, fun _ => rfl⟩

theorem KeepsCode.trans (r₁ r₂ r₃ : PairingCode) (h : KeepsCode r₁ r₂) (h' : KeepsCode r₂ r₃) :
    KeepsCode r₁ r₃ where
  same := h.same.trans h'.same
  consumed hc := by
    have heq := h.consumed hc
    subst heq
    exact h'.consumed hc

theorem KeepsVersion.refl (e : EventType) : KeepsVersion e e := Eq.refl e.schemaVersion

theorem KeepsVersion.trans (e₁ e₂ e₃ : EventType) (h : KeepsVersion e₁ e₂)
    (h' : KeepsVersion e₂ e₃) :
    KeepsVersion e₁ e₃ := Eq.trans h' h

theorem anyRow_trans {ρ : Type} (r₁ r₂ r₃ : ρ) (_ : AnyRow r₁ r₂)
    (_ : AnyRow r₂ r₃) : AnyRow r₁ r₃ :=
  trivial

theorem Retained.refl (s : Store) : Retained s s where
  users := .refl anyRow _
  userPermissions := .refl anyRow _
  eventTypes := .refl KeepsVersion.refl _
  eventAliases := rfl
  eventOccurrences := List.prefix_rfl
  deliveries := .refl KeepsDelivery.refl _
  pairingCodes := .refl KeepsCode.refl _

theorem Retained.trans {s₁ s₂ s₃ : Store} (h : Retained s₁ s₂)
    (h' : Retained s₂ s₃) : Retained s₁ s₃ where
  users := h.users.trans anyRow_trans h'.users
  userPermissions := h.userPermissions.trans anyRow_trans h'.userPermissions
  eventTypes := h.eventTypes.trans KeepsVersion.trans h'.eventTypes
  eventAliases := h'.eventAliases.trans h.eventAliases
  eventOccurrences := h.eventOccurrences.trans h'.eventOccurrences
  deliveries := h.deliveries.trans KeepsDelivery.trans h'.deliveries
  pairingCodes := h.pairingCodes.trans KeepsCode.trans h'.pairingCodes

end Relations

variable [Runtime]

/-! ### One request -/

section Step

variable {n : ℕ} (s : Store) (op : Op)

omit [Runtime] in
theorem retains_ensureUser (p o : String) : Retains AnyRow s.users (ensureUser s p o).2.users := by
  unfold ensureUser
  cases s.users.get (p, o) with
  | none => exact Table.retains_put anyRow fun _ _ => trivial
  | some u => exact .refl anyRow _

theorem retains_users : Retains AnyRow s.users (System.step n s op).users := by
  cases account_cases n s op with
  | same h =>
    rw [h.users]
    exact .refl anyRow _
  | permissions a r _ _ h =>
    rw [h.users, applyPermissions_eq]
    exact retains_ensureUser s a.platform a.openid
  | role a role r _ _ h =>
    rw [h.users]
    exact Table.retains_put anyRow fun _ _ => trivial
  | promote a openid h =>
    rw [h.users]
    exact Table.retains_put anyRow fun _ _ => trivial
  | status platform openid status he =>
    rw [he]
    exact Table.retains_modifyIf (f := fun u : User => { u with accountStatus := status })
      (fun _ => rfl) (fun _ => rfl) anyRow fun _ => trivial

theorem retains_userPermissions :
    Retains AnyRow s.userPermissions (System.step n s op).userPermissions := by
  have hput : ∀ (t : UserPermissions) (row : UserPermission), Retains AnyRow t (t.put row) :=
    fun t row => Table.retains_put anyRow fun _ _ => trivial
  cases account_cases n s op with
  | same h =>
    rw [h.userPermissions]
    exact .refl anyRow _
  | permissions a r _ _ h =>
    rw [h.userPermissions, applyPermissions_eq]
    exact Table.retains_foldl anyRow anyRow_trans (fun t key => hput t _) a.keys _
  | role a role r _ _ h =>
    rw [h.userPermissions]
    exact .refl anyRow _
  | promote a openid h =>
    rw [h.userPermissions]
    exact Table.retains_foldl anyRow anyRow_trans (fun t key => hput t _) _ _
  | status platform openid status he =>
    rw [he]
    exact .refl anyRow _

theorem retains_register {s s' : Store} {entry : ValidEntry} (h : register s entry = .ok s') :
    Retains KeepsVersion s.eventTypes s'.eventTypes := by
  obtain ⟨-, hversion⟩ := registrable_of_ok h
  obtain ⟨existing, hkey, rfl⟩ := register_ok h
  refine Table.retains_put KeepsVersion.refl fun e he => ?_
  have he' : s.eventTypes.get existing.eventKey = some e := he
  rw [hkey] at he'
  exact (hversion e he').symm

theorem retains_eventTypes : Retains KeepsVersion s.eventTypes (System.step n s op).eventTypes := by
  rcases op.on_cases with ha | hc | ho
  · rw [(sameEvents_step s ha).eventTypes]
    exact .refl KeepsVersion.refl _
  · cases op with
    | register entry =>
      refine committed_cases (P := fun s' => Retains KeepsVersion s.eventTypes s'.eventTypes)
        (.refl KeepsVersion.refl _) fun r hr => retains_register (registered_ok hr)
    | subscribe a =>
      refine committed_cases (P := fun s' => Retains KeepsVersion s.eventTypes s'.eventTypes)
        (.refl KeepsVersion.refl _) fun r hr => ?_
      obtain ⟨_, _, -, -, -, hstore, -⟩ := subscribe_ok hr
      rw [hstore]
      exact .refl KeepsVersion.refl _
    | unsubscribe a =>
      refine committed_cases (P := fun s' => Retains KeepsVersion s.eventTypes s'.eventTypes)
        (.refl KeepsVersion.refl _) fun r hr => ?_
      rcases unsubscribe_ok hr with hstore | ⟨_, hstore⟩
      · rw [hstore]
        exact .refl KeepsVersion.refl _
      · rw [hstore]
        exact .refl KeepsVersion.refl _
    | _ => cases hc
  · rw [(sameCatalog_step s ho).eventTypes]
    exact .refl KeepsVersion.refl _

theorem prefix_eventOccurrences :
    s.eventOccurrences.rows <+: (System.step n s op).eventOccurrences.rows := by
  cases outbox_cases n s op with
  | same h => rw [h.eventOccurrences]
  | created now a eventType fallback _ _ _ ho _ =>
    rw [(Table.insert?_eq_some.mp ho).2.2]
    exact List.prefix_append _ _
  | call c _ ho _ => rw [ho]

theorem retains_call (t : Deliveries) (c : Deliveries.Steps.Call) :
    Retains KeepsDelivery t (Deliveries.Steps.step n t c) := by
  intro k d hd
  obtain ⟨d', hd', hcontent, hattempts⟩ := content_step (n := n) hd c
  refine ⟨d', hd', hcontent, by omega, fun hf => ?_⟩
  have hsame := (final_step (n := n) hd hf c).1
  rw [hd', Option.some_inj] at hsame
  exact hsame

theorem retains_deliveries : Retains KeepsDelivery s.deliveries
    (System.step n s op).deliveries := by
  rw [deliveries_step]
  exact run_related (Retains.refl KeepsDelivery.refl)
    (fun _ _ _ h h' => h.trans KeepsDelivery.trans h')
    retains_call s.deliveries (op.calls s)

omit [Runtime] in
theorem retains_consume {t : PairingCodes} {row : PairingCode} {k approvedBy : String} {now : Time}
    (hget : t.get k = some row) (hnew : row.consumedAt = none) :
    Retains KeepsCode t (t.put (PairingCode.consume row approvedBy now)) := by
  refine Table.retains_put KeepsCode.refl fun r hr => ?_
  have hk : row.codeHash = k := Table.key_of_get hget
  have hr' : t.get row.codeHash = some r := hr
  rw [hk, hget, Option.some_inj] at hr'
  subst hr'
  exact ⟨sameCode_consume row approvedBy now, fun hc => absurd hnew hc⟩

theorem retains_pairingCodes : Retains KeepsCode s.pairingCodes
    (System.step n s op).pairingCodes := by
  by_cases hop : op.onCodes = true
  · cases op with
    | createPairingCode now platform openid code ttl =>
      refine committed_cases (P := fun s' => Retains KeepsCode s.pairingCodes s'.pairingCodes)
        (.refl KeepsCode.refl _) fun r hr => ?_
      obtain ⟨codes, hinsert, hstore, -⟩ := createPairingCode_ok hr
      rw [hstore]
      exact Table.retains_insert? KeepsCode.refl hinsert
    | approvePairingCode now a =>
      refine committed_cases (P := fun s' => Retains KeepsCode s.pairingCodes s'.pairingCodes)
        (.refl KeepsCode.refl _) fun r hr => ?_
      obtain ⟨row, snapshot, hcheck, -, hstore⟩ := approvePairingCode_ok hr
      obtain ⟨hget, -, hnew, -⟩ := approve_check_ok hcheck
      rw [hstore]
      exact retains_consume hget hnew
    | bootstrapFirstAdmin now a =>
      refine committed_cases (P := fun s' => Retains KeepsCode s.pairingCodes s'.pairingCodes)
        (.refl KeepsCode.refl _) fun r hr => ?_
      obtain ⟨row, hcheck, hstore⟩ := bootstrapFirstAdmin_ok hr
      obtain ⟨hget, -, hnew, -⟩ := bootstrap_check_ok hcheck
      rw [hstore]
      exact retains_consume hget hnew
    | _ => cases hop
  · rw [pairingCodes_step n s (by simpa using hop)]
    exact .refl KeepsCode.refl _

theorem eventAliases_step : (System.step n s op).eventAliases = s.eventAliases := by
  rcases op.on_cases with ha | hc | ho
  · exact (sameEvents_step s ha).eventAliases
  · obtain ⟨_, _, hstore⟩ := catalog_step n s hc
    rw [hstore]
  · exact (sameCatalog_step s ho).eventAliases

/-- **A request removes no row** but that of a subscription. -/
theorem retained_step : Retained s (System.step n s op) where
  users := retains_users s op
  userPermissions := retains_userPermissions s op
  eventTypes := retains_eventTypes s op
  eventAliases := eventAliases_step s op
  eventOccurrences := prefix_eventOccurrences s op
  deliveries := retains_deliveries s op
  pairingCodes := retains_pairingCodes s op

end Step

/-! ### The run -/

omit [Runtime] in
/-- The state `sv'` keeps what `sv` holds. -/
structure Remembered (sv sv' : State) : Prop where
  store : Retained sv.store sv'.store
  publishers : Retains AnyRow sv.publishers sv'.publishers
  auditLogs : sv.store.auditLogs <+: sv'.store.auditLogs

omit [Runtime] in
theorem Remembered.refl (sv : State) : Remembered sv sv :=
  ⟨.refl sv.store, .refl anyRow sv.publishers, List.prefix_rfl⟩

omit [Runtime] in
theorem Remembered.trans {sv₁ sv₂ sv₃ : State} (h : Remembered sv₁ sv₂) (h' : Remembered sv₂ sv₃) :
    Remembered sv₁ sv₃ :=
  ⟨h.store.trans h'.store, h.publishers.trans anyRow_trans h'.publishers,
    h.auditLogs.trans h'.auditLogs⟩

omit [Runtime] in
theorem Retained.of_sameTables {s s' s'' : Store} (h : Retained s s') (hs : SameTables s' s'') :
    Retained s s'' := by
  obtain ⟨logs, rfl⟩ := hs
  exact ⟨h.users, h.userPermissions, h.eventTypes, h.eventAliases, h.eventOccurrences, h.deliveries,
    h.pairingCodes⟩

theorem auditLogs_tool {n : ℕ} (s : Store) {op : Op} (h : isTool op = true) :
    s.auditLogs <+: (System.step n s op).auditLogs := by
  cases op with
  | register entry =>
    refine committed_cases (P := fun s' => s.auditLogs <+: s'.auditLogs)
      List.prefix_rfl fun r hr => ?_
    obtain ⟨_, -, hstore⟩ := register_ok (registered_ok hr)
    rw [hstore]
  | bootstrapFirstAdmin now a =>
    refine committed_cases (P := fun s' => s.auditLogs <+: s'.auditLogs)
      List.prefix_rfl fun r hr => ?_
    obtain ⟨row, -, hstore⟩ := bootstrapFirstAdmin_ok hr
    rw [hstore]
    exact List.prefix_append _ _
  | setAccountStatus => exact List.prefix_rfl
  | _ => cases h

variable [Pydantic]

theorem publishers_serve (settings : Settings) (sv : State) (d : Draw) (req : Request) :
    (serve settings sv d req).1.publishers = sv.publishers := by
  have hcases := route_cases settings sv d (requestId req.suppliedId d.uuid)
    req.credentials req.target
  simp only [serve]
  generalize route settings sv d (requestId req.suppliedId d.uuid) req.credentials
    req.target = reply at hcases
  generalize req.target.kind = kind at hcases
  cases hcases <;> rfl

theorem remembered_step (settings : Settings) (sv : State) (action : Action) :
    Remembered sv (step settings sv action) where
  store := by
    obtain ⟨op, hop⟩ := serves settings sv action
    refine Retained.of_sameTables ?_ hop.symm
    cases op with
    | none => exact .refl _
    | some op => exact retained_step sv.store op
  publishers := by
    cases action with
    | http d req =>
      rw [show (step settings sv (.http d req)).publishers = sv.publishers from
        publishers_serve settings sv d req]
      exact .refl anyRow _
    | tool op => exact .refl anyRow _
    | upsert a =>
      simp only [step]
      cases h : upsert sv.publishers a with
      | error e => exact .refl anyRow _
      | ok publishers =>
        obtain ⟨-, -, -, -, rfl⟩ := upsert_ok h
        exact Table.retains_put anyRow fun _ _ => trivial
  auditLogs := by
    cases action with
    | http d req =>
      obtain ⟨entries, hlogs, -⟩ := (route_cases settings sv d (requestId req.suppliedId d.uuid)
        req.credentials req.target).trail
      exact ⟨entries, hlogs.symm⟩
    | tool op => exact auditLogs_tool sv.store op.property
    | upsert a =>
      simp only [step]
      cases upsert sv.publishers a <;> exact List.prefix_rfl

/-- **Nothing is forgotten**: between any two states of a run, events and audit entries are only
appended, every delivery stays and says the same, final once it is final, every pairing code stays
with its user, consumed once it is consumed, every event type keeps its schema version, and no user,
permission row or publisher disappears. -/
theorem retention (settings : Settings) (sv₀ : State) (pre post : List Action) :
    Remembered (run (step settings) sv₀ pre) (run (step settings) sv₀ (pre ++ post)) := by
  rw [run_append]
  exact run_related Remembered.refl (fun _ _ _ h h' => h.trans h') (remembered_step settings) _ post

end EventServer.Api.App
