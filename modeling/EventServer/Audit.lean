import EventServer.Api.Publish
import EventServer.Api.Subscriptions
import EventServer.Bootstrap
import EventServer.Lib.Except
import EventServer.System

/-! # What is audited

The requests that administer the server: permissions, roles, pairing, both ways to the first
administrators, subscriptions, publications, the event catalog and the publishers. Each is one
transaction, and one that raises is rolled back. A request is `Recorded` if it leaves a row in
`audit_logs` whenever it changes users, permissions, subscriptions, event types, publishers or
events, and leaves none when it fails.

The catalog tool, the publisher tool and the start-up script write no audit entries: whatever they
change is not recorded, and everything else is (`audited`). -/

namespace EventServer.Audit

open EventServer.Db EventServer.Lib EventServer.Python EventServer.System
open EventServer.Auth.Publisher EventServer.Api.Publish EventServer.Api.Subscriptions
open EventServer.Services.Users EventServer.Services.Pairing EventServer.Services.Accounts
open EventServer.Services.Subscriptions EventServer.CatalogAdmin EventServer.PublisherAdmin
open EventServer.Bootstrap (Settled)

/-! ### The requests -/

structure State where
  store : Store := {}
  publishers : EventPublishers := .empty
  instances : ProviderInstances := .empty

inductive Request where
  /-- `grant` and `revoke`. -/
  | setPermissions (a : SetPermissions)
  | changeRole (a : ChangeRole)
  | createPairingCode (now : Time) (platform openid code : String) (ttlMinutes : ℤ)
  | approvePairingCode (now : Time) (a : Approve)
  | bootstrapFirstAdmin (now : Time) (a : Services.Pairing.Bootstrap)
  | bootstrap (a : Bootstrap.Args)
  | addSubscription (a : AddSubscription)
  | removeSubscription (a : RemoveSubscription)
  | publishEvent (c : Call)
  | register (entry : ValidEntry)
  | upsert (a : Upsert)

/-- The state after a transaction that has written the store. -/
def State.withStore {α : Type} (sv : State)
    (r : Except ApiError (Store × α)) : Except ApiError State :=
  r.map fun x => { sv with store := x.1 }

variable [Runtime]

/-- What a request commits, or the exception that rolls it back. -/
def serve (settings : Settings) (sv : State) : Request → Except ApiError State
  | .setPermissions a => sv.withStore ((setPermissions sv.store a).mapError .raised)
  | .changeRole a => sv.withStore ((changeRole sv.store a).mapError .raised)
  | .createPairingCode now platform openid code ttlMinutes => sv.withStore
    ((createPairingCode sv.store now platform openid code ttlMinutes).mapError .raised)
  | .approvePairingCode now a => sv.withStore ((approvePairingCode sv.store now a).mapError .raised)
  | .bootstrapFirstAdmin now a => sv.withStore
    ((bootstrapFirstAdmin sv.store now a).mapError .raised)
  | .bootstrap a => ((Bootstrap.bootstrap sv.store sv.instances a).mapError .raised).map fun x =>
    { sv with store := x.1, instances := x.2 }
  | .addSubscription a => sv.withStore (addSubscription sv.store a)
  | .removeSubscription a => sv.withStore (removeSubscription sv.store a)
  | .publishEvent c => sv.withStore (publishEvent settings sv.publishers sv.store c)
  | .register entry =>
    ((register sv.store entry).mapError .raised).map fun s => { sv with store := s }
  | .upsert a => ((upsert sv.publishers a).mapError .raised).map fun publishers =>
    { sv with publishers := publishers }

/-- The state after a request. -/
def step (settings : Settings) (sv : State) (req : Request) : State :=
  match serve settings sv req with
  | .ok sv' => sv'
  | .error _ => sv

/-! ### Recording -/

omit [Runtime] in
/-- The rows of the six tables are the same. -/
structure SameRows (sv sv' : State) : Prop where
  users : ∀ k, sv'.store.users.get k = sv.store.users.get k
  userPermissions : ∀ k, sv'.store.userPermissions.get k = sv.store.userPermissions.get k
  subscriptions : ∀ k, sv'.store.subscriptions.get k = sv.store.subscriptions.get k
  eventTypes : ∀ k, sv'.store.eventTypes.get k = sv.store.eventTypes.get k
  publishers : ∀ k, sv'.publishers.get k = sv.publishers.get k
  eventOccurrences : ∀ k, sv'.store.eventOccurrences.get k = sv.store.eventOccurrences.get k

/-- The request has left an audit entry if it has changed anything, and none if it has failed. -/
structure Recorded (settings : Settings) (sv : State) (req : Request) : Prop where
  changed : ¬ SameRows sv (step settings sv req) → ∃ entry entries,
    (step settings sv req).store.auditLogs = sv.store.auditLogs ++ entry :: entries
  failed : ∀ e, serve settings sv req = .error e →
    (step settings sv req).store.auditLogs = sv.store.auditLogs

/-- The row of an entry is stored already as `register` writes it. -/
def Registered (s : Store) (entry : CatalogEntry) : Prop :=
  ∃ existing, s.eventTypes.get entry.eventKey = some existing ∧ writeEntry existing entry = existing

/-- What `register` checks. -/
def Registrable (s : Store) (entry : CatalogEntry) : Prop :=
  checkSchema entry.payloadSchema = .ok () ∧
    ∀ existing, s.eventTypes.get entry.eventKey = some existing →
      existing.schemaVersion = entry.schemaVersion

/-- What `upsert` checks. -/
def Configurable (a : Upsert) : Prop :=
  isPublisherKey a.publisherKey = true ∧ 32 ≤ a.token.length ∧ a.prefixes ≠ [] ∧
    ∀ p ∈ a.prefixes, isNamespace p = true

/-- The catalog tool, the publisher tool or the start-up script has something to write. -/
def Unrecorded (sv : State) : Request → Prop
  | .register entry => Registrable sv.store entry.val ∧ ¬ Registered sv.store entry.val
  | .upsert a => Configurable a ∧ sv.publishers.get a.publisherKey ≠ some a.row
  | .bootstrap a => a.conflicts sv.store = false ∧ ¬ Settled sv.store a
  | _ => False

section Recording

variable {settings : Settings} {sv sv' : State} {req : Request}

omit [Runtime] in
theorem SameRows.refl (sv : State) : SameRows sv sv :=
  ⟨fun _ => rfl, fun _ => rfl, fun _ => rfl, fun _ => rfl, fun _ => rfl, fun _ => rfl⟩

/-- **A request is recorded** if what it commits leaves the tables alone or has an audit entry. -/
theorem recorded_iff {β : Type} {r : Except ApiError β} {f : β → State}
    (hserve : serve settings sv req = r.map f) : Recorded settings sv req ↔
      ∀ x, r = .ok x → SameRows sv (f x) ∨
        ∃ entry entries, (f x).store.auditLogs = sv.store.auditLogs ++ entry :: entries := by
  cases hr : r with
  | error e =>
    have hstep : step settings sv req = sv := by simp [step, hserve, hr, Except.map]
    have hrec : Recorded settings sv req := by
      refine ⟨fun hnot => absurd ?_ hnot, fun _ _ => by rw [hstep]⟩
      rw [hstep]
      exact .refl sv
    refine iff_of_true hrec ?_
    intro x hx
    cases hx
  | ok x =>
    have hok : serve settings sv req = .ok (f x) := by rw [hserve, hr]; rfl
    have hstep : step settings sv req = f x := by simp only [step, hok]
    constructor
    · intro hrec y hy
      cases hy
      by_cases hsame : SameRows sv (f x)
      · exact Or.inl hsame
      · have hentry := hrec.changed (by rw [hstep]; exact hsame)
        rw [hstep] at hentry
        exact Or.inr hentry
    · intro h
      refine ⟨fun hnot => ?_, fun e he => by rw [hok] at he; cases he⟩
      rw [hstep] at hnot ⊢
      exact (h x rfl).resolve_left hnot

theorem recorded_of_entry {α : Type} {r : Except ApiError (Store × α)}
    (hserve : serve settings sv req = sv.withStore r)
    (h : ∀ x, r = .ok x → ∃ entry, x.1.auditLogs = sv.store.auditLogs ++ [entry]) :
    Recorded settings sv req := by
  refine (recorded_iff hserve).mpr fun x hx => ?_
  obtain ⟨entry, hentry⟩ := h x hx
  exact Or.inr ⟨entry, [], hentry⟩

theorem recorded_iff_same {β : Type} {r : Except ApiError β} {f : β → State}
    (hserve : serve settings sv req = r.map f)
    (hlogs : ∀ x, r = .ok x → (f x).store.auditLogs = sv.store.auditLogs) :
    Recorded settings sv req ↔ ∀ x, r = .ok x → SameRows sv (f x) := by
  refine (recorded_iff hserve).trans (forall₂_congr fun x hx => or_iff_left ?_)
  rintro ⟨entry, entries, hentry⟩
  rw [hlogs x hx] at hentry
  simp at hentry

/-! ### Each request -/

theorem recorded_setPermissions (a : SetPermissions) :
    Recorded settings sv (.setPermissions a) := by
  refine recorded_of_entry rfl fun x hx => ?_
  obtain ⟨-, -, hs⟩ := setPermissions_ok (mapError_eq_ok.mp hx)
  rw [hs, applyPermissions_eq]
  exact ⟨a.audit, rfl⟩

theorem recorded_changeRole (a : ChangeRole) : Recorded settings sv (.changeRole a) := by
  refine recorded_of_entry rfl fun x hx => ?_
  obtain ⟨role, -, -, hs⟩ := changeRole_ok (mapError_eq_ok.mp hx)
  rw [hs]
  exact ⟨a.audit, rfl⟩

theorem recorded_approvePairingCode (now : Time) (a : Approve) :
    Recorded settings sv (.approvePairingCode now a) := by
  refine recorded_of_entry rfl fun x hx => ?_
  obtain ⟨row, snapshot, -, -, hs⟩ := approvePairingCode_ok (mapError_eq_ok.mp hx)
  rw [hs, applyPermissions_eq]
  exact ⟨(a.grant row).audit, rfl⟩

theorem recorded_bootstrapFirstAdmin (now : Time) (a : Services.Pairing.Bootstrap) :
    Recorded settings sv (.bootstrapFirstAdmin now a) := by
  refine recorded_of_entry rfl fun x hx => ?_
  obtain ⟨row, -, hs⟩ := bootstrapFirstAdmin_ok (mapError_eq_ok.mp hx)
  rw [hs]
  exact ⟨a.audit row.openid, rfl⟩

theorem recorded_createPairingCode (now : Time) (platform openid code : String) (ttlMinutes : ℤ) :
    Recorded settings sv (.createPairingCode now platform openid code ttlMinutes) := by
  refine (recorded_iff rfl).mpr fun x hx => Or.inl ?_
  obtain ⟨codes, -, hs, -⟩ := createPairingCode_ok (mapError_eq_ok.mp hx)
  rw [hs]
  exact ⟨fun _ => rfl, fun _ => rfl, fun _ => rfl, fun _ => rfl, fun _ => rfl, fun _ => rfl⟩

theorem recorded_addSubscription (a : AddSubscription) :
    Recorded settings sv (.addSubscription a) := by
  refine recorded_of_entry rfl fun x hx => ?_
  obtain ⟨y, hy, hs⟩ := addSubscription_ok hx
  obtain ⟨_, _, -, -, -, hstore, -⟩ := subscribe_ok hy
  rw [hs, hstore]
  exact ⟨a.audit y.2, rfl⟩

theorem recorded_removeSubscription (a : RemoveSubscription) :
    Recorded settings sv (.removeSubscription a) := by
  refine recorded_of_entry rfl fun x hx => ?_
  obtain ⟨y, hy, hs⟩ := removeSubscription_ok hx
  rw [hs]
  rcases unsubscribe_ok hy with hstore | ⟨key, hstore⟩
  · rw [hstore]
    exact ⟨a.audit y.2, rfl⟩
  · rw [hstore]
    exact ⟨a.audit y.2, rfl⟩

theorem auditLogs_publishEvent {publishers : EventPublishers} {s : Store} {c : Call}
    {x : Store × PublishEventResponse} (h : publishEvent settings publishers s c = .ok x) :
    ∃ entry, x.1.auditLogs = s.auditLogs ++ [entry] := by
  unfold publishEvent at h
  split at h
  · cases h
  · rename_i publisher hauth
    split_ifs at h
    split at h
    · cases h
    · split at h
      · cases h
      · rename_i notifyAt hnotify
        split at h
        · cases h
        · cases h
        · rename_i published result hpublish
          cases h
          have hlogs : published.auditLogs = s.auditLogs := by
            cases publish_ok hpublish with
            | existing => rfl
            | created eventType fallback _ _ _ _ hs => rw [hs]
          exact ⟨c.audit publisher result notifyAt, by rw [hlogs]⟩

theorem recorded_publishEvent (c : Call) : Recorded settings sv (.publishEvent c) :=
  recorded_of_entry rfl fun _ hx => auditLogs_publishEvent hx

theorem register_eq_ok {s s' : Store} {entry : ValidEntry} : register s entry = .ok s' ↔
    Registrable s entry.val ∧ s' = { s with eventTypes := s.eventTypes.put (writeEntry
      ((s.eventTypes.get entry.val.eventKey).getD
        { eventKey := entry.val.eventKey, displayName := entry.val.displayName }) entry.val) } := by
  unfold register Registrable
  cases hc : checkSchema entry.val.payloadSchema with
  | error e => simp
  | ok u =>
    cases hget : s.eventTypes.get entry.val.eventKey with
    | none => simp [eq_comm]
    | some existing =>
      by_cases hv : existing.schemaVersion = entry.val.schemaVersion
      · simp [hv, eq_comm]
      · simp [hv]

theorem recorded_register (entry : ValidEntry) : Recorded settings sv (.register entry) ↔
    ¬ (Registrable sv.store entry.val ∧ ¬ Registered sv.store entry.val) := by
  have hlogs : ∀ s, (register sv.store entry).mapError ApiError.raised = .ok s →
      s.auditLogs = sv.store.auditLogs := by
    intro s hs
    obtain ⟨existing, -, rfl⟩ := register_ok (mapError_eq_ok.mp hs)
    rfl
  rw [recorded_iff_same rfl hlogs, not_and_not_right]
  simp only [mapError_eq_ok, register_eq_ok]
  -- the row has the key of the entry
  obtain ⟨existing, hexisting⟩ : ∃ existing, existing =
      (sv.store.eventTypes.get entry.val.eventKey).getD
        { eventKey := entry.val.eventKey, displayName := entry.val.displayName } := ⟨_, rfl⟩
  have hkey : (writeEntry existing entry.val).eventKey = entry.val.eventKey := by
    rw [hexisting]
    cases hget : sv.store.eventTypes.get entry.val.eventKey with
    | none => rfl
    | some row => exact (Table.key_of_get hget : row.eventKey = _)
  rw [← hexisting]
  have hregistered : sv.store.eventTypes.get entry.val.eventKey =
      some (writeEntry existing entry.val) ↔ Registered sv.store entry.val := by
    unfold Registered
    rw [hexisting]
    cases sv.store.eventTypes.get entry.val.eventKey with
    | none => simp
    | some row => simp [eq_comm]
  rw [← hregistered, ← hkey, ← Table.same_put_iff]
  constructor
  · intro h hr
    exact (h _ ⟨hr, rfl⟩).eventTypes
  · rintro h s ⟨hr, rfl⟩
    exact ⟨fun _ => rfl, fun _ => rfl, fun _ => rfl, h hr, fun _ => rfl, fun _ => rfl⟩

theorem upsert_eq_ok {publishers publishers' : EventPublishers} {a : Upsert} :
    upsert publishers a = .ok publishers' ↔
      Configurable a ∧ publishers' = publishers.put a.row := by
  constructor
  · intro h
    obtain ⟨hkey, htoken, hne, hprefixes, rfl⟩ := upsert_ok h
    exact ⟨⟨hkey, htoken, hne, hprefixes⟩, rfl⟩
  · rintro ⟨⟨hkey, htoken, hne, hprefixes⟩, rfl⟩
    unfold upsert
    rw [if_neg (by simp [hkey]), if_neg (not_lt.mpr htoken), if_neg]
    rw [not_or, List.any_eq_true]
    refine ⟨hne, ?_⟩
    rintro ⟨p, hp, hbad⟩
    simp [hprefixes p hp] at hbad

theorem recorded_upsert (a : Upsert) : Recorded settings sv (.upsert a) ↔
    ¬ (Configurable a ∧ sv.publishers.get a.publisherKey ≠ some a.row) := by
  have hlogs : ∀ publishers, (upsert sv.publishers a).mapError ApiError.raised = .ok publishers →
    sv.store.auditLogs = sv.store.auditLogs := fun _ _ => rfl
  have hserve : serve settings sv (.upsert a) = ((upsert sv.publishers a).mapError .raised).map
    fun publishers => { sv with publishers := publishers } := rfl
  have hkey : EventPublisher.publisherKey a.row = a.publisherKey := rfl
  rw [recorded_iff_same hserve hlogs, not_and, not_not, ← hkey, ← Table.same_put_iff]
  simp only [mapError_eq_ok, upsert_eq_ok]
  constructor
  · intro h hc
    exact (h _ ⟨hc, rfl⟩).publishers
  · rintro h publishers ⟨hc, rfl⟩
    exact ⟨fun _ => rfl, fun _ => rfl, fun _ => rfl, fun _ => rfl, h hc, fun _ => rfl⟩

theorem recorded_bootstrap (a : Bootstrap.Args) : Recorded settings sv (.bootstrap a) ↔
    ¬ (a.conflicts sv.store = false ∧ ¬ Settled sv.store a) := by
  have hframe : ∀ x, Bootstrap.bootstrap sv.store sv.instances a = .ok x →
      a.conflicts sv.store = false ∧ x.1.auditLogs = sv.store.auditLogs ∧
        x.1.subscriptions = sv.store.subscriptions ∧
        x.1.eventOccurrences = sv.store.eventOccurrences := by
    intro x hx
    unfold Bootstrap.bootstrap at hx
    split_ifs at hx with hconflict
    cases hx
    rw [Bootstrap.writeAdmins_eq]
    exact ⟨by simpa using hconflict, rfl, rfl, rfl⟩
  have hlogs : ∀ x, (Bootstrap.bootstrap sv.store sv.instances a).mapError ApiError.raised = .ok x →
      x.1.auditLogs = sv.store.auditLogs := fun x hx => (hframe x (mapError_eq_ok.mp hx)).2.1
  rw [recorded_iff_same rfl hlogs, not_and_not_right]
  simp only [mapError_eq_ok]
  constructor
  · intro h hconflict
    have hx : ∃ x, Bootstrap.bootstrap sv.store sv.instances a = .ok x := by
      unfold Bootstrap.bootstrap
      rw [if_neg (by simp [hconflict])]
      exact ⟨_, rfl⟩
    obtain ⟨x, hx⟩ := hx
    have hsame := h x hx
    exact (Bootstrap.settled_iff hx).mpr ⟨hsame.eventTypes, hsame.users, hsame.userPermissions⟩
  · intro h x hx
    obtain ⟨hconflict, -, hsubscriptions, hevents⟩ := hframe x hx
    obtain ⟨htypes, husers, hpermissions⟩ := (Bootstrap.settled_iff hx).mp (h hconflict)
    exact ⟨husers, hpermissions, fun k => congrArg (fun t => Table.get t k) hsubscriptions, htypes,
      fun _ => rfl, fun k => congrArg (fun t => Table.get t k) hevents⟩

/-- **A request is recorded** unless it is one of the three that leave no entry and has something to
write. -/
theorem recorded_iff_not_unrecorded (req : Request) :
    Recorded settings sv req ↔ ¬ Unrecorded sv req := by
  cases req with
  | setPermissions a => exact iff_of_true (recorded_setPermissions a) id
  | changeRole a => exact iff_of_true (recorded_changeRole a) id
  | createPairingCode now platform openid code ttlMinutes =>
    exact iff_of_true (recorded_createPairingCode now platform openid code ttlMinutes) id
  | approvePairingCode now a => exact iff_of_true (recorded_approvePairingCode now a) id
  | bootstrapFirstAdmin now a => exact iff_of_true (recorded_bootstrapFirstAdmin now a) id
  | bootstrap a => exact recorded_bootstrap a
  | addSubscription a => exact iff_of_true (recorded_addSubscription a) id
  | removeSubscription a => exact iff_of_true (recorded_removeSubscription a) id
  | publishEvent c => exact iff_of_true (recorded_publishEvent c) id
  | register entry => exact recorded_register entry
  | upsert a => exact recorded_upsert a

end Recording

/-! ### Runs -/

/-- **Everything administrative is audited** in a run exactly if the catalog tool, the publisher
tool and the start-up script have nothing to write when they are called. -/
theorem audited (settings : Settings) (sv : State) (reqs : List Request) :
    (∀ pre req post, reqs = pre ++ req :: post →
      Recorded settings (run (step settings) sv pre) req) ↔
      Along (step settings) (fun sv req => ¬ Unrecorded sv req) sv reqs :=
  forall₄_congr fun _ req _ _ => recorded_iff_not_unrecorded req

/-! ### What is not audited -/

section Sample

omit [Runtime]

/-- The publisher of build events. -/
def sampleUpsert : Upsert where
  publisherKey := "ci-builds"
  token := "0123456789abcdef0123456789abcdef"
  prefixes := ["build."]

/-- The first administrator of the settings. -/
def sampleArgs : Bootstrap.Args where
  adminOpenids := ["initial-admin"]
  now _ := seconds 1789387200

/-- **The tools and the start-up script leave no entry**: an event type, a publisher and an
administrator that are new. -/
theorem not_audited :
    ¬ @Recorded .sample {} {} (.register sampleEntry) ∧
      ¬ @Recorded .sample {} {} (.upsert sampleUpsert) ∧
      ¬ @Recorded .sample {} {} (.bootstrap sampleArgs) := by
  let _ := Runtime.sample
  simp only [recorded_iff_not_unrecorded, not_not]
  refine ⟨⟨⟨by decide, fun existing hget => by cases hget⟩, ?_⟩,
    ⟨⟨by decide, by decide, by decide, by decide⟩, fun hget => by cases hget⟩,
    ⟨by decide, fun h => ?_⟩⟩
  · rintro ⟨existing, hget, -⟩
    cases hget
  · obtain ⟨u, hget, -⟩ := h.admins "initial-admin" List.mem_cons_self
    cases hget

end Sample

end EventServer.Audit
