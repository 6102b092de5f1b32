import EventServer.Services.Accounts
import EventServer.Services.Subscriptions
import EventServer.CatalogAdmin
import EventServer.Core.Publication
import EventServer.Deliveries.Steps

/-! # The event server, one request at a time

Every operation of the services on the committed store, each as one transaction: a call that returns
commits what it wrote, a call that raises is rolled back. Accounts are blocked and unblocked by no
service but directly in the database; `setAccountStatus` stands for that.

What a step does to the deliveries is one call of the outbox, or none (`deliveries_step`), so every
run of the server is a run of the outbox for them (`deliveries_run`). -/

namespace EventServer.System

open EventServer.Db EventServer.Lib EventServer.Python
open EventServer.Services.Users EventServer.Services.Pairing EventServer.Services.Accounts
open EventServer.Services.Subscriptions EventServer.CatalogAdmin EventServer.Core.Publication
open EventServer.Core.SchemaValidation (validatePayload)
open EventServer.Deliveries.Outbox
open EventServer.Deliveries.Steps (Call NewDelivery IsNew)

inductive Op where
  | setPermissions (a : SetPermissions)
  | changeRole (a : ChangeRole)
  | createPairingCode (now : Time) (platform openid code : String) (ttlMinutes : ℤ)
  | approvePairingCode (now : Time) (a : Approve)
  | bootstrapFirstAdmin (now : Time) (a : Bootstrap)
  | subscribe (a : Subscribe)
  | unsubscribe (a : Unsubscribe)
  | register (entry : ValidEntry)
  | publish (now : Time) (a : Publish)
  | claim (a : Claim)
  | ack (a : Ack)
  | fail (a : Fail)
  | setAccountStatus (platform openid : String) (status : AccountStatus)

/-- The store after a transaction from `s` that ended with `r`. -/
def committed {α : Type} (s : Store) (r : Except Raised (Store × α)) : Store :=
  match r with
  | .ok r => r.1
  | .error _ => s

/-- The accounts with the status of one user set. -/
def writeAccountStatus (s : Store) (platform openid : String) (status : AccountStatus) : Store :=
  { s with
    users := s.users.modifyIf (fun u => User.key u = (platform, openid))
      (fun u => { u with accountStatus := status }) (fun _ => rfl) (fun _ => rfl) }

theorem get_writeAccountStatus (s : Store) (platform openid : String) (status : AccountStatus)
    (k : String × String) : (writeAccountStatus s platform openid status).users.get k =
      (s.users.get k).map fun u =>
        if k = (platform, openid) then { u with accountStatus := status } else u := by
  have h := Table.get_modifyIf (t := s.users) (p := fun u => User.key u = (platform, openid))
    (f := fun u => { u with accountStatus := status }) (fun _ => rfl) (fun _ => rfl) (k := k)
  refine Eq.trans h ?_
  cases hg : s.users.get k with
  | none => rfl
  | some u =>
    have hk : User.key u = k := Table.key_of_get hg
    simp [hk]

variable [Runtime]

/-- The committed store after a request, for the outbox's `max_attempts`. -/
def step (maxAttempts : ℕ) (s : Store) : Op → Store
  | .setPermissions a => committed s (setPermissions s a)
  | .changeRole a => committed s (changeRole s a)
  | .createPairingCode now platform openid code ttl =>
    committed s (createPairingCode s now platform openid code ttl)
  | .approvePairingCode now a => committed s (approvePairingCode s now a)
  | .bootstrapFirstAdmin now a => committed s (bootstrapFirstAdmin s now a)
  | .subscribe a => committed s (subscribe s a)
  | .unsubscribe a => committed s (unsubscribe s a)
  | .register entry => committed s ((register s entry).map fun s => (s, ()))
  | .publish now a => committed s (publish s now a)
  | .claim a => { s with deliveries := (claim s.deliveries a).1 }
  | .ack a =>
    committed s ((Deliveries.Outbox.ack s.deliveries a).map fun r =>
      ({ s with deliveries := r.1 }, r.2))
  | .fail a =>
    committed s ((fail maxAttempts s.deliveries a).map fun r => ({ s with deliveries := r.1 }, r.2))
  | .setAccountStatus platform openid status => writeAccountStatus s platform openid status

/-! ### Publishing -/

omit [Runtime] in
theorem isNew_delivery (a : Publish) (now : Time) (fallback : DeliveryMessage)
    (sub : Subscription) :
    IsNew (a.delivery now fallback sub) := ⟨rfl, rfl, rfl, rfl, rfl, rfl⟩

/-- What a publication that returns has done. -/
inductive Published (s : Store) (now : Time) (a : Publish) : Store → PublicationResult → Prop
  | existing (o : EventOccurrence) (h : findExisting s.eventOccurrences a.event = some o) :
    Published s now a s ⟨o.eventId, false, 0⟩
  | created {s' : Store} (eventType : EventType) (fallback : DeliveryMessage)
    (hc : a.check s = .ok (eventType, fallback))
    (hnone : findExisting s.eventOccurrences a.event = none)
    (ho : s.eventOccurrences.insert? (occurrenceOf a.event) = some s'.eventOccurrences)
    (hd : s.deliveries.insertAll? (a.deliveries s now eventType fallback) = some s'.deliveries)
    (hs : s' =
      { s with eventOccurrences := s'.eventOccurrences, deliveries := s'.deliveries }) :
    Published s now a s' ⟨a.event.eventId, true, (a.deliveries s now eventType fallback).length⟩

theorem publish_ok {s s' : Store} {now : Time} {a : Publish} {r : PublicationResult}
    (h : publish s now a = .ok (s', r)) : Published s now a s' r := by
  unfold publish at h
  cases hc : a.check s with
  | error e => simp [hc] at h
  | ok checked =>
    obtain ⟨eventType, fallback⟩ := checked
    simp only [hc] at h
    cases hf : findExisting s.eventOccurrences a.event with
    | some o =>
      simp only [hf, Except.ok.injEq, Prod.mk.injEq] at h
      obtain ⟨rfl, rfl⟩ := h
      exact .existing o hf
    | none =>
      simp only [hf] at h
      cases ho : s.eventOccurrences.insert? (occurrenceOf a.event) with
      | none => simp [ho] at h
      | some occurrences =>
        simp only [ho] at h
        cases hd : s.deliveries.insertAll? (a.deliveries s now eventType fallback) with
        | none => simp [hd] at h
        | some deliveries =>
          simp only [hd, Except.ok.injEq, Prod.mk.injEq] at h
          obtain ⟨rfl, rfl⟩ := h
          exact .created eventType fallback hc hf ho hd rfl

theorem checked_ok {s : Store} {a : Publish} {eventType : EventType}
    {fallback : DeliveryMessage} (h : a.check s = .ok (eventType, fallback)) :
    s.eventTypes.get a.event.eventKey = some eventType ∧ eventType.enabled = true ∧
      eventType.schemaVersion = a.event.schemaVersion ∧
      validatePayload eventType.payloadSchema a.event.data = .ok () := by
  unfold Publish.check at h
  cases hg : s.eventTypes.get a.event.eventKey with
  | none => simp [hg] at h
  | some found =>
    simp only [hg] at h
    split_ifs at h with henabled hversion
    split at h
    · cases h
    · cases h
    · rename_i hvalid
      split at h
      · cases h
      · cases h
        exact ⟨rfl, by simpa using henabled, not_not.mp hversion, hvalid⟩

/-! ### Frames -/

/-- Neither the catalog nor events, subscriptions or deliveries differ. -/
structure SameEvents (s s' : Store) : Prop where
  eventTypes : s'.eventTypes = s.eventTypes
  eventAliases : s'.eventAliases = s.eventAliases
  eventOccurrences : s'.eventOccurrences = s.eventOccurrences
  subscriptions : s'.subscriptions = s.subscriptions
  deliveries : s'.deliveries = s.deliveries

omit [Runtime] in
theorem SameEvents.refl (s : Store) : SameEvents s s := ⟨rfl, rfl, rfl, rfl, rfl⟩

omit [Runtime] in
theorem committed_cases {α : Type} {P : Store → Prop} {s : Store} {r : Except Raised (Store × α)}
    (h0 : P s) (h : ∀ x, r = .ok x → P x.1) : P (committed s r) := by
  cases r with
  | error e => exact h0
  | ok x => exact h x rfl

/-- A request that works on accounts and pairing codes only. -/
def Op.onAccounts : Op → Bool
  | .setPermissions _ | .changeRole _ | .createPairingCode .. | .approvePairingCode ..
  | .bootstrapFirstAdmin .. | .setAccountStatus .. => true
  | _ => false

/-- A request that works on pairing codes. -/
def Op.onCodes : Op → Bool
  | .createPairingCode .. | .approvePairingCode .. | .bootstrapFirstAdmin .. => true
  | _ => false

/-- A request that works on the catalog and the subscriptions. -/
def Op.onCatalog : Op → Bool
  | .subscribe _ | .unsubscribe _ | .register _ => true
  | _ => false

/-- A request that works on events and deliveries. -/
def Op.onOutbox : Op → Bool
  | .publish .. | .claim _ | .ack _ | .fail _ => true
  | _ => false

omit [Runtime] in
theorem Op.on_cases (op : Op) : op.onAccounts = true ∨ op.onCatalog = true ∨
    op.onOutbox = true := by
  cases op <;> simp [onAccounts, onCatalog, onOutbox]

omit [Runtime] in
theorem sameEvents_applyPermissions (s : Store) (a : SetPermissions) :
    SameEvents s (applyPermissions s a) := by
  rw [applyPermissions_eq]
  exact ⟨rfl, rfl, rfl, rfl, rfl⟩

theorem sameEvents_step {n : ℕ} (s : Store) {op : Op} (h : op.onAccounts = true) :
    SameEvents s (step n s op) := by
  cases op with
  | setPermissions a =>
    refine committed_cases (SameEvents.refl s) fun r hr => ?_
    obtain ⟨-, -, h'⟩ := setPermissions_ok hr
    rw [h']
    exact sameEvents_applyPermissions s a
  | changeRole a =>
    refine committed_cases (SameEvents.refl s) fun r hr => ?_
    obtain ⟨role, -, -, h'⟩ := changeRole_ok hr
    rw [h']
    exact ⟨rfl, rfl, rfl, rfl, rfl⟩
  | createPairingCode now platform openid code ttl =>
    refine committed_cases (SameEvents.refl s) fun r hr => ?_
    obtain ⟨codes, -, h', -⟩ := createPairingCode_ok hr
    rw [h']
    exact ⟨rfl, rfl, rfl, rfl, rfl⟩
  | approvePairingCode now a =>
    refine committed_cases (SameEvents.refl s) fun r hr => ?_
    obtain ⟨row, snapshot, -, -, h'⟩ := approvePairingCode_ok hr
    obtain ⟨h1, h2, h3, h4, h5⟩ := sameEvents_applyPermissions s (a.grant row)
    rw [h']
    exact ⟨h1, h2, h3, h4, h5⟩
  | bootstrapFirstAdmin now a =>
    refine committed_cases (SameEvents.refl s) fun r hr => ?_
    obtain ⟨row, -, h'⟩ := bootstrapFirstAdmin_ok hr
    rw [h']
    exact ⟨rfl, rfl, rfl, rfl, rfl⟩
  | setAccountStatus => exact ⟨rfl, rfl, rfl, rfl, rfl⟩
  | subscribe | unsubscribe | register | publish | claim | ack | fail => cases h

/-- What a subscription is stored as: the one that was there, or a new one, with the keys of the
request. -/
theorem subscribe_stored {s : Store} {a : Subscribe} {r : Store × Subscribed}
    (h : subscribe s a = .ok r) : ∃ event requested,
      activeCommand s a.platform a.openid = true ∧ resolveEvent s a.eventKey = .ok event ∧
      requestedMatchKeys event a.matchKeys = .ok requested ∧
      r.1 = { s with subscriptions := s.subscriptions.put r.2.item } ∧
      r.2.item = { (s.subscriptions.get (a.platform, a.openid, event.eventKey)).getD
        { platform := a.platform, openid := a.openid, eventKey := event.eventKey } with
          matchKeys := requested } ∧
      (r.2.updated = true ↔
        ∃ existing, s.subscriptions.get (a.platform, a.openid, event.eventKey) = some existing ∧
          existing.matchKeys ≠ requested) := by
  unfold subscribe at h
  split_ifs at h with hact
  cases he : resolveEvent s a.eventKey with
  | error e => simp [he] at h
  | ok event =>
    cases hk : requestedMatchKeys event a.matchKeys with
    | error e => simp [he, hk] at h
    | ok requested =>
      refine ⟨event, requested, hact, rfl, hk, ?_⟩
      cases hg : s.subscriptions.get (a.platform, a.openid, event.eventKey) with
      | none =>
        simp only [he, hk, hg] at h
        cases h
        exact ⟨rfl, rfl, by simp⟩
      | some existing =>
        simp only [he, hk, hg] at h
        cases h
        exact ⟨rfl, rfl, by simp⟩

theorem subscribe_ok {s : Store} {a : Subscribe} {r : Store × Subscribed}
    (h : subscribe s a = .ok r) : ∃ event requested,
      Entitled s a.platform a.openid ∧ resolveEvent s a.eventKey = .ok event ∧
      requestedMatchKeys event a.matchKeys = .ok requested ∧
      r.1 = { s with subscriptions := s.subscriptions.put r.2.item } ∧
      Subscription.key r.2.item = (a.platform, a.openid, event.eventKey) ∧
      r.2.item.matchKeys = requested := by
  obtain ⟨event, requested, hact, he, hk, hstore, hitem, -⟩ := subscribe_stored h
  have hent : Entitled s a.platform a.openid := by
    rw [← snapshot_active_command]
    simpa [activeCommand] using hact
  refine ⟨event, requested, hent, he, hk, hstore, ?_, by rw [hitem]⟩
  rw [hitem]
  cases hg : s.subscriptions.get (a.platform, a.openid, event.eventKey) with
  | none => rfl
  | some existing => exact (Table.key_of_get hg : Subscription.key existing = _)

omit [Runtime] in
theorem unsubscribe_ok {s : Store} {a : Unsubscribe} {r : Store × Bool}
    (h : unsubscribe s a = .ok r) :
    r.1 = s ∨ ∃ eventKey,
      r.1 = { s with subscriptions := s.subscriptions.erase (a.platform, a.openid, eventKey) } := by
  unfold unsubscribe at h
  split_ifs at h
  simp only at h
  split at h
  · cases h; exact Or.inl rfl
  · cases h; exact Or.inr ⟨_, rfl⟩

theorem register_ok {s s' : Store} {entry : ValidEntry} (h : register s entry = .ok s') :
    ∃ existing, existing.eventKey = entry.val.eventKey ∧
      s' = { s with eventTypes := s.eventTypes.put (writeEntry existing entry.val) } := by
  unfold register at h
  split at h
  · cases h
  · split at h
    · rename_i existing hg
      split_ifs at h
      cases h
      exact ⟨existing, (Table.key_of_get hg : existing.eventKey = _), rfl⟩
    · cases h
      exact ⟨_, rfl, rfl⟩

theorem registered_ok {s : Store} {entry : ValidEntry} {r : Store × Unit}
    (h : ((register s entry).map fun s => (s, ())) = .ok r) : register s entry = .ok r.1 := by
  cases hr : register s entry with
  | error e => rw [hr] at h; cases h
  | ok s' =>
    rw [hr] at h
    cases h
    rfl

omit [Runtime] in
/-- At most the event types and the subscriptions differ. -/
def CatalogOnly (s s' : Store) : Prop :=
  ∃ eventTypes subscriptions,
    s' = { s with eventTypes := eventTypes, subscriptions := subscriptions }

omit [Runtime] in
/-- At most the events and the deliveries differ. -/
def OutboxOnly (s s' : Store) : Prop :=
  ∃ eventOccurrences deliveries,
    s' = { s with eventOccurrences := eventOccurrences, deliveries := deliveries }

theorem catalog_step (n : ℕ) (s : Store) {op : Op} (h : op.onCatalog = true) :
    CatalogOnly s (step n s op) := by
  cases op with
  | subscribe a =>
    refine committed_cases (P := CatalogOnly s) ⟨_, _, rfl⟩ fun r hr => ?_
    obtain ⟨_, _, -, -, -, h', -⟩ := subscribe_ok hr
    exact ⟨_, _, h'⟩
  | unsubscribe a =>
    refine committed_cases (P := CatalogOnly s) ⟨_, _, rfl⟩ fun r hr => ?_
    rcases unsubscribe_ok hr with h' | ⟨_, h'⟩ <;> exact ⟨_, _, h'⟩
  | register entry =>
    refine committed_cases (P := CatalogOnly s) ⟨_, _, rfl⟩ fun r hr => ?_
    obtain ⟨_, -, h'⟩ := register_ok (registered_ok hr)
    exact ⟨_, _, h'⟩
  | setPermissions | changeRole | createPairingCode | approvePairingCode | bootstrapFirstAdmin
  | publish | claim | ack | fail | setAccountStatus => cases h

theorem outbox_step (n : ℕ) (s : Store) {op : Op} (h : op.onOutbox = true) :
    OutboxOnly s (step n s op) := by
  cases op with
  | publish now a =>
    refine committed_cases (P := OutboxOnly s) ⟨_, _, rfl⟩ fun ⟨s', r⟩ hr => ?_
    cases publish_ok hr with
    | existing => exact ⟨_, _, rfl⟩
    | created _ _ _ _ _ _ hs => exact ⟨_, _, hs⟩
  | claim a => exact ⟨_, _, rfl⟩
  | ack a =>
    simp only [step]
    cases Deliveries.Outbox.ack s.deliveries a <;> exact ⟨_, _, rfl⟩
  | fail a =>
    simp only [step]
    cases fail n s.deliveries a <;> exact ⟨_, _, rfl⟩
  | setPermissions | changeRole | createPairingCode | approvePairingCode | bootstrapFirstAdmin
  | subscribe | unsubscribe | register | setAccountStatus => cases h

theorem sameAccounts_step {n : ℕ} (s : Store) {op : Op} (h : op.onAccounts = false) :
    SameAccounts s (step n s op) := by
  rcases op.on_cases with ha | hc | ho
  · cases h.symm.trans ha
  · obtain ⟨_, _, h'⟩ := catalog_step n s hc
    rw [h']
    exact ⟨rfl, rfl⟩
  · obtain ⟨_, _, h'⟩ := outbox_step n s ho
    rw [h']
    exact ⟨rfl, rfl⟩

theorem pairingCodes_step (n : ℕ) (s : Store) {op : Op} (h : op.onCodes = false) :
    (step n s op).pairingCodes = s.pairingCodes := by
  rcases op.on_cases with ha | hc | ho
  · cases op with
    | setPermissions a =>
      refine committed_cases (P := fun s' => s'.pairingCodes = s.pairingCodes) rfl fun r hr => ?_
      rw [(setPermissions_ok hr).2.2, applyPermissions_eq]
    | changeRole a =>
      refine committed_cases (P := fun s' => s'.pairingCodes = s.pairingCodes) rfl fun r hr => ?_
      obtain ⟨role, -, -, h'⟩ := changeRole_ok hr
      rw [h']
      rfl
    | setAccountStatus => rfl
    | createPairingCode | approvePairingCode | bootstrapFirstAdmin => cases h
    | subscribe | unsubscribe | register | publish | claim | ack | fail => cases ha
  · obtain ⟨_, _, h'⟩ := catalog_step n s hc
    rw [h']
  · obtain ⟨_, _, h'⟩ := outbox_step n s ho
    rw [h']

/-- The ways a request can act on accounts. -/
inductive AccountStep (n : ℕ) (s : Store) (op : Op) : Prop
  | same (h : SameAccounts s (step n s op))
  | permissions (a : SetPermissions) (r : Store × PermissionSnapshot)
    (hr : setPermissions s a = .ok r) (hop : op = .setPermissions a ∨ a.granted = true)
    (h : SameAccounts (applyPermissions s a) (step n s op))
  | role (a : ChangeRole) (role : Role) (r : Store × PermissionSnapshot)
    (hr : changeRole s a = .ok r) (hrole : Role.ofString? a.role = some role)
    (h : SameAccounts (applyRole s a role) (step n s op))
  | promote (a : Bootstrap) (openid : String)
    (h : SameAccounts (Bootstrap.promote s a openid) (step n s op))
  | status (platform openid : String) (status : AccountStatus)
    (he : op = .setAccountStatus platform openid status)

/-- **Every request acts on accounts in one of these ways.** -/
theorem account_cases (n : ℕ) (s : Store) (op : Op) : AccountStep n s op := by
  cases op with
  | setPermissions a =>
    cases hr : setPermissions s a with
    | error e => exact .same (by simp only [step, committed, hr]; exact SameAccounts.refl s)
    | ok r =>
      obtain ⟨-, -, h⟩ := setPermissions_ok hr
      refine .permissions a r hr (Or.inl rfl) ?_
      simp only [step, committed, hr, h]
      exact SameAccounts.refl _
  | changeRole a =>
    cases hr : changeRole s a with
    | error e => exact .same (by simp only [step, committed, hr]; exact SameAccounts.refl s)
    | ok r =>
      obtain ⟨role, hrole, -, h⟩ := changeRole_ok hr
      refine .role a role r hr hrole ?_
      simp only [step, committed, hr, h]
      exact SameAccounts.refl _
  | createPairingCode now platform openid code ttl =>
    refine .same (committed_cases (SameAccounts.refl s) fun r hr => ?_)
    obtain ⟨codes, -, h', -⟩ := createPairingCode_ok hr
    rw [h']
    exact ⟨rfl, rfl⟩
  | approvePairingCode now a =>
    cases hr : approvePairingCode s now a with
    | error e => exact .same (by simp only [step, committed, hr]; exact SameAccounts.refl s)
    | ok r =>
      obtain ⟨row, snapshot, -, hset, h⟩ := approvePairingCode_ok hr
      refine .permissions (a.grant row) _ hset (Or.inr rfl) ?_
      simp only [step, committed, hr, h]
      exact ⟨rfl, rfl⟩
  | bootstrapFirstAdmin now a =>
    cases hr : bootstrapFirstAdmin s now a with
    | error e => exact .same (by simp only [step, committed, hr]; exact SameAccounts.refl s)
    | ok r =>
      obtain ⟨row, -, h⟩ := bootstrapFirstAdmin_ok hr
      refine .promote a row.openid ?_
      simp only [step, committed, hr, h]
      exact ⟨rfl, rfl⟩
  | setAccountStatus platform openid status => exact .status platform openid status rfl
  | subscribe | unsubscribe | register | publish | claim | ack | fail =>
    exact .same (sameAccounts_step s rfl)

/-- Neither events nor deliveries differ. -/
structure SameOutbox (s s' : Store) : Prop where
  eventOccurrences : s'.eventOccurrences = s.eventOccurrences
  deliveries : s'.deliveries = s.deliveries

omit [Runtime] in
theorem SameOutbox.refl (s : Store) : SameOutbox s s := ⟨rfl, rfl⟩

omit [Runtime] in
theorem SameEvents.outbox {s s' : Store} (h : SameEvents s s') : SameOutbox s s' :=
  ⟨h.eventOccurrences, h.deliveries⟩

theorem sameOutbox_step {n : ℕ} (s : Store) {op : Op} (h : op.onOutbox = false) :
    SameOutbox s (step n s op) := by
  rcases op.on_cases with ha | hc | ho
  · exact (sameEvents_step s ha).outbox
  · obtain ⟨_, _, h'⟩ := catalog_step n s hc
    rw [h']
    exact ⟨rfl, rfl⟩
  · cases h.symm.trans ho

/-- Neither the catalog nor the subscriptions differ. -/
structure SameCatalog (s s' : Store) : Prop where
  eventTypes : s'.eventTypes = s.eventTypes
  eventAliases : s'.eventAliases = s.eventAliases
  subscriptions : s'.subscriptions = s.subscriptions

omit [Runtime] in
theorem SameCatalog.refl (s : Store) : SameCatalog s s := ⟨rfl, rfl, rfl⟩

theorem sameCatalog_step {n : ℕ} (s : Store) {op : Op} (h : op.onOutbox = true) :
    SameCatalog s (step n s op) := by
  obtain ⟨_, _, h'⟩ := outbox_step n s h
  rw [h']
  exact ⟨rfl, rfl, rfl⟩

/-- The ways a request can act on events and deliveries. -/
inductive OutboxStep (n : ℕ) (s : Store) (op : Op) : Prop
  | same (h : SameOutbox s (step n s op))
  | created (now : Time) (a : Publish) (eventType : EventType) (fallback : DeliveryMessage)
    (he : op = .publish now a)
    (hp : publish s now a = .ok
      (step n s op, ⟨a.event.eventId, true, (a.deliveries s now eventType fallback).length⟩))
    (hc : a.check s = .ok (eventType, fallback))
    (ho : s.eventOccurrences.insert? (occurrenceOf a.event) = some (step n s op).eventOccurrences)
    (hd : s.deliveries.insertAll? (a.deliveries s now eventType fallback) =
      some (step n s op).deliveries)
  | call (c : Call) (hc : ∀ now ds, c ≠ .enqueue now ds)
    (ho : (step n s op).eventOccurrences = s.eventOccurrences)
    (hd : (step n s op).deliveries = Deliveries.Steps.step n s.deliveries c)

/-- **Every request acts on events and deliveries in one of these ways.** -/
theorem outbox_cases (n : ℕ) (s : Store) (op : Op) : OutboxStep n s op := by
  cases op with
  | publish now a =>
    cases hp : publish s now a with
    | error e => exact .same (by simp only [step, committed, hp]; exact SameOutbox.refl s)
    | ok x =>
      obtain ⟨s', r⟩ := x
      have hs : step n s (.publish now a) = s' := by simp only [step, committed, hp]
      cases publish_ok hp with
      | existing => exact .same (by rw [hs]; exact SameOutbox.refl s)
      | created eventType fallback hc _ ho hd =>
        rw [← hs] at hp ho hd
        exact .created now a eventType fallback rfl hp hc ho hd
  | claim a => exact .call (.claim a) (by simp) rfl rfl
  | ack a =>
    refine .call (.ack a) (by simp) ?_ ?_
    · show (committed s _).eventOccurrences = _
      cases Deliveries.Outbox.ack s.deliveries a <;> rfl
    · show (committed s _).deliveries = _
      simp only [Deliveries.Steps.step]
      cases Deliveries.Outbox.ack s.deliveries a <;> rfl
  | fail a =>
    refine .call (.fail a) (by simp) ?_ ?_
    · show (committed s _).eventOccurrences = _
      cases fail n s.deliveries a <;> rfl
    · show (committed s _).deliveries = _
      simp only [Deliveries.Steps.step]
      cases fail n s.deliveries a <;> rfl
  | setPermissions | changeRole | createPairingCode | approvePairingCode | bootstrapFirstAdmin
  | setAccountStatus | subscribe | unsubscribe | register => exact .same (sameOutbox_step s rfl)

/-! ### Deliveries -/

/-- The calls of the outbox a request amounts to. -/
def Op.calls (s : Store) : Op → List Call
  | .publish now a =>
    match Core.Publication.publish s now a with
    | .error _ => []
    | .ok (_, r) =>
      if r.created then
        match a.check s with
        | .error _ => []
        | .ok (eventType, fallback) =>
          [.enqueue now ((reached s eventType a.event).map fun sub =>
            ⟨a.delivery now fallback sub, isNew_delivery a now fallback sub⟩)]
      else []
  | .claim a => [.claim a]
  | .ack a => [.ack a]
  | .fail a => [.fail a]
  | _ => []

/-- **What a request does to the deliveries.** -/
theorem deliveries_step (n : ℕ) (s : Store) (op : Op) :
    (step n s op).deliveries = run (Deliveries.Steps.step n) s.deliveries (op.calls s) := by
  cases op with
  | publish now a =>
    show (committed s (publish s now a)).deliveries = _
    cases h : publish s now a with
    | error e => simp [committed, Op.calls, h]
    | ok x =>
      obtain ⟨s', r⟩ := x
      cases publish_ok h with
      | existing o => simp [committed, Op.calls, h]
      | created eventType fallback hc _ _ hd =>
        simp only [committed, Op.calls, h, hc, if_true, run_cons, run_nil,
          Deliveries.Steps.step, List.map_map]
        have hd' : s.deliveries.insertAll? ((reached s eventType a.event).map
            (Subtype.val ∘ fun sub => (⟨a.delivery now fallback sub,
              isNew_delivery a now fallback sub⟩ : NewDelivery))) = some s'.deliveries := hd
        rw [hd', Option.getD_some]
  | claim a => rfl
  | ack a =>
    show (committed s _).deliveries = _
    simp only [Op.calls, run_cons, run_nil, Deliveries.Steps.step]
    cases Deliveries.Outbox.ack s.deliveries a <;> rfl
  | fail a =>
    show (committed s _).deliveries = _
    simp only [Op.calls, run_cons, run_nil, Deliveries.Steps.step]
    cases fail n s.deliveries a <;> rfl
  | setPermissions | changeRole | createPairingCode | approvePairingCode | bootstrapFirstAdmin
  | setAccountStatus | subscribe | unsubscribe | register =>
    exact (sameOutbox_step s rfl).deliveries

/-- The calls of the outbox a run amounts to. -/
def calls (n : ℕ) (s : Store) : List Op → List Call
  | [] => []
  | op :: ops => op.calls s ++ calls n (step n s op) ops

/-- **A run of the server is a run of the outbox.** -/
theorem deliveries_run (n : ℕ) (s : Store) (ops : List Op) :
    (run (step n) s ops).deliveries = run (Deliveries.Steps.step n) s.deliveries
      (calls n s ops) := by
  induction ops generalizing s with
  | nil => rfl
  | cons op ops ih => rw [run_cons, ih, calls, run_append, deliveries_step]

/-! ### A sample -/

omit [Runtime] in
/-- An event type without a schema whose events name build projects. -/
def sampleEntry : ValidEntry where
  val :=
    { eventKey := "build.pipeline.failed", displayName := "Build failed",
      matchKeyField := some "projects",
      matchKeyOptions := [⟨"core", "Core"⟩, ⟨"docs", "Docs"⟩] }
  property := by decide

omit [Runtime] in
/-- `root` becomes the first administrator and grants `alice` command, who subscribes to an event
type that has been registered. -/
def sampleSetup : List Op :=
  [.createPairingCode 0 "qqbot" "root" "ABCDEFGH" 10,
    .bootstrapFirstAdmin (seconds 1) { code := "abcdefgh" },
    .setPermissions
      { platform := "qqbot", openid := "alice", permissions := ["command"], granted := true,
        operatorOpenid := "root" },
    .register sampleEntry,
    .subscribe
      { platform := "qqbot", openid := "alice", eventKey := "build.pipeline.failed",
        matchKeys := some ["core"] }]

omit [Runtime] in
/-- A build of the project `core` has failed. -/
def samplePublish : Publish where
  event :=
    { eventId := "e-1", eventKey := "build.pipeline.failed", schemaVersion := 1,
      dedupeKey := "build-7",
      occurredAt := seconds 10, subject := [], data := [("projects", .arr [.str "core"])],
      metadata := [] }
  messages := [("default",
    { title := "Build failed", text := "core", data := [], templateKey := "build",
      templateVersion := 1 })]
  deliveryId _ openid := "d-" ++ openid

end EventServer.System
