import EventServer.Api.App
import EventServer.Lib.Except

/-! # What an HTTP request amounts to

`route_cases` says once what a request can do: it leaves the state as it is, or one call of a
service has returned and is committed. The audit log is written by every layer and read by none, so
up to the audit log a run of the application is a run of `System` (`serves_run`), request by
request. -/

namespace EventServer.Api.App

open EventServer.Db EventServer.Lib EventServer.Python EventServer.System
open EventServer.Auth.Publisher EventServer.Api.Publish EventServer.Api.Subscriptions
open EventServer.Api.Bodies EventServer.Api.Server EventServer.CatalogAdmin
  EventServer.PublisherAdmin
open EventServer.Core.Publication EventServer.Services.Accounts
open EventServer.Services.Users EventServer.Services.Pairing EventServer.Services.Subscriptions
open EventServer.Deliveries.Outbox

/-! ### The ways a request can end -/

variable [Runtime]

/-- The items of a claim's response. -/
def claimResult (items : List ClaimedDelivery) : Except Failure Payload :=
  match items.mapM claimedDelivery with
  | some items => .ok (.claim items)
  | none => .error (.unhandled .validationError)

/-- The state with the deliveries replaced. -/
def withDeliveries (sv : State) (deliveries : Deliveries) : State :=
  { sv with store := { sv.store with deliveries := deliveries } }

omit [Runtime] in
/-- What a route is for. -/
inductive Kind where
  | read | permissions | role | subscribe | unsubscribe | pairingCode | approve | claim | ack | fail
  | publish
  deriving DecidableEq

omit [Runtime] in
def Target.kind : Target → Kind
  | .health | .ready _ | .metrics | .listEvents | .getPermission .. | .getSubscriptions ..
  | .unmatched _ => .read
  | .grantPermissions .. | .revokePermissions .. => .permissions
  | .updateRole .. => .role
  | .addSubscription .. => .subscribe
  | .removeSubscription .. => .unsubscribe
  | .newPairingCode _ => .pairingCode
  | .approveCode .. => .approve
  | .claimDeliveries _ => .claim
  | .ackDelivery .. => .ack
  | .failDelivery .. => .fail
  | .publishEvent _ => .publish

/-- How a request with the id `id` can end on a route of the kind `kind`. -/
inductive Served (settings : Settings) (sv : State) (d : Draw) (id : String) : Kind → Reply → Prop
  | failed {kind : Kind} (e : Failure) : Served settings sv d id kind (sv, .error e)
  | read (p : Payload) : Served settings sv d id .read (sv, .ok p)
  | setPermissions (a : SetPermissions) (x : Store × PermissionSnapshot)
    (hid : a.requestId = some id) (h : setPermissions sv.store a = .ok x) :
    Served settings sv d id .permissions ({ sv with store := x.1 }, .ok (.permission x.2))
  | changeRole (a : ChangeRole) (x : Store × PermissionSnapshot) (hid : a.requestId = some id)
    (h : changeRole sv.store a = .ok x) :
    Served settings sv d id .role ({ sv with store := x.1 }, .ok (.permission x.2))
  | addSubscription (a : AddSubscription) (x : Store × SubscriptionResponse)
      (hid : a.requestId = some id)
    (h : Subscriptions.addSubscription sv.store a = .ok x) :
    Served settings sv d id .subscribe ({ sv with store := x.1 }, .ok (.subscription x.2))
  | removeSubscription (a : RemoveSubscription) (x : Store × DeleteSubscriptionResponse)
    (hid : a.requestId = some id) (h : Subscriptions.removeSubscription sv.store a = .ok x) :
    Served settings sv d id .unsubscribe ({ sv with store := x.1 }, .ok (.deleteSubscription x.2))
  | newPairingCode (platform openid : String) (x : Store × PairingCode)
    (h : createPairingCode sv.store d.now platform openid d.code = .ok x) :
    Served settings sv d id .pairingCode
      ({ sv with store := x.1 }, .ok (.pairingCode d.code x.2.expiresAt))
  | approveCode (a : Approve) (x : Store × PermissionSnapshot) (hid : a.requestId = some id)
    (h : approvePairingCode sv.store d.now a = .ok x) :
    Served settings sv d id .approve ({ sv with store := x.1 }, .ok (.permission x.2))
  | claim (a : Claim) (limit : 1 ≤ a.limit) (lease : 10 ≤ a.leaseSeconds) (hnow : a.now = d.now) :
    Served settings sv d id .claim
      (withDeliveries sv (claim sv.store.deliveries a).1,
        claimResult (claim sv.store.deliveries a).2)
  | ack (a : Ack) (x : Deliveries × Delivery) (hnow : a.now = d.now)
    (h : Deliveries.Outbox.ack sv.store.deliveries a = .ok x) :
    Served settings sv d id .ack (withDeliveries sv x.1, .ok (.status (deliveryStatus x.2)))
  | fail (a : Fail) (x : Deliveries × Delivery) (hnow : a.now = d.now)
    (h : fail settings.deliveryMaxAttempts sv.store.deliveries a = .ok x) :
    Served settings sv d id .fail (withDeliveries sv x.1, .ok (.status (deliveryStatus x.2)))
  | publish (c : Publish.Call) (x : Store × PublishEventResponse) (hid : c.requestId = some id)
    (h : PublishErrors.publishEvent settings.publishing sv.publishers sv.store c = .ok x) :
    Served settings sv d id .publish ({ sv with store := x.1 }, .ok (.published x.2))

section Framework

variable {settings : Settings} {sv : State} {credentials : Option Credentials} {P : Reply → Prop}

omit [Runtime] in
theorem authenticated_cases {endpoint : Reply} (h0 : ∀ e, P (sv, .error e))
    (h : requireServiceAuth settings credentials = .ok () → P endpoint) :
    P (authenticated settings sv credentials endpoint) := by
  unfold authenticated
  cases hauth : requireServiceAuth settings credentials with
  | error e => exact h0 e
  | ok u => exact h hauth

omit [Runtime] in
theorem withBody_cases {α : Type} {body : Body} {ofJson : JsonObject → Option α}
    {endpoint : α → Reply} (h0 : ∀ e, P (sv, .error e))
    (h : ∀ a, requireServiceAuth settings credentials = .ok () → P (endpoint a)) :
    P (withBody settings sv credentials body ofJson endpoint) := by
  unfold withBody
  cases readBody body with
  | error e => exact h0 e
  | ok value =>
    refine authenticated_cases h0 fun hauth => ?_
    cases validated ofJson value with
    | error e => exact h0 e
    | ok a => exact h a hauth

omit [Runtime] in
theorem ended_cases {ε α : Type} {handler : ε → Failure} {answer : α → Payload}
    {r : Except ε (Store × α)} (h0 : ∀ e, P (sv, .error e))
    (h : ∀ x, r = .ok x → P ({ sv with store := x.1 }, .ok (answer x.2))) :
    P (ended sv handler answer r) := by
  unfold ended
  cases r with
  | error e => exact h0 _
  | ok x => exact h x rfl

end Framework

section Cases

variable [Pydantic] {settings : Settings} {sv : State} {d : Draw} {id : String}

omit [Pydantic] [Runtime] in
/-- The seconds of a lease are within the bounds of the setting and of the field. -/
theorem leaseSeconds_bounds (body : { body : DeliveryClaimRequest // body.valid = true }) :
    10 ≤ leaseSeconds settings body.val ∧ leaseSeconds settings body.val ≤ 600 := by
  have hvalid := body.property
  have hsetting := settings.lease
  unfold DeliveryClaimRequest.valid at hvalid
  unfold leaseSeconds
  cases hn : body.val.leaseSeconds with
  | none => exact hsetting
  | some n =>
    simp only [hn, Bool.and_eq_true, decide_eq_true_eq] at hvalid
    simp only
    split_ifs with hzero
    · exact hsetting
    · exact hvalid.2

omit [Pydantic] in
theorem served_claim (body : { body : DeliveryClaimRequest // body.valid = true }) :
    Served settings sv d id .claim (claimDeliveries settings sv d body) := by
  have hvalid := body.property
  unfold DeliveryClaimRequest.valid at hvalid
  simp only [Bool.and_eq_true, decide_eq_true_eq] at hvalid
  have hlimit : 1 ≤ (claimOf settings d body.val).limit := by
    show 1 ≤ body.val.limit.toNat
    have h1 : 1 ≤ body.val.limit := hvalid.1.1.2
    omega
  exact .claim (claimOf settings d body.val) hlimit (leaseSeconds_bounds body).1 rfl

/-- **What a request can do.** -/
theorem route_cases (settings : Settings) (sv : State) (d : Draw) (id : String)
    (credentials : Option Credentials) (target : Target) :
    Served settings sv d id target.kind (route settings sv d id credentials target) := by
  cases target with
  | health => exact .read _
  | ready reachable =>
    cases reachable with
    | false => exact .failed _
    | true => exact .read _
  | unmatched methodNotAllowed => exact .failed _
  | metrics => exact authenticated_cases Served.failed fun _ => .read _
  | listEvents =>
    refine authenticated_cases Served.failed fun _ => ?_
    cases listEvents sv.store with
    | error e => exact .failed e
    | ok p => exact .read p
  | getPermission openid platform => exact authenticated_cases Served.failed fun _ => .read _
  | getSubscriptions openid platform => exact authenticated_cases Served.failed fun _ => .read _
  | grantPermissions openid platform body =>
    refine withBody_cases Served.failed fun body _ => ended_cases Served.failed fun x hx => ?_
    exact .setPermissions _ x rfl hx
  | revokePermissions openid platform body =>
    refine withBody_cases Served.failed fun body _ => ended_cases Served.failed fun x hx => ?_
    exact .setPermissions _ x rfl hx
  | updateRole openid platform body =>
    refine withBody_cases Served.failed fun body _ => ended_cases Served.failed fun x hx => ?_
    exact .changeRole _ x rfl hx
  | addSubscription openid platform body =>
    refine withBody_cases Served.failed fun body _ => ended_cases Served.failed fun x hx => ?_
    exact .addSubscription _ x rfl hx
  | removeSubscription openid eventKey platform =>
    refine authenticated_cases Served.failed fun _ => ended_cases Served.failed fun x hx => ?_
    exact .removeSubscription _ x rfl hx
  | newPairingCode body =>
    refine withBody_cases Served.failed fun body _ => ended_cases Served.failed fun x hx => ?_
    exact .newPairingCode _ _ x hx
  | approveCode code body =>
    refine withBody_cases Served.failed fun body _ => ended_cases Served.failed fun x hx => ?_
    exact .approveCode _ x rfl hx
  | claimDeliveries body => exact withBody_cases Served.failed fun body _ => served_claim body
  | ackDelivery deliveryId body =>
    refine withBody_cases Served.failed fun body _ => ended_cases Served.failed fun x hx => ?_
    obtain ⟨y, hy, rfl⟩ := map_eq_ok.mp hx
    exact .ack (ackOf d deliveryId body.val) y rfl hy
  | failDelivery deliveryId body =>
    refine withBody_cases Served.failed fun body _ => ended_cases Served.failed fun x hx => ?_
    obtain ⟨y, hy, rfl⟩ := map_eq_ok.mp hx
    exact .fail (failOf d deliveryId body.val) y rfl hy
  | publishEvent body =>
    show Served settings sv d id .publish (publishRoute settings sv d id credentials body)
    unfold publishRoute
    split
    · exact Served.failed _
    · split
      · exact Served.failed _
      · split
        · exact Served.failed _
        · exact ended_cases Served.failed fun x hx => .publish _ x rfl hx

end Cases

omit [Runtime] in
theorem resolveNotifyAt_eq_ok {settings : Publish.Settings}
    {value notifyAt : Option Time} {now : Time}
    (h : PublishErrors.resolveNotifyAt value settings now = .ok notifyAt) :
    resolveNotifyAt value settings now = .ok notifyAt := by
  unfold PublishErrors.resolveNotifyAt PublishErrors.checkRange at h
  unfold resolveNotifyAt
  cases value with
  | none => exact congrArg Except.ok (Except.ok.inj h)
  | some n =>
    simp only at h ⊢
    by_cases hn : InRange n
    · simp only [if_pos hn] at h
      by_cases hle : n ≤ now
      · rw [if_pos hle] at h ⊢
        exact congrArg Except.ok (Except.ok.inj h)
      · rw [if_neg hle] at h ⊢
        split at h
        · cases h
        · rename_i horizon hrange
          split_ifs at hrange
          cases hrange
          split_ifs at h ⊢
          exact congrArg Except.ok (Except.ok.inj h)
    · rw [if_neg hn] at h
      cases h

theorem publishEvent_eq_ok {settings : Publish.Settings} {publishers : EventPublishers} {s : Store}
    {c : Publish.Call} {x : Store × PublishEventResponse}
    (h : PublishErrors.publishEvent settings publishers s c = .ok x) :
    publishEvent settings publishers s c = .ok x := by
  unfold PublishErrors.publishEvent at h
  unfold publishEvent
  cases hauth : requirePublisherAuth (enabledRows publishers c.order) c.credentials with
  | error e => simp [hauth] at h
  | ok publisher =>
    simp only [hauth] at h ⊢
    by_cases hmay : mayPublish publisher c.body.val.eventKey = true
    · rw [if_pos hmay] at h ⊢
      cases hevent : c.event publisher with
      | error e => simp [PublishErrors.domainEvent, hevent] at h
      | ok event =>
        simp only [PublishErrors.domainEvent, hevent] at h ⊢
        by_cases hvalid : PublishErrors.eventValid event = true
        · rw [if_pos hvalid] at h
          simp only at h
          cases hresolve : PublishErrors.resolveNotifyAt c.body.val.notifyTime settings c.now with
          | error e => simp [hresolve] at h
          | ok notifyAt =>
            rw [resolveNotifyAt_eq_ok hresolve]
            simp only [hresolve] at h ⊢
            cases hpub : publish s c.storedAt (c.publish event notifyAt) with
            | error e => cases e <;> simp [hpub] at h
            | ok y =>
              simp only [hpub] at h ⊢
              exact congrArg Except.ok (Except.ok.inj h)
        · rw [if_neg hvalid] at h
          cases h
    · rw [if_neg hmay] at h
      cases h

/-! ### The audit log is never read -/

section Tables

omit [Runtime]

/-- Nothing but the audit log differs. -/
def SameTables (s s' : Store) : Prop := ∃ logs, s' = { s with auditLogs := logs }

theorem SameTables.refl (s : Store) : SameTables s s := ⟨s.auditLogs, rfl⟩

theorem SameTables.symm {s s' : Store} (h : SameTables s s') : SameTables s' s := by
  obtain ⟨logs, rfl⟩ := h
  exact ⟨s.auditLogs, rfl⟩

theorem SameTables.trans {s₁ s₂ s₃ : Store} (h : SameTables s₁ s₂) (h' : SameTables s₂ s₃) :
    SameTables s₁ s₃ := by
  obtain ⟨_, rfl⟩ := h
  obtain ⟨logs, rfl⟩ := h'
  exact ⟨logs, rfl⟩

/-- Two calls that raise the same exception, or return the same with the same tables. -/
inductive Alike {ε α : Type} : Except ε (Store × α) → Except ε (Store × α) → Prop
  | ok {s s' : Store} (a : α) (h : SameTables s s') : Alike (.ok (s, a)) (.ok (s', a))
  | error (e : ε) : Alike (.error e) (.error e)

theorem Alike.committed {α : Type} {s s' : Store} {r r' : Except Raised (Store × α)}
    (h : Alike r r') (hs : SameTables s s') :
    SameTables (System.committed s r) (System.committed s' r') := by
  cases h with
  | ok a h => exact h
  | error e => exact hs

variable (s : Store) (logs : List AuditLog)

theorem sameTables_ensureUser (platform openid : String) :
    ensureUser { s with auditLogs := logs } platform openid =
      ((ensureUser s platform openid).1,
        { (ensureUser s platform openid).2 with auditLogs := logs }) := by
  unfold ensureUser
  cases s.users.get (platform, openid) <;> rfl

theorem requireAdmin_logs (platform openid : String) :
    requireAdmin { s with auditLogs := logs } platform openid = requireAdmin s platform openid :=
      rfl

theorem activeCommandAdminCount_logs (platform : String) :
    activeCommandAdminCount { s with auditLogs := logs } platform =
      activeCommandAdminCount s platform := rfl

variable [Runtime]

theorem alike_setPermissions (a : SetPermissions) :
    Alike (setPermissions s a) (setPermissions { s with auditLogs := logs } a) := by
  unfold setPermissions
  by_cases hinvalid : a.invalid ≠ [] ∨ a.permissions = []
  · rw [if_pos hinvalid, if_pos hinvalid]
    exact .error _
  · rw [if_neg hinvalid, if_neg hinvalid, requireAdmin_logs s logs]
    cases requireAdmin s a.platform a.operatorOpenid with
    | error e => exact .error e
    | ok u =>
      simp only [sameTables_ensureUser, activeCommandAdminCount_logs]
      split_ifs with hlast
      · exact .error _
      · simp only [writePermissions_eq]
        exact .ok _ ⟨_, rfl⟩

omit [Runtime] in
theorem alike_changeRole (a : ChangeRole) :
    Alike (changeRole s a) (changeRole { s with auditLogs := logs } a) := by
  unfold changeRole
  cases Role.ofString? a.role with
  | none => exact .error _
  | some role =>
    simp only [requireAdmin_logs, activeCommandAdminCount_logs]
    cases requireAdmin s a.platform a.operatorOpenid with
    | error e => exact .error e
    | ok u =>
      simp only
      split
      · rename_i hlast
        simp only [hlast, if_true]
        exact .error _
      · rename_i hlast
        simp only [hlast, if_false, Bool.false_eq_true, applyRole, sameTables_ensureUser]
        exact .ok _ ⟨_, rfl⟩

theorem alike_createPairingCode (now : Time) (platform openid code : String) (ttl : ℤ) :
    Alike (createPairingCode s now platform openid code ttl)
      (createPairingCode { s with auditLogs := logs } now platform openid code ttl) := by
  simp only [createPairingCode]
  split
  · exact .error _
  · exact .ok _ ⟨_, rfl⟩

theorem alike_approvePairingCode (now : Time) (a : Approve) :
    Alike (approvePairingCode s now a) (approvePairingCode { s with auditLogs := logs } now a) := by
  simp only [approvePairingCode, requireAdmin_logs]
  cases requireAdmin s a.platform a.operatorOpenid with
  | error e => exact .error e
  | ok u =>
    simp only
    cases a.check (s.pairingCodes.get (pairingCodeHash a.code)) now with
    | error e => exact .error e
    | ok row =>
      simp only
      generalize hr : setPermissions s (a.grant row) = r
      generalize hr' : setPermissions { s with auditLogs := logs } (a.grant row) = r'
      have halike : Alike r r' := by
        rw [← hr, ← hr']
        exact alike_setPermissions s logs (a.grant row)
      cases halike with
      | error e => exact .error e
      | ok snapshot h =>
        obtain ⟨logs', rfl⟩ := h
        exact .ok _ ⟨_, rfl⟩

theorem alike_bootstrapFirstAdmin (now : Time) (a : Bootstrap) :
    Alike (bootstrapFirstAdmin s now a)
      (bootstrapFirstAdmin { s with auditLogs := logs } now a) := by
  simp only [bootstrapFirstAdmin, activeCommandAdminCount_logs]
  split_ifs with hadmin hcode
  · exact .error _
  · exact .error _
  · cases a.check (s.pairingCodes.get (pairingCodeHash a.normalizedCode)) now with
    | error e => exact .error e
    | ok row =>
      simp only
      split_ifs with hblocked
      · exact .error _
      · simp only [Bootstrap.promote, sameTables_ensureUser]
        exact .ok _ ⟨_, rfl⟩

theorem alike_subscribe (a : Subscribe) :
    Alike (subscribe s a) (subscribe { s with auditLogs := logs } a) := by
  have hactive : activeCommand { s with auditLogs := logs } a.platform a.openid =
      activeCommand s a.platform a.openid := rfl
  have hresolve : resolveEvent { s with auditLogs := logs } a.eventKey =
      resolveEvent s a.eventKey := rfl
  simp only [subscribe, hactive, hresolve]
  split_ifs with hact
  · cases resolveEvent s a.eventKey with
    | error e => exact .error e
    | ok event =>
      simp only
      cases requestedMatchKeys event a.matchKeys with
      | error e => exact .error e
      | ok requested =>
        simp only
        cases s.subscriptions.get (a.platform, a.openid, event.eventKey) with
        | none => exact .ok _ ⟨_, rfl⟩
        | some existing => exact .ok _ ⟨_, rfl⟩
  · exact .error _

omit [Runtime] in
theorem alike_unsubscribe (a : Unsubscribe) :
    Alike (unsubscribe s a) (unsubscribe { s with auditLogs := logs } a) := by
  have hactive : activeCommand { s with auditLogs := logs } a.platform a.openid =
      activeCommand s a.platform a.openid := rfl
  have hkey : canonicalKey { s with auditLogs := logs } a.eventKey = canonicalKey s a.eventKey :=
    rfl
  simp only [unsubscribe, hactive, hkey]
  split_ifs with hact
  · cases s.subscriptions.get (a.platform, a.openid, canonicalKey s a.eventKey) with
    | none => exact .ok _ ⟨_, rfl⟩
    | some existing => exact .ok _ ⟨_, rfl⟩
  · exact .error _

theorem alike_register (entry : ValidEntry) :
    Alike ((register s entry).map fun s => (s, ()))
      ((register { s with auditLogs := logs } entry).map fun s => (s, ())) := by
  unfold register
  cases checkSchema entry.val.payloadSchema with
  | error e => exact .error e
  | ok u =>
    simp only
    cases s.eventTypes.get entry.val.eventKey with
    | none => exact .ok _ ⟨_, rfl⟩
    | some existing =>
      simp only
      split_ifs with hversion
      · exact .error _
      · exact .ok _ ⟨_, rfl⟩

theorem alike_publish (now : Time) (a : Publish) :
    Alike (publish s now a) (publish { s with auditLogs := logs } now a) := by
  have hcheck : a.check { s with auditLogs := logs } = a.check s := rfl
  have hdeliveries : a.deliveries { s with auditLogs := logs } now = a.deliveries s now := rfl
  simp only [publish, hcheck, hdeliveries]
  cases a.check s with
  | error e => exact .error e
  | ok checked =>
    obtain ⟨eventType, fallback⟩ := checked
    simp only
    cases findExisting s.eventOccurrences a.event with
    | some existing => exact .ok _ ⟨_, rfl⟩
    | none =>
      simp only
      cases s.eventOccurrences.insert? (occurrenceOf a.event) with
      | none => exact .error _
      | some occurrences =>
        simp only
        cases s.deliveries.insertAll? (a.deliveries s now eventType fallback) with
        | none => exact .error _
        | some deliveries => exact .ok _ ⟨_, rfl⟩

/-- **A request does the same to the tables** whatever the audit log says. -/
theorem sameTables_step {n : ℕ} {s s' : Store} (h : SameTables s s') (op : Op) :
    SameTables (System.step n s op) (System.step n s' op) := by
  obtain ⟨logs, rfl⟩ := h
  have hs : SameTables s { s with auditLogs := logs } := ⟨logs, rfl⟩
  cases op with
  | setPermissions a => exact (alike_setPermissions s logs a).committed hs
  | changeRole a => exact (alike_changeRole s logs a).committed hs
  | createPairingCode now platform openid code ttl =>
    exact (alike_createPairingCode s logs now platform openid code ttl).committed hs
  | approvePairingCode now a => exact (alike_approvePairingCode s logs now a).committed hs
  | bootstrapFirstAdmin now a => exact (alike_bootstrapFirstAdmin s logs now a).committed hs
  | subscribe a => exact (alike_subscribe s logs a).committed hs
  | unsubscribe a => exact (alike_unsubscribe s logs a).committed hs
  | register entry => exact (alike_register s logs entry).committed hs
  | publish now a => exact (alike_publish s logs now a).committed hs
  | claim a => exact ⟨logs, rfl⟩
  | ack a =>
    simp only [System.step]
    cases Deliveries.Outbox.ack s.deliveries a with
    | error e => exact hs
    | ok r => exact ⟨logs, rfl⟩
  | fail a =>
    simp only [System.step]
    cases fail n s.deliveries a with
    | error e => exact hs
    | ok r => exact ⟨logs, rfl⟩
  | setAccountStatus platform openid status => exact ⟨logs, rfl⟩

end Tables

/-! ### The refinement -/

section Refinement

/-- The store after a request of `System`, or as it is if there is none. -/
def systemStep (n : ℕ) (s : Store) : Option Op → Store
  | none => s
  | some op => System.step n s op

/-- A call of a service that has returned is a request of `System`. -/
theorem exists_systemStep {n : ℕ} {s s' : Store} (op : Op)
    (h : SameTables s' (System.step n s op)) :
    ∃ op, SameTables s' (systemStep n s op) := ⟨some op, h⟩

variable [Pydantic]

/-- **An action of the application is at most one request of `System`.** -/
theorem serves (settings : Settings) (sv : State) (action : Action) : ∃ op,
    SameTables (step settings sv action).store
      (systemStep settings.deliveryMaxAttempts sv.store op) := by
  cases action with
  | upsert a =>
    refine ⟨none, ?_⟩
    simp only [step]
    cases upsert sv.publishers a <;> exact .refl _
  | tool op => exact ⟨some op.val, .refl _⟩
  | http d req =>
    simp only [step, serve]
    generalize requestId req.suppliedId d.uuid = id
    have hcases := route_cases settings sv d id req.credentials req.target
    generalize route settings sv d id req.credentials req.target = reply at hcases ⊢
    generalize req.target.kind = kind at hcases
    cases hcases with
    | failed e => exact ⟨none, .refl _⟩
    | read p => exact ⟨none, .refl _⟩
    | setPermissions a x _ h =>
      refine exists_systemStep (.setPermissions a) ?_
      simp only [System.step, committed, h]
      exact .refl _
    | changeRole a x _ h =>
      refine exists_systemStep (.changeRole a) ?_
      simp only [System.step, committed, h]
      exact .refl _
    | addSubscription a x _ h =>
      obtain ⟨y, hy, hx⟩ := addSubscription_ok h
      refine exists_systemStep
        (.subscribe ⟨a.platform, a.openid, a.body.val.eventKey, some a.body.val.matchKeys⟩) ?_
      simp only [System.step, committed, hy, hx]
      exact ⟨_, rfl⟩
    | removeSubscription a x _ h =>
      obtain ⟨y, hy, hx⟩ := removeSubscription_ok h
      refine exists_systemStep (.unsubscribe ⟨a.platform, a.openid, a.eventKey⟩) ?_
      simp only [System.step, committed, hy, hx]
      exact ⟨_, rfl⟩
    | newPairingCode platform openid x h =>
      refine exists_systemStep (.createPairingCode d.now platform openid d.code 10) ?_
      simp only [System.step, committed, h]
      exact .refl _
    | approveCode a x _ h =>
      refine exists_systemStep (.approvePairingCode d.now a) ?_
      simp only [System.step, committed, h]
      exact .refl _
    | claim a => exact exists_systemStep (.claim a) (.refl _)
    | ack a x _ h =>
      refine exists_systemStep (.ack a) ?_
      simp only [System.step, h]
      exact .refl _
    | fail a x _ h =>
      refine exists_systemStep (.fail a) ?_
      simp only [System.step, h]
      exact .refl _
    | publish c x _ h =>
      obtain ⟨publisher, event, notifyAt, published, hacc⟩ := publishEvent_ok (publishEvent_eq_ok h)
      refine exists_systemStep (.publish c.storedAt (c.publish event notifyAt)) ?_
      simp only [System.step, committed, hacc.stored]
      rw [hacc.store]
      exact ⟨published.auditLogs, rfl⟩

omit [Pydantic] in
theorem sameTables_systemStep {n : ℕ} {s s' : Store} (h : SameTables s s') (op : Option Op) :
    SameTables (systemStep n s op) (systemStep n s' op) := by
  cases op with
  | none => exact h
  | some op => exact sameTables_step h op

/-- **The application refines `System`**: up to the audit log, the store after any actions is the
one after at most one request of `System` for each of them, in the same order. -/
theorem serves_run (settings : Settings) (sv : State) (actions : List Action) :
    ∃ ops : List (Option Op), ops.length = actions.length ∧
      SameTables (run (step settings) sv actions).store
        (run (systemStep settings.deliveryMaxAttempts) sv.store ops) := by
  induction actions using List.reverseRecOn with
  | nil => exact ⟨[], rfl, .refl _⟩
  | append_singleton actions action ih =>
    obtain ⟨ops, hlength, hsame⟩ := ih
    obtain ⟨op, hop⟩ := serves settings (run (step settings) sv actions) action
    refine ⟨ops ++ [op], by simp [hlength], ?_⟩
    rw [run_concat, run_concat]
    exact hop.trans (sameTables_systemStep hsame op)

/-- What every request of `System` keeps, and no audit entry changes, every action of the
application keeps. -/
theorem invariant_step {I : Store → Prop} {settings : Settings}
    (hlogs : ∀ s s', SameTables s s' → I s → I s')
    (hstep : ∀ s op, I s → I (System.step settings.deliveryMaxAttempts s op)) {sv : State}
    (h : I sv.store) (action : Action) : I (step settings sv action).store := by
  obtain ⟨op, hop⟩ := serves settings sv action
  refine hlogs _ _ hop.symm ?_
  cases op with
  | none => exact h
  | some op => exact hstep _ op h

end Refinement

end EventServer.Api.App
