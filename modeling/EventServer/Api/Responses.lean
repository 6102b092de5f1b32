import EventServer.Api.Mediation

/-! # How requests are answered

In every state that any actions lead to, a request is answered with 200, with a status for an error
of the caller, or with 503, unless it meets one of the reasons of `InternalError`: credentials that
cannot be compared, a random code or identifier that is taken, a stored pattern that does not
compile, or a date of a publication beyond its limits (`answered`). Each audit entry of a request
names the id its response returns (`audit_traced`). -/

namespace EventServer.Api.App

open EventServer.Db EventServer.Lib EventServer.Python EventServer.System
open EventServer.Auth.Publisher EventServer.Api.Publish EventServer.Api.Subscriptions
open EventServer.Api.Bodies EventServer.Api.Server EventServer.CatalogAdmin
open EventServer.Core.Publication EventServer.Services.Accounts
open EventServer.Services.Users EventServer.Services.Pairing EventServer.Services.Subscriptions
open EventServer.Deliveries.Outbox
open EventServer.Core.Recipients (DeliveriesOfEvents deliveriesOfEvents_step)
open EventServer.Api.PublishErrors (Compiles Fresh WithinLimits)

/-! ### What the services raise -/

section Raised

variable [Runtime]

omit [Runtime] in
theorem requireAdmin_error {s : Store} {platform openid : String} {e : Raised}
    (h : requireAdmin s platform openid = .error e) :
    e = .authorizationError "operator must be an active admin with command permission" := by
  unfold requireAdmin at h
  split_ifs at h
  cases h
  rfl

omit [Runtime] in
theorem invalid_eq_nil (a : SetPermissions) (h : a.permissions.all isPermission = true) :
    a.invalid = [] := by
  unfold SetPermissions.invalid
  rw [List.filter_eq_nil_iff]
  intro p hp
  have hpermission := List.all_eq_true.mp h p hp
  simp only [isPermission, Bool.or_eq_true, decide_eq_true_eq] at hpermission
  rcases hpermission with rfl | rfl <;> simp [PermissionKey.ofString?]

theorem setPermissions_error {s : Store} {a : SetPermissions} {e : Raised}
    (hinvalid : a.invalid = []) (hne : a.permissions ≠ []) (h : setPermissions s a = .error e) :
    (∃ message, e = .authorizationError message) ∨
      a.granted = false ∧ ∃ message, e = .lastAdminError message := by
  unfold setPermissions at h
  rw [if_neg (by simp [hinvalid, hne])] at h
  cases hadmin : requireAdmin s a.platform a.operatorOpenid with
  | error e' =>
    rw [hadmin] at h
    cases h
    exact Or.inl ⟨_, requireAdmin_error hadmin⟩
  | ok u =>
    rw [hadmin] at h
    simp only at h
    split_ifs at h with hlast
    cases h
    refine Or.inr ⟨?_, _, rfl⟩
    simp only [SetPermissions.removesLast, Bool.and_eq_true, Bool.not_eq_true'] at hlast
    exact hlast.1.1.1.1.1

omit [Runtime] in
theorem changeRole_error {s : Store} {a : ChangeRole} {e : Raised}
    (hrole : a.role = "user" ∨ a.role = "admin") (h : changeRole s a = .error e) :
    (∃ message, e = .authorizationError message) ∨ ∃ message, e = .lastAdminError message := by
  obtain ⟨role, hsome⟩ : ∃ role, Role.ofString? a.role = some role := by
    rcases hrole with hr | hr <;> rw [hr] <;> exact ⟨_, rfl⟩
  unfold changeRole at h
  rw [hsome] at h
  cases hadmin : requireAdmin s a.platform a.operatorOpenid with
  | error e' =>
    rw [hadmin] at h
    cases h
    exact Or.inl ⟨_, requireAdmin_error hadmin⟩
  | ok u =>
    rw [hadmin] at h
    simp only at h
    split_ifs at h
    cases h
    exact Or.inr ⟨_, rfl⟩

theorem createPairingCode_error {s : Store} {now : Time} {platform openid code : String} {ttl : ℤ}
    {e : Raised} (h : createPairingCode s now platform openid code ttl = .error e) :
    ∃ row, s.pairingCodes.get (pairingCodeHash code) = some row := by
  simp only [createPairingCode] at h
  split at h
  · rename_i hinsert
    rcases Table.insert?_eq_none.mp hinsert with ⟨row, hrow, hkey⟩ | ⟨row, hrow, hkey⟩
    · exact ⟨row, Table.get_eq_some.mpr ⟨hrow, hkey⟩⟩
    · exact ⟨row, Table.get_eq_some.mpr ⟨hrow, hkey⟩⟩
  · cases h

theorem approvePairingCode_error {s : Store} {now : Time} {a : Approve} {e : Raised}
    (hvalid : a.permissions.all isPermission = true) (hne : a.permissions ≠ [])
    (h : approvePairingCode s now a = .error e) :
    (∃ message, e = .authorizationError message) ∨ ∃ message, e = .pairingCodeError message := by
  unfold approvePairingCode at h
  cases hadmin : requireAdmin s a.platform a.operatorOpenid with
  | error e' =>
    rw [hadmin] at h
    cases h
    exact Or.inl ⟨_, requireAdmin_error hadmin⟩
  | ok u =>
    rw [hadmin] at h
    simp only at h
    cases hcheck : a.check (s.pairingCodes.get (pairingCodeHash a.code)) now with
    | error e' =>
      rw [hcheck] at h
      cases h
      unfold Approve.check at hcheck
      split at hcheck
      · cases hcheck
        exact Or.inr ⟨_, rfl⟩
      · split_ifs at hcheck
        · cases hcheck
          exact Or.inr ⟨_, rfl⟩
        · cases hcheck
          exact Or.inr ⟨_, rfl⟩
    | ok row =>
      rw [hcheck] at h
      simp only at h
      cases hset : setPermissions s (a.grant row) with
      | ok x =>
        rw [hset] at h
        cases h
      | error e' =>
        rw [hset] at h
        cases h
        rcases setPermissions_error (invalid_eq_nil (a.grant row) hvalid) hne hset with hauth |
          ⟨hgranted, -⟩
        · exact Or.inl hauth
        · cases hgranted

omit [Runtime] in
theorem resolveEvent_error {s : Store} {eventKey : String} {e : Raised}
    (h : resolveEvent s eventKey = .error e) : e = .eventNotFoundError eventKey := by
  simp only [resolveEvent] at h
  split at h
  · cases h
    rfl
  · split_ifs at h
    cases h
    rfl

theorem requestedMatchKeys_error {event : EventType} {matchKeys : Option (List String)} {e : Raised}
    (h : requestedMatchKeys event matchKeys = .error e) :
    ∃ message, e = .invalidMatchKeyError message := by
  unfold requestedMatchKeys at h
  split at h
  · cases h
    exact ⟨_, rfl⟩
  · split at h
    · cases h
      exact ⟨_, rfl⟩
    · split_ifs at h
      cases h
      exact ⟨_, rfl⟩

theorem subscribe_error {s : Store} {a : Subscribe} {e : Raised} (h : subscribe s a = .error e) :
    (∃ message, e = .authorizationError message) ∨ (∃ key, e = .eventNotFoundError key) ∨
      ∃ message, e = .invalidMatchKeyError message := by
  unfold subscribe at h
  split_ifs at h
  · cases hresolve : resolveEvent s a.eventKey with
    | error e' =>
      rw [hresolve] at h
      cases h
      exact Or.inr (Or.inl ⟨_, resolveEvent_error hresolve⟩)
    | ok event =>
      rw [hresolve] at h
      simp only at h
      cases hkeys : requestedMatchKeys event a.matchKeys with
      | error e' =>
        rw [hkeys] at h
        cases h
        exact Or.inr (Or.inr (requestedMatchKeys_error hkeys))
      | ok requested =>
        rw [hkeys] at h
        simp only at h
        split at h <;> cases h
  · cases h
    exact Or.inl ⟨_, rfl⟩

omit [Runtime] in
theorem unsubscribe_error {s : Store} {a : Unsubscribe} {e : Raised}
    (h : unsubscribe s a = .error e) :
    ∃ message, e = .authorizationError message := by
  unfold unsubscribe at h
  split_ifs at h
  · simp only at h
    split at h <;> cases h
  · cases h
    exact ⟨_, rfl⟩

theorem leased_error {t : Deliveries} {deliveryId token : String} {now : Time} {e : Raised}
    (h : leased t deliveryId token now = .error e) :
    ∃ message, e = .leaseConflictError message := by
  unfold leased at h
  split at h
  · cases h
    exact ⟨_, rfl⟩
  · split_ifs at h
    cases h
    exact ⟨_, rfl⟩

theorem ack_error {t : Deliveries} {a : Ack} {e : Raised}
    (h : Deliveries.Outbox.ack t a = .error e) :
    ∃ message, e = .leaseConflictError message := by
  unfold Deliveries.Outbox.ack at h
  split at h
  · rename_i e' hleased
    cases h
    exact leased_error hleased
  · cases h

theorem fail_error {n : ℕ} {t : Deliveries} {a : Fail} {e : Raised} (h : fail n t a = .error e) :
    ∃ message, e = .leaseConflictError message := by
  unfold fail at h
  split at h
  · rename_i e' hleased
    cases h
    exact leased_error hleased
  · cases h

end Raised

/-! ### Statuses -/

/-- An error of the caller, or 503. -/
def isRefusal (status : ℕ) : Bool := (400 ≤ status && status < 500) || status = 503

/-- The characters a text must consist of to be compared by `compare_digest`. -/
def isAscii (value : String) : Bool := value.toList.all (·.toNat < 128)

variable [Runtime]

section Explained

variable [Pydantic]

/-- The request is a publication of `body` by `publisher`, who may publish its event. -/
structure Submits (sv : State) (d : Draw) (req : Request) (publisher : EventPublisher)
    (body : ValidRequest) : Prop where
  requested : ∃ fields, req.target = .publishEvent (.json (.obj fields)) ∧
    validRequest fields = some body
  authenticated :
    requirePublisherAuth (enabledRows sv.publishers d.order) req.credentials = .ok publisher
  allowed : mayPublish publisher body.val.eventKey = true

/-- What can go wrong with a request. -/
inductive InternalError (settings : Settings) (sv : State) (d : Draw) (req : Request) : Prop
  /-- A text that `compare_digest` does not take is compared with the internal token. -/
  | credentials (c : Credentials) (h : req.credentials = some c) (hbearer : c.isBearer = true)
    (hservice : req.target.isOpen = false ∧ req.target.kind ≠ .publish)
    (hascii : ¬ (isAscii c.credentials = true ∧ isAscii settings.internalApiToken = true))
  /-- The random pairing code is stored already. -/
  | code (hkind : req.target.kind = .pairingCode)
    (h : ∃ row, sv.store.pairingCodes.get (pairingCodeHash d.code) = some row)
  /-- A pattern in the schema of the event does not compile. -/
  | schema (publisher : EventPublisher) (body : ValidRequest)
      (hreq : Submits sv d req publisher body)
    (h : ¬ Compiles sv.store body.val)
  /-- A random identifier of the publication is taken. -/
  | identifiers (publisher : EventPublisher) (body : ValidRequest)
    (hreq : Submits sv d req publisher body)
    (h : ¬ Fresh sv.store (publishOf d (requestId req.suppliedId d.uuid) req.credentials body))
  /-- A date of the publication has no offset or is beyond its limits. -/
  | dates (publisher : EventPublisher) (body : ValidRequest)
      (hreq : Submits sv d req publisher body)
    (h : ¬ WithinLimits settings.publishing
      (publishOf d (requestId req.suppliedId d.uuid) req.credentials body))

/-- A failure that refuses the request, or with one of the reasons for 500. -/
def Explained (settings : Settings) (sv : State) (d : Draw) (req : Request) (e : Failure) : Prop :=
  isRefusal (respond "" (.error e)).status = true ∨
    (respond "" (.error e)).status = 500 ∧ InternalError settings sv d req

omit [Runtime] [Pydantic] in
theorem status_respond (id id' : String) (result : Except Failure Payload) :
    (respond id result).status = (respond id' result).status := by
  unfold respond
  split <;> rfl

variable {settings : Settings} {sv : State} {d : Draw} {req : Request}

theorem explained_http {status : ℕ} {detail : String} (h : isRefusal status = true) :
    Explained settings sv d req (.httpException status detail) := Or.inl h

theorem explained_validation : Explained settings sv d req .requestValidationError :=
  Or.inl (by decide : isRefusal 422 = true)

theorem explained_body {body : Body} {e : Failure} (h : readBody body = .error e) :
    Explained settings sv d req e := by
  cases body with
  | json value => cases h
  | invalidJson => cases h; exact explained_validation
  | unreadable => cases h; exact explained_http (by decide)

omit [Runtime] [Pydantic] in
theorem compareDigest_error {a b : String} {e : Failure} (h : compareDigest a b = .error e) :
    e = .unhandled .typeError ∧ ¬ (isAscii a = true ∧ isAscii b = true) := by
  unfold compareDigest at h
  split_ifs at h with hascii
  cases h
  refine ⟨rfl, fun hand => hascii ?_⟩
  rw [Bool.and_eq_true]
  exact hand

theorem explained_auth {e : Failure}
    (hservice : req.target.isOpen = false ∧ req.target.kind ≠ .publish)
    (h : requireServiceAuth settings req.credentials = .error e) :
    Explained settings sv d req e := by
  unfold requireServiceAuth at h
  split_ifs at h with htoken
  · cases h
    exact explained_http (by decide)
  · cases hc : req.credentials with
    | none =>
      rw [hc] at h
      cases h
      exact explained_http (by decide)
    | some c =>
      rw [hc] at h
      simp only at h
      split_ifs at h with hb
      · cases hcompare : compareDigest c.credentials settings.internalApiToken with
        | error e' =>
          rw [hcompare] at h
          cases h
          obtain ⟨rfl, hascii⟩ := compareDigest_error hcompare
          exact Or.inr ⟨rfl, .credentials c hc hb hservice hascii⟩
        | ok equal =>
          rw [hcompare] at h
          cases equal with
          | true => cases h
          | false =>
            cases h
            exact explained_http (by decide)
      · cases h
        exact explained_http (by decide)

omit [Runtime] [Pydantic] in
theorem validated_error {α : Type} {ofJson : JsonObject → Option α} {value : Json} {e : Failure}
    (h : validated ofJson value = .error e) : e = .requestValidationError := by
  unfold validated at h
  split at h
  · split at h
    · cases h
    · cases h
      rfl
  · cases h
    rfl

/-- Every failure of a reply is explained. -/
def AllExplained (settings : Settings) (sv : State) (d : Draw) (req : Request)
    (reply : Reply) : Prop :=
  ∀ e, reply.2 = .error e → Explained settings sv d req e

theorem allExplained_ok {sv' : State} {p : Payload} :
    AllExplained settings sv d req (sv', .ok p) := by
  intro e he
  cases he

theorem allExplained_authenticated {endpoint : Reply}
    (hservice : req.target.isOpen = false ∧ req.target.kind ≠ .publish)
    (h : AllExplained settings sv d req endpoint) :
    AllExplained settings sv d req (authenticated settings sv req.credentials endpoint) := by
  unfold authenticated
  cases hauth : requireServiceAuth settings req.credentials with
  | error e =>
    intro e' he
    cases he
    exact explained_auth hservice hauth
  | ok u => exact h

theorem allExplained_withBody {α : Type} {body : Body} {ofJson : JsonObject → Option α}
    {endpoint : α → Reply} (hservice : req.target.isOpen = false ∧ req.target.kind ≠ .publish)
    (h : ∀ a, AllExplained settings sv d req (endpoint a)) :
    AllExplained settings sv d req (withBody settings sv req.credentials body ofJson endpoint) := by
  unfold withBody
  cases hbody : readBody body with
  | error e =>
    intro e' he
    cases he
    exact explained_body hbody
  | ok value =>
    refine allExplained_authenticated hservice ?_
    cases hvalue : validated ofJson value with
    | ok a => exact h a
    | error e =>
      intro e' he
      cases he
      rw [validated_error hvalue]
      exact explained_validation

theorem allExplained_ended {ε α : Type} {handler : ε → Failure} {answer : α → Payload}
    {r : Except ε (Store × α)} (h : ∀ e, r = .error e → Explained settings sv d req (handler e)) :
    AllExplained settings sv d req (ended sv handler answer r) := by
  unfold ended
  cases r with
  | ok x => exact allExplained_ok
  | error e =>
    intro e' he
    cases he
    exact h e rfl

/-! ### Each route -/

theorem explained_setPermission {id openid platform : String} {granted : Bool}
    (body : { body : PermissionChangeRequest // body.valid = true }) :
    AllExplained settings sv d req (setPermission sv id openid body granted platform) := by
  have hvalid := body.property
  unfold PermissionChangeRequest.valid at hvalid
  simp only [Bool.and_eq_true, decide_eq_true_eq] at hvalid
  obtain ⟨⟨hne, hall⟩, -⟩ := hvalid
  refine allExplained_ended fun e he => ?_
  rcases setPermissions_error (invalid_eq_nil _ hall) hne he with ⟨message, rfl⟩ | ⟨-, message, rfl⟩
  · exact explained_http (by decide)
  · exact explained_http (by decide)

theorem explained_updateRole {a : ChangeRole} (hrole : a.role = "user" ∨ a.role = "admin") :
    AllExplained settings sv d req (ended sv usersHandler .permission (changeRole sv.store a)) := by
  refine allExplained_ended fun e he => ?_
  rcases changeRole_error hrole he with ⟨message, rfl⟩ | ⟨message, rfl⟩
  · exact explained_http (by decide)
  · exact explained_http (by decide)

theorem explained_addSubscription (a : AddSubscription) : AllExplained settings sv d req
    (ended sv apiHandler .subscription (Subscriptions.addSubscription sv.store a)) := by
  refine allExplained_ended fun e he => ?_
  unfold Subscriptions.addSubscription at he
  cases hsubscribe : subscribe sv.store
      ⟨a.platform, a.openid, a.body.val.eventKey, some a.body.val.matchKeys⟩ with
  | ok y =>
    rw [hsubscribe] at he
    cases he
  | error e' =>
    rw [hsubscribe] at he
    rcases subscribe_error hsubscribe with ⟨message, rfl⟩ | ⟨key, rfl⟩ | ⟨message, rfl⟩
    · cases he
      exact explained_http (by decide)
    · cases he
      exact explained_http (by decide)
    · cases he
      exact explained_http (by decide)

theorem explained_removeSubscription (a : RemoveSubscription) : AllExplained settings sv d req
    (ended sv apiHandler .deleteSubscription (Subscriptions.removeSubscription sv.store a)) := by
  refine allExplained_ended fun e he => ?_
  unfold Subscriptions.removeSubscription at he
  cases hunsubscribe : unsubscribe sv.store ⟨a.platform, a.openid, a.eventKey⟩ with
  | ok y =>
    rw [hunsubscribe] at he
    cases he
  | error e' =>
    rw [hunsubscribe] at he
    obtain ⟨message, rfl⟩ := unsubscribe_error hunsubscribe
    cases he
    exact explained_http (by decide)

theorem explained_approveCode {now : Time} {a : Approve}
    (hvalid : a.permissions.all isPermission = true) (hne : a.permissions ≠ []) :
    AllExplained settings sv d req
      (ended sv pairingHandler .permission (approvePairingCode sv.store now a)) := by
  refine allExplained_ended fun e he => ?_
  rcases approvePairingCode_error hvalid hne he with ⟨message, rfl⟩ | ⟨message, rfl⟩
  · exact explained_http (by decide)
  · exact explained_http (by decide)

theorem explained_report {r : Except Raised (Deliveries × Delivery)}
    (h : ∀ e, r = .error e → ∃ message, e = .leaseConflictError message) :
    AllExplained settings sv d req (ended sv deliveriesHandler
      (fun row => .status (deliveryStatus row))
      (r.map fun x => ({ sv.store with deliveries := x.1 }, x.2))) := by
  refine allExplained_ended fun e he => ?_
  cases r with
  | ok x => cases he
  | error e' =>
    obtain ⟨message, rfl⟩ := h e' rfl
    cases he
    exact explained_http (by decide)

omit [Runtime] [Pydantic] in
/-- Every event type can be listed. -/
def Listable (s : Store) : Prop := ∀ item ∈ s.eventTypes, ∃ r, eventResponse item = some r

omit [Runtime] [Pydantic] in
theorem listEvents_ok {s : Store} (h : Listable s) :
    ∃ items, listEvents s = .ok (.events items) := by
  have hall : ∃ items, ((s.eventTypes.rows.filter (·.enabled)).insertionSort fun a b =>
      a.eventKey ≤ b.eventKey).mapM eventResponse = some items := by
    refine exists_mapM fun item hitem => ?_
    rw [List.mem_insertionSort, List.mem_filter] at hitem
    exact h item hitem.1
  obtain ⟨items, hitems⟩ := hall
  refine ⟨items, ?_⟩
  unfold listEvents
  rw [hitems]

omit [Pydantic] in
theorem publishHandler_status {s : Store} {publishers : EventPublishers} {c : Publish.Call}
    {e : PublishErrors.Failure}
    (h : PublishErrors.publishEvent settings.publishing publishers s c = .error e) :
    isRefusal (respond "" (.error (publishHandler e))).status = true ∨
      (respond "" (.error (publishHandler e))).status = 500 := by
  unfold PublishErrors.publishEvent at h
  split at h
  · rename_i e' hauth
    have he' := requirePublisherAuth_error hauth
    subst he'
    cases h
    exact Or.inl rfl
  · split_ifs at h
    · split at h
      · rename_i e' hdomain
        cases h
        unfold PublishErrors.domainEvent Publish.Call.event at hdomain
        split at hdomain
        · rename_i hevent
          split at hevent
          · cases hevent
            cases hdomain
            exact Or.inr rfl
          · cases hevent
        · split_ifs at hdomain
          cases hdomain
          exact Or.inr rfl
      · split at h
        · rename_i hresolve
          cases h
          rcases PublishErrors.resolveNotifyAt_cases c.body.val.notifyTime settings.publishing c.now
            with ⟨hover, -⟩ | ⟨-, ⟨at', hok⟩ | hbeyond⟩
          · rw [hover] at hresolve
            cases hresolve
            exact Or.inr rfl
          · rw [hok] at hresolve
            cases hresolve
          · rw [hbeyond] at hresolve
            cases hresolve
            exact Or.inl rfl
        · split at h
          · cases h
            exact Or.inl rfl
          · cases h
            exact Or.inr rfl
          · cases h
    · cases h
      exact Or.inl rfl

theorem explained_expected {publisher : EventPublisher} {c : Publish.Call} {s : Store}
    {e : PublishErrors.Failure}
    (h : PublishErrors.Expected publisher s c (s, .error e)) :
    Explained settings sv d req (publishHandler e) := by
  cases h with
  | refused hstatus =>
    refine explained_http ?_
    simp [isRefusal, hstatus]

theorem explained_publish {body : Body} (htarget : req.target = .publishEvent body)
    (hrefs : DeliveriesOfEvents sv.store) : AllExplained settings sv d req
      (publishRoute settings sv d (requestId req.suppliedId d.uuid) req.credentials body) := by
  unfold publishRoute
  cases hbody : readBody body with
  | error e =>
    intro e' he
    cases he
    exact explained_body hbody
  | ok value =>
    simp only
    cases hauth : requirePublisherAuth (enabledRows sv.publishers d.order) req.credentials with
    | error e =>
      intro e' he
      have he' := requirePublisherAuth_error hauth
      subst he'
      cases he
      exact explained_http (by decide)
    | ok publisher =>
      simp only
      cases hvalue : validated validRequest value with
      | error e =>
        intro e' he
        cases he
        rw [validated_error hvalue]
        exact explained_validation
      | ok request =>
        refine allExplained_ended fun e he => ?_
        rcases publishHandler_status he with hexpected | h500
        · exact Or.inl hexpected
        set c := publishOf d (requestId req.suppliedId d.uuid) req.credentials request
        by_cases hmay : mayPublish publisher request.val.eventKey = true
        · obtain ⟨fields, rfl, hfields⟩ := body_of_validated hbody hvalue
          have hreq : Submits sv d req publisher request :=
            ⟨⟨fields, htarget, hfields⟩, hauth, hmay⟩
          by_cases hcompiles : Compiles sv.store request.val
          · by_cases hfresh : Fresh sv.store c
            · have hserved : PublishErrors.served settings.publishing sv.publishers sv.store c =
                  (sv.store, .error e) := by
                unfold PublishErrors.served
                rw [he]
              rcases PublishErrors.served_cases settings.publishing hauth hcompiles
                hrefs hfresh with
                ⟨-, hnot, -⟩ | ⟨-, hexpected⟩
              · exact Or.inr ⟨h500, .dates publisher request hreq hnot⟩
              · rw [hserved] at hexpected
                exact explained_expected hexpected
            · exact Or.inr ⟨h500, .identifiers publisher request hreq hfresh⟩
          · exact Or.inr ⟨h500, .schema publisher request hreq hcompiles⟩
        · -- the publisher may not publish the event
          have hforbidden : PublishErrors.publishEvent settings.publishing
              sv.publishers sv.store c = .error
              (.api (.http 403 "publisher is not authorized for this event key")) := by
            unfold PublishErrors.publishEvent
            rw [show requirePublisherAuth (enabledRows sv.publishers c.order) c.credentials =
              .ok publisher from hauth]
            exact if_neg hmay
          rw [hforbidden] at he
          cases he
          exact explained_http (by decide)

/-- What the answers rely on: messages are objects, event types can be listed, deliveries are of
events. -/
structure Sound (s : Store) : Prop where
  messages : ObjectMessages s
  listable : Listable s
  references : DeliveriesOfEvents s

theorem explained_claim (h : ObjectMessages sv.store)
    (body : { body : DeliveryClaimRequest // body.valid = true }) :
    AllExplained settings sv d req (claimDeliveries settings sv d body) := by
  obtain ⟨responses, hok⟩ := claimResult_ok fun x (hx : x ∈ (claim sv.store.deliveries
    (claimOf settings d body.val)).2) => mem_claimed_message h hx
  intro e he
  have hresult : (claimDeliveries settings sv d body).2 =
      claimResult (claim sv.store.deliveries (claimOf settings d body.val)).2 := rfl
  rw [hresult, hok] at he
  cases he

/-- **Every failure refuses the request, or has one of the reasons for 500.** -/
theorem route_explained (h : Sound sv.store) : AllExplained settings sv d req
    (route settings sv d (requestId req.suppliedId d.uuid) req.credentials req.target) := by
  have hservice : ∀ {target}, req.target = target →
      (target.isOpen = false ∧ target.kind ≠ .publish) →
        req.target.isOpen = false ∧ req.target.kind ≠ .publish := by
    rintro _ rfl h
    exact h
  cases htarget : req.target with
  | health => exact allExplained_ok
  | ready reachable =>
    cases reachable with
    | true => exact allExplained_ok
    | false =>
      intro e he
      cases he
      exact explained_http (by decide)
  | unmatched methodNotAllowed =>
    intro e he
    cases he
    cases methodNotAllowed <;> exact Or.inl rfl
  | metrics => exact allExplained_authenticated (hservice htarget ⟨rfl, nofun⟩) allExplained_ok
  | listEvents =>
    refine allExplained_authenticated (hservice htarget ⟨rfl, nofun⟩) ?_
    obtain ⟨items, hitems⟩ := listEvents_ok h.listable
    rw [hitems]
    exact allExplained_ok
  | getPermission openid platform =>
    exact allExplained_authenticated (hservice htarget ⟨rfl, nofun⟩) allExplained_ok
  | getSubscriptions openid platform =>
    exact allExplained_authenticated (hservice htarget ⟨rfl, nofun⟩) allExplained_ok
  | grantPermissions openid platform body =>
    exact allExplained_withBody (hservice htarget ⟨rfl, nofun⟩) fun body =>
      explained_setPermission body
  | revokePermissions openid platform body =>
    exact allExplained_withBody (hservice htarget ⟨rfl, nofun⟩) fun body =>
      explained_setPermission body
  | updateRole openid platform body =>
    refine allExplained_withBody (hservice htarget ⟨rfl, nofun⟩) fun body => explained_updateRole ?_
    have hvalid := body.property
    unfold RoleChangeRequest.valid at hvalid
    simp only [Bool.and_eq_true, Bool.or_eq_true, decide_eq_true_eq] at hvalid
    exact hvalid.1
  | addSubscription openid platform body =>
    exact allExplained_withBody (hservice htarget ⟨rfl, nofun⟩) fun body =>
      explained_addSubscription _
  | removeSubscription openid eventKey platform =>
    exact allExplained_authenticated (hservice htarget ⟨rfl, nofun⟩)
      (explained_removeSubscription _)
  | newPairingCode body =>
    refine allExplained_withBody (hservice htarget ⟨rfl, nofun⟩) fun body =>
      allExplained_ended fun e he => ?_
    have hkind : req.target.kind = .pairingCode := by rw [htarget]; rfl
    exact Or.inr ⟨rfl, .code hkind (createPairingCode_error he)⟩
  | approveCode code body =>
    refine allExplained_withBody (hservice htarget ⟨rfl, nofun⟩) fun body => ?_
    have hvalid := body.property
    unfold PairingApproveRequest.valid at hvalid
    simp only [Bool.and_eq_true, decide_eq_true_eq] at hvalid
    exact explained_approveCode hvalid.1.2 hvalid.1.1
  | claimDeliveries body =>
    exact allExplained_withBody (hservice htarget ⟨rfl, nofun⟩) fun body =>
      explained_claim h.messages body
  | ackDelivery deliveryId body =>
    exact allExplained_withBody (hservice htarget ⟨rfl, nofun⟩) fun body =>
      explained_report fun e he => ack_error he
  | failDelivery deliveryId body =>
    exact allExplained_withBody (hservice htarget ⟨rfl, nofun⟩) fun body =>
      explained_report fun e he => fail_error he
  | publishEvent body =>
    exact explained_publish htarget h.references

end Explained

/-! ### The audit trail -/

section Audit

omit [Runtime] in
/-- The routes whose success leaves an audit entry. -/
def Kind.audited : Kind → Bool
  | .permissions | .role | .subscribe | .unsubscribe | .approve | .publish => true
  | .read | .pairingCode | .claim | .ack | .fail => false

theorem audit_publishEvent {settings : Publish.Settings} {publishers : EventPublishers} {s : Store}
    {c : Publish.Call} {x : Store × PublishEventResponse}
    (h : PublishErrors.publishEvent settings publishers s c = .ok x) :
    ∃ entry, x.1.auditLogs = s.auditLogs ++ [entry] ∧ entry.requestId = c.requestId := by
  unfold PublishErrors.publishEvent at h
  split at h
  · cases h
  · rename_i publisher hauth
    split_ifs at h
    split at h
    · cases h
    · split at h
      · cases h
      · rename_i notifyAt hnotify
        split at h
        · cases h
        · cases h
        · rename_i published result hpublish
          cases h
          have hlogs : published.auditLogs = s.auditLogs := by
            cases publish_ok hpublish with
            | existing => rfl
            | created eventType fallback _ _ _ _ hs => rw [hs]
          exact ⟨c.audit publisher result notifyAt, by rw [hlogs], rfl⟩

omit [Runtime] in
/-- The reply adds one entry to the audit log if the route is audited and answers, and none
otherwise; the entry names the request. -/
def Trail (logs : List AuditLog) (id : String) (kind : Kind) (reply : Reply) : Prop :=
  ∃ entries, reply.1.store.auditLogs = logs ++ entries ∧
    (∀ entry ∈ entries, entry.requestId = some id) ∧
    entries.length = if kind.audited && reply.2.isOk then 1 else 0

section Trail

variable {logs : List AuditLog} {id : String} {kind : Kind} {reply : Reply}

omit [Runtime] in
theorem trail_none (hlogs : reply.1.store.auditLogs = logs)
    (h : (kind.audited && reply.2.isOk) = false) : Trail logs id kind reply :=
  ⟨[], by rw [hlogs, List.append_nil], by simp, by simp [h]⟩

omit [Runtime] in
theorem trail_one (entry : AuditLog) (hlogs : reply.1.store.auditLogs = logs ++ [entry])
    (hid : entry.requestId = some id) (h : (kind.audited && reply.2.isOk) = true) :
    Trail logs id kind reply :=
  ⟨[entry], hlogs, by simpa using hid, by simp [h]⟩

end Trail

theorem Served.trail {settings : Settings} {sv : State} {d : Draw} {id : String} {kind : Kind}
    {reply : Reply} (h : Served settings sv d id kind reply) :
    Trail sv.store.auditLogs id kind reply := by
  cases h with
  | failed e => exact trail_none rfl (Bool.and_false _)
  | read p => exact trail_none rfl rfl
  | newPairingCode platform openid x hx =>
    obtain ⟨codes, -, hs, -⟩ := createPairingCode_ok hx
    exact trail_none (by rw [hs]) rfl
  | claim a => exact trail_none rfl rfl
  | ack a x => exact trail_none rfl rfl
  | fail a x => exact trail_none rfl rfl
  | setPermissions a x hid hx =>
    obtain ⟨-, -, hs⟩ := setPermissions_ok hx
    refine trail_one a.audit ?_ hid rfl
    rw [hs, applyPermissions_eq]
  | changeRole a x hid hx =>
    obtain ⟨role, -, -, hs⟩ := changeRole_ok hx
    exact trail_one a.audit (by rw [hs]; rfl) hid rfl
  | approveCode a x hid hx =>
    obtain ⟨row, snapshot, -, -, hs⟩ := approvePairingCode_ok hx
    refine trail_one (a.grant row).audit ?_ hid rfl
    rw [hs, applyPermissions_eq]
  | addSubscription a x hid hx =>
    obtain ⟨y, hy, hs⟩ := addSubscription_ok hx
    obtain ⟨_, _, -, -, -, hstore, -⟩ := subscribe_ok hy
    exact trail_one (a.audit y.2) (by rw [hs, hstore]) hid rfl
  | removeSubscription a x hid hx =>
    obtain ⟨y, hy, hs⟩ := removeSubscription_ok hx
    refine trail_one (a.audit y.2) ?_ hid rfl
    rw [hs]
    rcases unsubscribe_ok hy with hstore | ⟨_, hstore⟩ <;> rw [hstore]
  | publish c x hid hx =>
    obtain ⟨entry, hlogs, hentry⟩ := audit_publishEvent hx
    exact trail_one entry hlogs (hentry.trans hid) rfl

omit [Runtime] in
theorem length_requestId {supplied uuid : String} (h : uuid.length = 36) :
    (requestId supplied uuid).length ≤ 64 := by
  unfold requestId
  split_ifs
  · omega
  · rw [String.length_ofList, List.length_take]
    exact Nat.min_le_left _ _

end Audit

/-! ### Runs -/

omit [Runtime] in
theorem matchKeyOption_modelDump {o : MatchKeyOption}
    (h : 1 ≤ o.key.length ∧ o.key.length ≤ 64 ∧ o.key.toList.all Core.MatchKeys.isMatchKeyChar ∧
      1 ≤ o.label.length ∧ o.label.length ≤ 100) : matchKeyOption o.modelDump = some o := by
  have hkey : strField [("key", Json.str o.key), ("label", .str o.label)] "key" = some o.key := rfl
  have hlabel : strField [("key", Json.str o.key), ("label", .str o.label)] "label" =
      some o.label := rfl
  simp only [matchKeyOption, MatchKeyOption.modelDump, hkey, hlabel]
  rw [if_pos h]

omit [Runtime] in
theorem eventResponse_writeEntry (existing : EventType) (entry : ValidEntry) :
    ∃ r, eventResponse (writeEntry existing entry.val) = some r := by
  have hvalid := entry.property
  simp only [CatalogEntry.valid, CatalogEntry.fieldsValid, Bool.and_eq_true,
    List.all_eq_true] at hvalid
  have hoptions : ∃ options, (entry.val.matchKeyOptions.map MatchKeyOption.modelDump).mapM
      matchKeyOption = some options := by
    refine exists_mapM fun value hvalue => ?_
    obtain ⟨o, ho, rfl⟩ := List.mem_map.mp hvalue
    have hfields := hvalid.1.2 o ho
    simp only [decide_eq_true_eq] at hfields
    obtain ⟨⟨⟨⟨hkey, hkey'⟩, hchars⟩, hlabel⟩, hlabel'⟩ := hfields
    exact ⟨o, matchKeyOption_modelDump ⟨hkey, hkey', List.all_eq_true.mpr hchars, hlabel, hlabel'⟩⟩
  obtain ⟨options, hoptions⟩ := hoptions
  simp only [eventResponse, writeEntry, hoptions]
  exact ⟨_, rfl⟩

theorem listable_step {n : ℕ} (s : Store) (op : Op) (h : Listable s) :
    Listable (System.step n s op) := by
  have hsame : ∀ {s' : Store}, s'.eventTypes = s.eventTypes → Listable s' := by
    intro s' hs
    unfold Listable
    rw [hs]
    exact h
  rcases op.on_cases with ha | hc | ho
  · exact hsame (sameEvents_step s ha).eventTypes
  · cases op with
    | register entry =>
      refine committed_cases (P := Listable) h fun r hr => ?_
      obtain ⟨existing, -, hs⟩ := register_ok (registered_ok hr)
      rw [hs]
      intro item hitem
      rcases Table.mem_put.mp hitem with rfl | ⟨hitem, -⟩
      · exact eventResponse_writeEntry existing entry
      · exact h item hitem
    | subscribe a =>
      refine committed_cases (P := Listable) h fun r hr => ?_
      obtain ⟨_, _, -, -, -, hs, -⟩ := subscribe_ok hr
      exact hsame (by rw [hs])
    | unsubscribe a =>
      refine committed_cases (P := Listable) h fun r hr => ?_
      rcases unsubscribe_ok hr with hs | ⟨_, hs⟩ <;> exact hsame (by rw [hs])
    | setPermissions | changeRole | createPairingCode | approvePairingCode | bootstrapFirstAdmin
    | publish | claim | ack | fail | setAccountStatus => cases hc
  · exact hsame (sameCatalog_step s ho).eventTypes

theorem sound_step {n : ℕ} (s : Store) (op : Op) (h : Sound s) : Sound (System.step n s op) :=
  ⟨objectMessages_step s op h.messages, listable_step s op h.listable,
    deliveriesOfEvents_step h.references op⟩

variable [Pydantic]

theorem sound_run (settings : Settings) {sv : State} (h : Sound sv.store) (actions : List Action) :
    Sound (run (step settings) sv actions).store := by
  refine run_invariant_all (I := fun sv : State => Sound sv.store) (fun sv action h => ?_) h actions
  refine invariant_step (fun s s' hs hsound => ?_) sound_step h action
  obtain ⟨logs, rfl⟩ := hs
  exact ⟨hsound.messages, hsound.listable, hsound.references⟩

/-- A reply is answered with 200 exactly if it is a payload. -/
theorem status_iff_isOk {settings : Settings} {sv : State} {d : Draw} {req : Request} {id : String}
    {reply : Reply} (h : AllExplained settings sv d req reply) :
    (respond id reply.2).status = 200 ↔ reply.2.isOk = true := by
  cases hresult : reply.2 with
  | ok p => exact iff_of_true rfl rfl
  | error e =>
    refine iff_of_false (fun h200 => ?_) (by simp [Except.isOk, Except.toBool])
    rw [status_respond id ""] at h200
    rcases h e hresult with hrefusal | ⟨h500, -⟩
    · rw [h200] at hrefusal
      exact absurd hrefusal (by decide)
    · rw [h200] at h500
      exact absurd h500 (by decide)

/-- **Every request is answered**: in every state that any actions lead to, with 200, an error of
the caller or 503, unless it meets one of the reasons for an internal error. -/
theorem answered (settings : Settings) {sv₀ : State} (h₀ : Sound sv₀.store) (actions : List Action)
    (d : Draw) (req : Request) :
    (serve settings (run (step settings) sv₀ actions) d req).2.status = 200 ∨
      isRefusal (serve settings (run (step settings) sv₀ actions) d req).2.status = true ∨
      (serve settings (run (step settings) sv₀ actions) d req).2.status = 500 ∧
        InternalError settings (run (step settings) sv₀ actions) d req := by
  have hsound := sound_run settings h₀ actions
  generalize run (step settings) sv₀ actions = sv at hsound ⊢
  have hroute : AllExplained settings sv d req _ :=
    route_explained hsound
  simp only [serve]
  cases hresult : (route settings sv d (requestId req.suppliedId d.uuid) req.credentials
      req.target).2 with
  | ok p => exact Or.inl rfl
  | error e =>
    rw [status_respond _ ""]
    exact Or.inr (hroute e hresult)

/-- **The audit trail**: in every state that any actions lead to, a request adds one entry to the
audit log if its route is audited and the response is 200, and none otherwise; the entry names the
id that the response returns, which fits the column of 64 characters. -/
theorem audit_traced (settings : Settings) {sv₀ : State} (h₀ : Sound sv₀.store)
    (actions : List Action) (d : Draw) (req : Request) : ∃ entries,
    (serve settings (run (step settings) sv₀ actions) d req).1.store.auditLogs =
        (run (step settings) sv₀ actions).store.auditLogs ++ entries ∧
      (∀ entry ∈ entries, ∃ id, entry.requestId = some id ∧ id.length ≤ 64 ∧
        (serve settings (run (step settings) sv₀ actions) d req).2.requestId = some id) ∧
      entries.length =
        if req.target.kind.audited = true ∧
          (serve settings (run (step settings) sv₀ actions) d req).2.status =
            200 then 1 else 0 := by
  have hsound := sound_run settings h₀ actions
  generalize run (step settings) sv₀ actions = sv at hsound ⊢
  have hlength : (requestId req.suppliedId d.uuid).length ≤ 64 := length_requestId d.uuid_length
  have hroute : AllExplained settings sv d req _ :=
    route_explained hsound
  obtain ⟨entries, hlogs, hentries, hcount⟩ := (route_cases settings sv d
    (requestId req.suppliedId d.uuid) req.credentials req.target).trail
  have hstatus : (serve settings sv d req).2.status = 200 ↔ _ := status_iff_isOk hroute
  refine ⟨entries, hlogs, fun entry hentry => ⟨_, hentries entry hentry, hlength, ?_⟩, ?_⟩
  · -- there is an entry, so the reply is a payload
    have hok : (route settings sv d (requestId req.suppliedId d.uuid) req.credentials
        req.target).2.isOk = true := by
      by_contra hno
      have hzero : entries.length = 0 := by simp [hcount, hno]
      rw [List.length_eq_zero_iff.mp hzero] at hentry
      exact absurd hentry List.not_mem_nil
    show (respond _ _).requestId = _
    cases hresult : (route settings sv d (requestId req.suppliedId d.uuid) req.credentials
        req.target).2 with
    | ok p => rfl
    | error e =>
      rw [hresult] at hok
      cases hok
  · rw [hcount]
    simp only [Bool.and_eq_true, hstatus]

section Sample

omit [Runtime] [Pydantic]

theorem sound_empty : Sound {} :=
  ⟨objectMessages_empty, fun _ hitem => absurd hitem List.not_mem_nil,
    fun _ hd => absurd hd List.not_mem_nil⟩

/-- A random code that is drawn twice. -/
theorem answered_sample :
    (sampleServe (sampleRun [.http sampleDraw sampleAuthorized]) sampleAuthorized).2.status = 200 ∨
      isRefusal
        (sampleServe (sampleRun [.http sampleDraw sampleAuthorized]) sampleAuthorized).2.status =
          true ∨
      (sampleServe (sampleRun [.http sampleDraw sampleAuthorized]) sampleAuthorized).2.status =
        500 ∧
        @InternalError .sample samplePydantic sampleSettings
          (sampleRun [.http sampleDraw sampleAuthorized]) sampleDraw
          sampleAuthorized :=
  @answered .sample samplePydantic sampleSettings {} sound_empty [.http sampleDraw sampleAuthorized]
    sampleDraw sampleAuthorized

example :
    (sampleServe (sampleRun [.http sampleDraw sampleAuthorized]) sampleAuthorized).2.status =
      500 := by
  decide

/-- A grant is answered with 200 and leaves its entry. -/
theorem audit_traced_sample :
    (sampleServe (sampleRun sampleAdmin) sampleGrant).2.status = 200 ∧ ∃ entries,
      (sampleServe (sampleRun sampleAdmin) sampleGrant).1.store.auditLogs =
          (sampleRun sampleAdmin).store.auditLogs ++ entries ∧
        (∀ entry ∈ entries, ∃ id, entry.requestId = some id ∧ id.length ≤ 64 ∧
          (sampleServe (sampleRun sampleAdmin) sampleGrant).2.requestId = some id) ∧
        entries.length = if Kind.audited .permissions = true ∧
          (sampleServe (sampleRun sampleAdmin) sampleGrant).2.status = 200 then 1 else 0 :=
  ⟨by
    decide, @audit_traced .sample samplePydantic sampleSettings {} sound_empty
    sampleAdmin sampleDraw sampleGrant⟩

end Sample

end EventServer.Api.App
