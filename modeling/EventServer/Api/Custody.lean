import EventServer.Api.Mediation
import EventServer.Core.Recipients
import EventServer.Deliveries.Content

/-! # From the publisher to the worker

Whatever a worker receives was published by an earlier request: the response to a claim names the
event, the user and the message that the publication determined, and the number of responses that
have handed the delivery out (`custody`). Deliveries come from `POST /publish/events` and from
nowhere else, and what an action does to one of them is said once (`delivery_cases`). -/

namespace EventServer.Api.App

open EventServer.Db EventServer.Lib EventServer.Python EventServer.System
open EventServer.Auth.Publisher EventServer.Api.Publish EventServer.Api.Subscriptions
open EventServer.Api.Bodies EventServer.Api.Server EventServer.CatalogAdmin
  EventServer.PublisherAdmin
open EventServer.Core.Publication EventServer.Core.Recipients
open EventServer.Services.Users EventServer.Services.Pairing EventServer.Services.Subscriptions
open EventServer.Services.Accounts
open EventServer.Deliveries.Outbox
open EventServer.Deliveries.Steps (Returns)
open EventServer.Deliveries.Lifecycle (AllFit allFit_step)
open EventServer.Deliveries.Content

/-! ### What a response says about a delivery -/

def ClaimedDeliveryResponse.content (item : ClaimedDeliveryResponse) : DeliveryContent :=
  ⟨item.deliveryId, item.eventId, item.eventKey, item.platform, item.openid, .obj item.message,
    item.createdAt⟩

/-- The items of a response to a claim. -/
def Response.items (r : Response) : List ClaimedDeliveryResponse :=
  match r.payload with
  | .claim items => items
  | _ => []

theorem claimedDelivery_eq_some {x : ClaimedDelivery} {item : ClaimedDeliveryResponse}
    (h : claimedDelivery x = some item) : x.message = .obj item.message ∧
      item = ⟨x.deliveryId, x.leaseToken, x.eventId, x.eventKey, x.platform, x.openid, item.message,
        x.attempt, x.createdAt⟩ := by
  unfold claimedDelivery at h
  split at h
  · rename_i message hmessage
    cases h
    exact ⟨hmessage, rfl⟩
  · cases h

theorem mem_of_mapM {α β : Type} {f : α → Option β} {xs : List α} {ys : List β}
    (h : xs.mapM f = some ys) {y : β} : y ∈ ys ↔ ∃ x ∈ xs, f x = some y := by
  induction xs generalizing ys with
  | nil =>
    cases h
    simp
  | cons x xs ih =>
    rw [List.mapM_cons] at h
    cases hx : f x with
    | none => simp [hx] at h
    | some z =>
      cases hxs : xs.mapM f with
      | none => simp [hx, hxs] at h
      | some zs =>
        simp only [hx, hxs] at h
        cases h
        simp only [List.mem_cons, ih hxs, exists_eq_or_imp, hx, Option.some_inj]
        constructor
        · rintro (rfl | h)
          · exact Or.inl rfl
          · exact Or.inr h
        · rintro (h | h)
          · exact Or.inl h.symm
          · exact Or.inr h

variable [Runtime] [Pydantic]

/-- The action is a request whose response hands out the delivery `k`. -/
def handsOut (settings : Settings) (k : String) (sv : State) : Action → Bool
  | .http d req => (serve settings sv d req).2.items.any fun item => item.deliveryId = k
  | _ => false

omit [Runtime] [Pydantic] in
theorem items_error (id : String) (e : Failure) : (respond id (.error e)).items = [] := by
  cases e with
  | unmatched methodNotAllowed => cases methodNotAllowed <;> rfl
  | _ => rfl

theorem handsOut_of_nil {settings : Settings} {sv : State} {d : Draw} {req : Request} (k : String)
    (h : (serve settings sv d req).2.items = []) :
    handsOut settings k sv (.http d req) = false := by
  simp only [handsOut, h, List.any_nil]

theorem items_of_read {settings : Settings} {sv : State} {d : Draw} {req : Request}
    (h : req.target.kind = .read) : (serve settings sv d req).2.items = [] := by
  have hauth : ∀ reply : Reply, (respond (requestId req.suppliedId d.uuid) reply.2).items = [] →
      (respond (requestId req.suppliedId d.uuid)
        (authenticated settings sv req.credentials reply).2).items =
        [] := by
    intro reply hreply
    unfold authenticated
    cases requireServiceAuth settings req.credentials with
    | error e => exact items_error _ e
    | ok u => exact hreply
  simp only [serve]
  cases htarget : req.target with
  | health => rfl
  | ready reachable => cases reachable <;> rfl
  | unmatched methodNotAllowed => exact items_error _ _
  | metrics => exact hauth _ rfl
  | listEvents =>
    refine hauth _ ?_
    unfold listEvents
    split
    · rfl
    · exact items_error _ _
  | getPermission openid platform => exact hauth _ rfl
  | getSubscriptions openid platform => exact hauth _ rfl
  | _ =>
    rw [htarget] at h
    cases h

/-! ### What a route leaves alone -/

omit [Pydantic] in
/-- A request of `System` that is not on the outbox leaves it alone. -/
theorem sameOutbox_of_step (op : Op) {s : Store} (s' : Store) (hop : op.onOutbox = false)
    (h : System.step 0 s op = s') : SameOutbox s s' := by
  rw [← h]
  exact sameOutbox_step s hop

omit [Pydantic] in
theorem Served.sameOutbox {settings : Settings} {sv : State} {d : Draw} {id : String} {kind : Kind}
    {reply : Reply} (h : Served settings sv d id kind reply)
    (hkind : kind ∉ [Kind.publish, .claim, .ack, .fail]) : SameOutbox sv.store reply.1.store := by
  cases h with
  | failed e => exact .refl _
  | read p => exact .refl _
  | setPermissions a x _ h =>
    exact sameOutbox_of_step (.setPermissions a) _ rfl (by simp only [System.step, committed, h])
  | changeRole a x _ h =>
    exact sameOutbox_of_step (.changeRole a) _ rfl (by simp only [System.step, committed, h])
  | addSubscription a x _ h =>
    obtain ⟨y, hy, hx⟩ := addSubscription_ok h
    obtain ⟨h₁, h₂⟩ := sameOutbox_of_step (.subscribe ⟨a.platform, a.openid, a.body.val.eventKey,
      some a.body.val.matchKeys⟩) (s := sv.store) y.1 rfl
        (by simp only [System.step, committed, hy])
    simp only [hx]
    exact ⟨h₁, h₂⟩
  | removeSubscription a x _ h =>
    obtain ⟨y, hy, hx⟩ := removeSubscription_ok h
    obtain ⟨h₁, h₂⟩ := sameOutbox_of_step (.unsubscribe ⟨a.platform, a.openid, a.eventKey⟩)
      (s := sv.store) y.1 rfl (by simp only [System.step, committed, hy])
    simp only [hx]
    exact ⟨h₁, h₂⟩
  | newPairingCode platform openid x h =>
    exact sameOutbox_of_step (.createPairingCode d.now platform openid d.code 10) _ rfl
      (by simp only [System.step, committed, h])
  | approveCode a x _ h =>
    exact sameOutbox_of_step (.approvePairingCode d.now a) _ rfl
      (by simp only [System.step, committed, h])
  | publish | claim | ack | fail => simp at hkind

omit [Pydantic] in
theorem Served.items_nil {settings : Settings} {sv : State} {d : Draw} {id : String} {kind : Kind}
    {reply : Reply} (h : Served settings sv d id kind reply) (hkind : kind ∉ [Kind.read, .claim]) :
    (respond id reply.2).items = [] := by
  cases h with
  | failed e => exact items_error id e
  | read | claim => simp at hkind
  | setPermissions | changeRole | addSubscription | removeSubscription
  | newPairingCode | approveCode
  | ack | fail | publish => rfl

theorem eventOccurrences_serve {settings : Settings} {sv : State} {d : Draw} {req : Request}
    (h : req.target.kind ≠ .publish) :
    (serve settings sv d req).1.store.eventOccurrences = sv.store.eventOccurrences := by
  have hcases := route_cases settings sv d (requestId req.suppliedId d.uuid)
    req.credentials req.target
  simp only [serve]
  generalize route settings sv d (requestId req.suppliedId d.uuid) req.credentials
    req.target = reply at hcases
  generalize req.target.kind = kind at hcases h
  by_cases hkind : kind ∈ [Kind.publish, .claim, .ack, .fail]
  · cases hcases with
    | publish => exact absurd rfl h
    | failed | claim | ack | fail => rfl
    | _ => simp at hkind
  · exact (hcases.sameOutbox hkind).eventOccurrences

/-! ### A publication -/

/-- The call `c` of `publish_event` that the request makes. -/
structure Publishes (settings : Settings) (sv : State) (d : Draw) (req : Request) (c : Publish.Call)
    (x : Store × PublishEventResponse) : Prop where
  body : ∃ fields request, req.target = .publishEvent (.json (.obj fields)) ∧
    validRequest fields = some request ∧
    c = publishOf d (requestId req.suppliedId d.uuid) req.credentials request
  returned : PublishErrors.publishEvent settings.publishing sv.publishers sv.store c = .ok x
  state : (serve settings sv d req).1 = { sv with store := x.1 }
  payload : (serve settings sv d req).2.payload = .published x.2

/-- **A request to publish** fails and changes nothing, or makes a call that returns. -/
theorem publishes_cases (settings : Settings) (sv : State) (d : Draw) {req : Request}
    (h : req.target.kind = .publish) :
    (∃ e, route settings sv d (requestId req.suppliedId d.uuid) req.credentials req.target =
        (sv, .error e)) ∨
      ∃ c x, Publishes settings sv d req c x := by
  cases htarget : req.target with
  | publishEvent body =>
    generalize hid : requestId req.suppliedId d.uuid = id
    have hserve : serve settings sv d req = ((publishRoute settings sv d id req.credentials body).1,
        respond id (publishRoute settings sv d id req.credentials body).2) := by
      simp only [serve, htarget, hid]
      rfl
    have hroute : route settings sv d id req.credentials (.publishEvent body) =
        publishRoute settings sv d id req.credentials body := rfl
    unfold publishRoute at hserve hroute
    cases hread : readBody body with
    | error e =>
      simp only [hread] at hroute
      exact Or.inl ⟨e, hroute⟩
    | ok value =>
      simp only [hread] at hserve hroute
      cases hauth : requirePublisherAuth (enabledRows sv.publishers d.order) req.credentials with
      | error e =>
        simp only [hauth] at hroute
        exact Or.inl ⟨_, hroute⟩
      | ok publisher =>
        simp only [hauth] at hserve hroute
        cases hvalid : validated validRequest value with
        | error e =>
          simp only [hvalid] at hroute
          exact Or.inl ⟨e, hroute⟩
        | ok request =>
          simp only [hvalid, ended] at hserve hroute
          cases hpub : PublishErrors.publishEvent settings.publishing sv.publishers sv.store
              (publishOf d id req.credentials request) with
          | error e =>
            simp only [hpub] at hroute
            exact Or.inl ⟨_, hroute⟩
          | ok x =>
            simp only [hpub] at hserve
            obtain ⟨fields, rfl, hfields⟩ := body_of_validated hread hvalid
            refine Or.inr ⟨_, x, ⟨fields, request, htarget, hfields, rfl⟩, ?_, ?_, ?_⟩
            · rw [hid]
              exact hpub
            · rw [hserve]
            · rw [hserve]
              rfl
  | _ =>
    rw [htarget] at h
    cases h

/-- When a publication asks for delivery. -/
def dueTime (d : Draw) (body : ValidRequest) : Time :=
  match body.val.notifyTime with
  | some n => max d.now n
  | none => d.storedAt

/-- The request published the delivery `stored`: it presented the token of an enabled publisher that
may publish the event, and the subscription qualified. The message is the one for the locale of the
subscription. -/
structure PublishedBy (settings : Settings) (sv : State) (d : Draw) (req : Request)
    (body : ValidRequest) (publisher : EventPublisher) (eventType : EventType) (sub : Subscription)
    (stored : Delivery) :
    Prop where
  requested : ∃ fields, req.target = .publishEvent (.json (.obj fields)) ∧
    validRequest fields = some body
  onboarded : publisher ∈ sv.publishers
  enabled : publisher.enabled = true
  token : ∃ c, req.credentials = some c ∧ c.isBearer = true ∧
    publisher.tokenHash = Auth.Publisher.tokenHash c.credentials
  allowed : mayPublish publisher body.val.eventKey = true
  registered : sv.store.eventTypes.get body.val.eventKey = some eventType
  subscribed : sub ∈ sv.store.subscriptions
  eventKey : sub.eventKey = body.val.eventKey
  entitled : Entitled sv.store sub.platform sub.openid
  matchKeys : MatchKeysAccept eventType.matchKeyField body.val.data sub.matchKeys
  row : ∃ fallback, body.val.messages.lookup "default" = some fallback ∧ stored =
    { deliveryId := d.deliveryId sub.platform sub.openid
      eventId := d.eventId
      eventKey := body.val.eventKey
      platform := sub.platform
      openid := sub.openid
      message := (messageFor body.val.messages fallback sub.locale).modelDump
      nextAttemptAt := dueTime d body
      createdAt := d.storedAt }

/-- **A publication** stores the deliveries of its event, or leaves the deliveries alone. -/
theorem publishes_deliveries {settings : Settings} {sv : State} {d : Draw} {req : Request}
    {c : Publish.Call} {x : Store × PublishEventResponse} (h : Publishes settings sv d req c x)
    (k : String) : x.1.deliveries.get k = sv.store.deliveries.get k ∨
      sv.store.deliveries.get k = none ∧ ∃ body publisher eventType sub stored,
        PublishedBy settings sv d req body publisher eventType sub stored ∧
          x.1.deliveries.get k = some stored := by
  obtain ⟨fields, body, htarget, hvalid, hcall⟩ := h.body
  rcases publishEvent_cases (publishEvent_eq_ok h.returned) with ⟨-, hsame⟩ |
    ⟨-, -, publisher, event, notifyAt, eventType, fallback, hcreated⟩
  · exact Or.inl (by rw [hsame.deliveries])
  subst hcall
  have hget := Deliveries.Steps.get_enqueue sv.store.deliveries
    (((publishOf d (requestId req.suppliedId d.uuid) req.credentials body).publish event
      notifyAt).deliveries sv.store d.storedAt eventType fallback) k
  have hdeliveries : sv.store.deliveries.insertAll? (((publishOf d (requestId req.suppliedId d.uuid)
      req.credentials body).publish event notifyAt).deliveries sv.store d.storedAt
        eventType fallback) =
      some x.1.deliveries := hcreated.deliveries
  rw [hdeliveries, Option.getD_some] at hget
  rcases hget with hsame | ⟨hnone, stored, hmem, hstored⟩
  · exact Or.inl hsame
  obtain ⟨sub, hreached, rfl⟩ := List.mem_map.mp hmem
  obtain ⟨cred, hcred, hbearer, hrow, hhash⟩ := requirePublisherAuth_ok hcreated.auth
  obtain ⟨hpublisher, henabled⟩ := mem_enabledRows.mp hrow
  obtain ⟨hid, hkey, -, -, hdata, -⟩ := event_ok hcreated.isEvent
  obtain ⟨hregistered, -⟩ := checked_ok hcreated.checked
  obtain ⟨hsubscribed, heventKey, hentitled, haccept⟩ := mem_reached.mp hreached
  have hkey' : event.eventKey = body.val.eventKey := hkey
  have hdata' : event.data = body.val.data := hdata
  have hdue : notifyAt.getD d.storedAt = dueTime d body := by
    have hresolved : resolveNotifyAt body.val.notifyTime settings.publishing d.now = .ok notifyAt :=
      hcreated.resolved
    unfold dueTime
    cases hn : body.val.notifyTime with
    | none =>
      rw [hn] at hresolved
      cases hresolved
      rfl
    | some n =>
      rw [hn] at hresolved
      rw [(resolveNotifyAt_some hresolved).1]
      rfl
  refine Or.inr ⟨hnone, body, publisher, eventType, sub, _, ?_, hstored⟩
  exact
    { requested := ⟨fields, htarget, hvalid⟩
      onboarded := hpublisher
      enabled := henabled
      token := ⟨cred, hcred, hbearer, hhash⟩
      allowed := hcreated.allowed
      registered := by rw [← hkey']; exact hregistered
      subscribed := hsubscribed
      eventKey := heventKey.trans hkey'
      entitled := hentitled
      matchKeys := by rw [← hdata']; exact haccept
      row := ⟨fallback, (check_ok hcreated.checked).2, by
        simp only [Publish.delivery, Call.publish, publishOf, hdue, hkey', hid]⟩ }

/-! ### What an action does to a delivery -/

/-- The ways an action can act on the delivery `k`. -/
inductive DeliveryStep (settings : Settings) (sv : State) (k : String) : Action → Prop
  | keep {action : Action}
    (hnone : sv.store.deliveries.get k = none →
      (step settings sv action).store.deliveries.get k = none)
    (hsome : ∀ x, sv.store.deliveries.get k = some x →
      ∃ x', (step settings sv action).store.deliveries.get k = some x' ∧
        contentOf x' = contentOf x ∧
        x'.attempts = x.attempts ∧ (x'.attempts = 0 → x' = x))
    (hout : handsOut settings k sv action = false) : DeliveryStep settings sv k action
  | published {d : Draw} {req : Request} (body : ValidRequest) (publisher : EventPublisher)
    (eventType : EventType) (sub : Subscription) (stored : Delivery)
    (hpub : PublishedBy settings sv d req body publisher eventType sub stored)
    (hnone : sv.store.deliveries.get k = none)
    (h : (step settings sv (.http d req)).store.deliveries.get k = some stored)
    (hout : handsOut settings k sv (.http d req) = false) : DeliveryStep settings sv k (.http d req)
  | handed {d : Draw} {req : Request} (x x' : Delivery) (h : sv.store.deliveries.get k = some x)
    (h' : (step settings sv (.http d req)).store.deliveries.get k = some x')
    (hcontent : contentOf x' = contentOf x) (hattempts : x'.attempts = x.attempts + 1)
    (hdue : eligible d.now x = true) (hout : handsOut settings k sv (.http d req) = true)
    (hitems : ∀ item ∈ (serve settings sv d req).2.items, item.deliveryId = k →
      item.content = contentOf x ∧ item.attempt = x.attempts + 1) : DeliveryStep settings
        sv k (.http d req)

section Cases

variable {settings : Settings} {sv : State} {k : String}

theorem keep_of_same {action : Action}
    (h : (step settings sv action).store.deliveries = sv.store.deliveries)
    (hout : handsOut settings k sv action = false) : DeliveryStep settings sv k action :=
  .keep (fun hnone => by rw [h]; exact hnone)
    (fun x hx => ⟨x, by rw [h]; exact hx, rfl, rfl, fun _ => rfl⟩)
    hout

/-- An action that makes a call of the outbox which does not hand the delivery out. -/
theorem keep_of_call {action : Action} (c : Deliveries.Steps.Call)
    (hc : ∀ now ds, c ≠ .enqueue now ds)
    (hfit : AllFit settings.deliveryMaxAttempts sv.store.deliveries)
    (h : (step settings sv action).store.deliveries =
      Deliveries.Steps.step settings.deliveryMaxAttempts sv.store.deliveries c)
    (hret : ¬ Returns sv.store.deliveries k c) (hout : handsOut settings k sv action = false) :
    DeliveryStep settings sv k action := by
  refine .keep (fun hnone => ?_) (fun x hx => ?_) hout
  · rw [h]
    cases Deliveries.Steps.step_cases settings.deliveryMaxAttempts sv.store.deliveries k c with
    | keep hkeep => rw [hkeep, hnone]
    | enqueue => exact absurd rfl (hc _ _)
    | claim _ hget => rw [hnone] at hget; cases hget
    | ack _ _ hget => rw [hnone] at hget; cases hget
    | fail _ _ hget => rw [hnone] at hget; cases hget
  · obtain ⟨x', hx', hcontent, hattempts⟩ := content_step (n := settings.deliveryMaxAttempts) hx c
    rw [if_neg hret, Nat.add_zero] at hattempts
    rw [h]
    exact ⟨x', hx', hcontent, hattempts, untouched_step hfit hx hx'⟩

omit [Pydantic] in
/-- The response to a claim hands out exactly what was claimed. -/
theorem claim_items {a : Claim} {items : List ClaimedDeliveryResponse}
    (hmsg : ObjectMessages sv.store)
    (hitems : (claim sv.store.deliveries a).2.mapM claimedDelivery = some items) (k : String) :
    ((∃ item ∈ items, item.deliveryId = k) ↔ Returns sv.store.deliveries k (.claim a)) ∧
      ∀ item ∈ items, item.deliveryId = k → ∃ x, sv.store.deliveries.get k = some x ∧
        eligible a.now x = true ∧ item.content = contentOf x ∧ item.attempt = x.attempts + 1 := by
  constructor
  · constructor
    · rintro ⟨item, hitem, hk⟩
      obtain ⟨y, hy, hconv⟩ := (mem_of_mapM hitems).mp hitem
      obtain ⟨-, heq⟩ := claimedDelivery_eq_some hconv
      refine ⟨y, hy, ?_⟩
      rw [← hk, heq]
    · rintro ⟨y, hy, hk⟩
      obtain ⟨fields, hfields⟩ := mem_claimed_message hmsg hy
      obtain ⟨item, hconv⟩ : ∃ item, claimedDelivery y = some item := by
        simp only [claimedDelivery, hfields]
        exact ⟨_, rfl⟩
      obtain ⟨-, heq⟩ := claimedDelivery_eq_some hconv
      refine ⟨item, (mem_of_mapM hitems).mpr ⟨y, hy, hconv⟩, ?_⟩
      rw [heq]
      exact hk
  · rintro item hitem hk
    obtain ⟨y, hy, hconv⟩ := (mem_of_mapM hitems).mp hitem
    obtain ⟨hmessage, heq⟩ := claimedDelivery_eq_some hconv
    obtain ⟨x, hget, he, -, hclaimed, -⟩ := Deliveries.Steps.mem_returned hy
    have hkey : y.deliveryId = k := by rw [← hk, heq]
    rw [hkey] at hget
    refine ⟨x, hget, he, ?_, ?_⟩
    · rw [heq]
      simp only [ClaimedDeliveryResponse.content, contentOf, ← hmessage, hclaimed, Claim.claimed]
    · rw [heq, hclaimed]
      rfl

theorem deliveryStep_claim {d : Draw} {req : Request} {a : Claim}
    (hfit : AllFit settings.deliveryMaxAttempts sv.store.deliveries)
    (hmsg : ObjectMessages sv.store) (hnow : a.now = d.now)
    (hstep : (step settings sv (.http d req)).store.deliveries =
      Deliveries.Steps.step settings.deliveryMaxAttempts sv.store.deliveries (.claim a))
    (hitems : (serve settings sv d req).2.items = (respond (requestId req.suppliedId d.uuid)
      (claimResult (claim sv.store.deliveries a).2)).items) : DeliveryStep settings sv k
        (.http d req) := by
  obtain ⟨items, hresult⟩ := claimResult_ok fun x => mem_claimed_message hmsg (a := a)
  have hmap : (claim sv.store.deliveries a).2.mapM claimedDelivery = some items := by
    unfold claimResult at hresult
    split at hresult
    · rename_i results hresults
      cases hresult
      exact hresults
    · cases hresult
  obtain ⟨hret, hitem⟩ := claim_items hmsg hmap k
  rw [hresult] at hitems
  have hitems' : (serve settings sv d req).2.items = items := hitems
  have hout : handsOut settings k sv (.http d req) = true ↔
      Returns sv.store.deliveries k (.claim a) := by
    rw [← hret]
    simp only [handsOut, hitems', List.any_eq_true, decide_eq_true_eq]
  by_cases hr : Returns sv.store.deliveries k (.claim a)
  · obtain ⟨item, hmem, hk⟩ := hret.mpr hr
    obtain ⟨x, hget, hdue, -⟩ := hitem item hmem hk
    obtain ⟨x', hget', hcontent, hattempts⟩ := content_step (n := settings.deliveryMaxAttempts) hget
      (.claim a)
    rw [if_pos hr] at hattempts
    refine .handed x x' hget (by rw [hstep]; exact hget') hcontent hattempts ?_ (hout.mpr hr) ?_
    · rw [← hnow]
      exact hdue
    · rw [hitems']
      intro item' hmem' hk'
      obtain ⟨y, hy, -, hsame⟩ := hitem item' hmem' hk'
      rw [hget, Option.some_inj] at hy
      rw [hy]
      exact hsame
  · refine keep_of_call (.claim a) (by simp) hfit hstep hr ?_
    simpa using fun h => hr (hout.mp h)

/-- **What an action does to a delivery.** -/
theorem delivery_cases (hfit : AllFit settings.deliveryMaxAttempts sv.store.deliveries)
    (hmsg : ObjectMessages sv.store) (action : Action) : DeliveryStep settings sv k action := by
  cases action with
  | upsert a =>
    refine keep_of_same ?_ rfl
    simp only [step]
    cases upsert sv.publishers a <;> rfl
  | tool op =>
    refine keep_of_same ?_ rfl
    obtain ⟨op, htool⟩ := op
    exact (sameOutbox_step sv.store (by cases op <;> first | rfl | cases htool)).deliveries
  | http d req =>
    by_cases hread : req.target.kind = .read
    · refine keep_of_same ?_ (handsOut_of_nil k (items_of_read hread))
      have hcases := route_cases settings sv d (requestId req.suppliedId d.uuid)
        req.credentials req.target
      rw [hread] at hcases
      simp only [step, serve]
      generalize route settings sv d (requestId req.suppliedId d.uuid) req.credentials
        req.target = reply at hcases
      cases hcases <;> rfl
    by_cases hkind : req.target.kind = .publish
    · rcases publishes_cases settings sv d hkind with ⟨e, hfailed⟩ | ⟨c, x, h⟩
      · refine keep_of_same ?_ (handsOut_of_nil k ?_)
        · simp only [step, serve, hfailed]
        · simp only [serve, hfailed, items_error]
      have hout : handsOut settings k sv (.http d req) = false := by
        refine handsOut_of_nil k ?_
        simp only [Response.items, h.payload]
      have hstep : (step settings sv (.http d req)).store.deliveries = x.1.deliveries := by
        simp only [step, h.state]
      rcases publishes_deliveries h k with hsame |
        ⟨hnone, body, publisher, eventType, sub, stored, hpub, hget⟩
      · refine .keep (fun hnone => ?_) (fun y hy => ⟨y, ?_, rfl, rfl, fun _ => rfl⟩) hout
        · rw [hstep, hsame, hnone]
        · rw [hstep, hsame, hy]
      · exact .published body publisher eventType sub stored hpub hnone (by rw [hstep, hget]) hout
    have hcases := route_cases settings sv d (requestId req.suppliedId d.uuid)
      req.credentials req.target
    have hstep : step settings sv (.http d req) =
        (route settings sv d (requestId req.suppliedId d.uuid) req.credentials req.target).1 := rfl
    have hitems : (serve settings sv d req).2.items = (respond (requestId req.suppliedId d.uuid)
      (route settings sv d (requestId req.suppliedId d.uuid) req.credentials
        req.target).2).items := rfl
    generalize route settings sv d (requestId req.suppliedId d.uuid) req.credentials
      req.target = reply at hcases hstep hitems
    generalize req.target.kind = kind at hcases hkind hread
    by_cases hworker : kind ∈ [Kind.publish, .claim, .ack, .fail]
    · cases hcases with
      | failed e =>
        exact keep_of_same (by rw [hstep]) (handsOut_of_nil k (hitems.trans (items_error _ e)))
      | claim a _ _ hnow => exact deliveryStep_claim hfit hmsg hnow (by rw [hstep]; rfl) hitems
      | ack a x _ h =>
        refine keep_of_call (.ack a) (by simp) hfit ?_
          (by simp [Returns, Deliveries.Steps.returned])
          (handsOut_of_nil k hitems)
        rw [hstep]
        simp only [withDeliveries, Deliveries.Steps.step, h]
      | fail a x _ h =>
        refine keep_of_call (.fail a) (by simp) hfit ?_
          (by simp [Returns, Deliveries.Steps.returned])
          (handsOut_of_nil k hitems)
        rw [hstep]
        simp only [withDeliveries, Deliveries.Steps.step, h]
      | publish => exact absurd rfl hkind
      | _ => simp at hworker
    · refine keep_of_same ?_ (handsOut_of_nil k (hitems.trans (hcases.items_nil ?_)))
      · rw [hstep]
        exact (hcases.sameOutbox hworker).deliveries
      · simp_all

end Cases

/-! ### The run -/

omit [Runtime] [Pydantic] in
/-- The clock reading of a request. -/
def Action.now? : Action → Option Time
  | .http d _ => some d.now
  | _ => none

omit [Runtime] [Pydantic] in
/-- The clock readings of the requests never go back. -/
def Clocked (actions : List Action) : Prop := (actions.filterMap Action.now?).Pairwise (· ≤ ·)

/-- One of the actions published the delivery `x`, which says what was published and counts the
responses that have handed it out since. -/
structure FromPublisher (settings : Settings) (sv₀ : State) (actions : List Action) (x : Delivery)
    (pre : List Action) (d : Draw) (req : Request) (post : List Action) (body : ValidRequest)
    (stored : Delivery) : Prop where
  actions : actions = pre ++ .http d req :: post
  published : ∃ publisher eventType sub,
    PublishedBy settings (run (step settings) sv₀ pre) d req body publisher eventType sub stored
  content : contentOf x = contentOf stored
  attempts : x.attempts = tally (step settings) (handsOut settings x.deliveryId)
    (run (step settings) sv₀ (pre ++ [.http d req])) post
  untouched : x.attempts = 0 → x = stored
  onTime : 0 < x.attempts → ∃ d' req', .http d' req' ∈ post ∧ dueTime d body ≤ d'.now

section Run

variable {settings : Settings} {sv₀ : State}

omit [Pydantic] in
theorem allFit_step_system {n : ℕ} (s : Store) (op : Op) (h : AllFit n s.deliveries) :
    AllFit n (System.step n s op).deliveries := by
  rw [deliveries_step]
  exact run_invariant_all (I := AllFit n) (fun t c ht => allFit_step ht c) h (op.calls s)

/-- From a store without deliveries, the columns of every delivery fit and its message is an
object. -/
theorem wellFormed_run (settings : Settings) (h₀ : sv₀.store.deliveries.rows = [])
    (actions : List Action) :
    AllFit settings.deliveryMaxAttempts (run (step settings) sv₀ actions).store.deliveries ∧
      ObjectMessages (run (step settings) sv₀ actions).store := by
  have hempty : ∀ x, x ∉ sv₀.store.deliveries := by
    intro x hx
    rw [← Table.mem_rows, h₀] at hx
    exact absurd hx List.not_mem_nil
  constructor
  · refine run_invariant_all
      (I := fun sv : State => AllFit settings.deliveryMaxAttempts sv.store.deliveries)
      (fun sv action h => ?_) (fun x hx => absurd hx (hempty x)) actions
    refine invariant_step (I := fun s : Store => AllFit settings.deliveryMaxAttempts s.deliveries)
      (fun s s' hs hfit => ?_) allFit_step_system h action
    obtain ⟨logs, rfl⟩ := hs
    exact hfit
  · refine run_invariant_all (I := fun sv : State => ObjectMessages sv.store)
      (fun sv action h => ?_) (fun x hx => absurd hx (hempty x)) actions
    refine invariant_step (fun s s' hs hmsg => ?_) objectMessages_step h action
    obtain ⟨logs, rfl⟩ := hs
    exact hmsg

theorem FromPublisher.extend {actions pre post : List Action} {d : Draw} {req : Request}
    {body : ValidRequest} {stored x x' : Delivery} {action : Action}
    (h : FromPublisher settings sv₀ actions x pre d req post body stored)
    (hcontent : contentOf x' = contentOf x)
    (hattempts : x'.attempts = x.attempts +
      if handsOut settings x.deliveryId (run (step settings) sv₀ actions) action then 1 else 0)
    (huntouched : x'.attempts = 0 → x' = x)
    (hnow : x.attempts = 0 → 0 < x'.attempts → ∃ d' req', action = .http d' req' ∧
      dueTime d body ≤ d'.now) :
    FromPublisher settings sv₀ (actions ++ [action]) x' pre d req (post ++ [action])
      body stored where
  actions := by rw [h.actions, List.append_assoc, List.cons_append]
  published := h.published
  content := hcontent.trans h.content
  attempts := by
    have hid : x'.deliveryId = x.deliveryId := congrArg DeliveryContent.deliveryId hcontent
    have hrun : run (step settings) sv₀ actions =
        run (step settings) (run (step settings) sv₀ (pre ++ [.http d req])) post := by
      rw [← run_append, h.actions, List.append_assoc, List.singleton_append]
    rw [hattempts, h.attempts, hid, tally_concat, ← hrun]
  untouched ha := by
    have hx : x.attempts = 0 := by omega
    exact (huntouched ha).trans (h.untouched hx)
  onTime hpos := by
    by_cases hx : x.attempts = 0
    · obtain ⟨d', req', rfl, hle⟩ := hnow hx hpos
      exact ⟨d', req', List.mem_append_right _ List.mem_cons_self, hle⟩
    · obtain ⟨d', req', hmem, hle⟩ := h.onTime (Nat.pos_of_ne_zero hx)
      exact ⟨d', req', List.mem_append_left _ hmem, hle⟩

/-- A delivery that has never been handed out is due when its publication asked for it. -/
theorem FromPublisher.due {actions pre post : List Action} {d : Draw} {req : Request}
    {body : ValidRequest} {stored x : Delivery} {now : Time}
    (h : FromPublisher settings sv₀ actions x pre d req post body stored) (hx : x.attempts = 0)
    (hdue : eligible now x = true) : dueTime d body ≤ now := by
  obtain ⟨_, _, _, hpub⟩ := h.published
  obtain ⟨fallback, -, hrow⟩ := hpub.row
  rw [h.untouched hx, hrow] at hdue
  simpa [eligible] using hdue

/-- **Every delivery was published** by an earlier action. -/
theorem fromPublisher_run (h₀ : sv₀.store.deliveries.rows = []) {k : String} (actions : List Action)
    {x : Delivery} (hx : (run (step settings) sv₀ actions).store.deliveries.get k = some x) :
    ∃ pre d req post body stored, FromPublisher settings sv₀ actions x pre d req post
      body stored := by
  induction actions using List.reverseRecOn generalizing x with
  | nil =>
    have hmem := Table.mem_of_get hx
    rw [run_nil, ← Table.mem_rows, h₀] at hmem
    exact absurd hmem List.not_mem_nil
  | append_singleton actions action ih =>
    obtain ⟨hfit, hmsg⟩ := wellFormed_run settings h₀ actions
    rw [run_concat] at hx
    cases delivery_cases (k := k) hfit hmsg action with
    | keep hnone hsome hout =>
      cases hget : (run (step settings) sv₀ actions).store.deliveries.get k with
      | none =>
        rw [hnone hget] at hx
        cases hx
      | some y =>
        obtain ⟨y', hy', hcontent, hattempts, huntouched⟩ := hsome y hget
        rw [hy', Option.some_inj] at hx
        subst hx
        obtain ⟨pre, d, req, post, body, stored, hfrom⟩ := ih hget
        have hk : y.deliveryId = k := Table.key_of_get hget
        refine ⟨pre, d, req, _, body, stored,
          hfrom.extend hcontent ?_ huntouched fun hzero hpos => ?_⟩
        · rw [hk, hout, hattempts]
          rfl
        · omega
    | published body publisher eventType sub stored hpub hnone hget hout =>
      rw [hget, Option.some_inj] at hx
      subst hx
      refine ⟨actions, _, _, [], body, stored, rfl, ⟨publisher, eventType, sub, hpub⟩, rfl, ?_,
        fun _ => rfl, fun hpos => ?_⟩
      · obtain ⟨fallback, -, hrow⟩ := hpub.row
        rw [hrow]
        rfl
      · obtain ⟨fallback, -, hrow⟩ := hpub.row
        rw [hrow] at hpos
        exact absurd hpos (lt_irrefl 0)
    | @handed d' req' y y' hget hget' hcontent hattempts hdue hout hitems =>
      rw [hget', Option.some_inj] at hx
      subst hx
      obtain ⟨pre, d, req, post, body, stored, hfrom⟩ := ih hget
      have hk : y.deliveryId = k := Table.key_of_get hget
      refine ⟨pre, d, req, _, body, stored,
        hfrom.extend hcontent ?_ (fun hzero => ?_) fun hzero _ =>
        ⟨d', req', rfl, hfrom.due hzero hdue⟩⟩
      · rw [hk, hout, hattempts]
        rfl
      · omega

/-- **The way of a delivery**: whatever the response to a request hands out was published by an
earlier request that presented the token of an enabled publisher with permission for the event, to a
subscriber that was entitled to it and whose match keys accepted it. The response says what was
published, and how many responses have handed it out before; and if clock readings never go back, it
comes no earlier than asked for. -/
theorem custody (h₀ : sv₀.store.deliveries.rows = []) (actions : List Action) (d : Draw)
    (req : Request) :
    ∀ item ∈ (serve settings (run (step settings) sv₀ actions) d req).2.items,
      ∃ pre d' req' post body publisher eventType sub stored,
        actions = pre ++ .http d' req' :: post ∧
        PublishedBy settings (run (step settings) sv₀ pre) d' req' body publisher
          eventType sub stored ∧
        item.content = contentOf stored ∧
        item.attempt = 1 + tally (step settings) (handsOut settings item.deliveryId)
          (run (step settings) sv₀ (pre ++ [.http d' req'])) post ∧
        (Clocked (actions ++ [.http d req]) → dueTime d' body ≤ d.now) := by
  intro item hitem
  obtain ⟨hfit, hmsg⟩ := wellFormed_run settings h₀ actions
  have hout : handsOut settings item.deliveryId (run (step settings) sv₀ actions)
      (.http d req) = true :=
    List.any_eq_true.mpr ⟨item, hitem, decide_eq_true rfl⟩
  cases delivery_cases (k := item.deliveryId) hfit hmsg (.http d req) with
  | keep _ _ hno => rw [hout] at hno; cases hno
  | published _ _ _ _ _ _ _ _ hno => rw [hout] at hno; cases hno
  | handed x x' hget _ _ _ hdue _ hitems =>
    obtain ⟨hcontent, hattempt⟩ := hitems item hitem rfl
    obtain ⟨pre, d', req', post, body, stored, hfrom⟩ := fromPublisher_run h₀ actions hget
    obtain ⟨publisher, eventType, sub, hpub⟩ := hfrom.published
    have hk : x.deliveryId = item.deliveryId := Table.key_of_get hget
    refine ⟨pre, d', req', post, body, publisher, eventType, sub, stored, hfrom.actions, hpub,
      hcontent.trans hfrom.content, ?_, fun hclock => ?_⟩
    · rw [hattempt, hfrom.attempts, hk, Nat.add_comm]
    · by_cases hzero : x.attempts = 0
      · exact hfrom.due hzero hdue
      · obtain ⟨d'', req'', hmem, hle⟩ := hfrom.onTime (Nat.pos_of_ne_zero hzero)
        refine le_trans hle ?_
        rw [Clocked, List.filterMap_append] at hclock
        refine (List.pairwise_append.mp hclock).2.2 d''.now ?_ d.now (by simp [Action.now?])
        rw [hfrom.actions]
        exact List.mem_filterMap.mpr ⟨_, List.mem_append_right _ (List.mem_cons_of_mem _ hmem), rfl⟩

end Run

/-! ### A sample -/

section Sample

omit [Runtime] [Pydantic]

/-- Times are given as seconds since the epoch. -/
abbrev sampleEpoch : Pydantic where
  intOfStr _ := none
  datetimeOfStr _ := none
  datetimeOfNumber
    | .finite q => some (.aware (seconds q.num))
    | _ => none

/-- `alice` is subscribed, and `ci-builds` is onboarded. -/
def sampleSubscribed : State where
  store := run (@System.step sampleRuntime 5) {} System.sampleSetup
  publishers := Server.sampleState.publishers

def samplePublication : Request where
  credentials := sampleCredentials "0123456789abcdef0123456789abcdef"
  target := .publishEvent (.json (.obj [("event_key", .str "build.pipeline.failed"),
    ("schema_version", .int 1), ("dedupe_key", .str "build-7"), ("occurred_at", .int 1789387200),
    ("subject", .obj []), ("data", .obj [("projects", .arr [.str "core"])]),
    ("messages", .obj [("default", .obj [("title", .str "Build failed"), ("text", .str "core"),
      ("template_key", .str "build"), ("template_version", .int 1)])])]))

def sampleClaim : Request where
  credentials := sampleCredentials "internal-token-0123456789"
  target := .claimDeliveries (.json (.obj [("platform", .str "qqbot"), ("worker_id", .str "w-1")]))

/-- The sample server after a publication. -/
def samplePublished : State :=
  run (@step sampleRuntime sampleEpoch sampleSettings) sampleSubscribed
    [.http sampleDraw samplePublication]

def sampleClaimed : List ClaimedDeliveryResponse :=
  (@serve sampleRuntime sampleEpoch sampleSettings samplePublished sampleDraw sampleClaim).2.items

/-- The worker receives the delivery for `alice`, which was published. -/
theorem custody_sample : ∃ item ∈ sampleClaimed,
    ∃ pre d' req' post body publisher eventType sub stored,
      [Action.http sampleDraw samplePublication] = pre ++ .http d' req' :: post ∧
      @PublishedBy sampleRuntime sampleEpoch sampleSettings
        (run (@step sampleRuntime sampleEpoch sampleSettings) sampleSubscribed pre) d'
          req' body publisher
        eventType sub stored ∧
      item.content = contentOf stored ∧
      item.attempt = 1 + tally (@step sampleRuntime sampleEpoch sampleSettings)
        (@handsOut sampleRuntime sampleEpoch sampleSettings item.deliveryId)
        (run (@step sampleRuntime sampleEpoch sampleSettings) sampleSubscribed
          (pre ++ [.http d' req'])) post ∧
      (Clocked ([.http sampleDraw samplePublication] ++ [.http sampleDraw sampleClaim]) →
        dueTime d' body ≤ sampleDraw.now) := by
  have hids : sampleClaimed.map (·.deliveryId) = ["d-alice"] := by decide
  obtain ⟨item, hitem, -⟩ := List.mem_map.mp (hids ▸ List.mem_cons_self : "d-alice" ∈ _)
  have hempty : sampleSubscribed.store.deliveries.rows = [] :=
    List.length_eq_zero_iff.mp (by decide)
  exact ⟨item, hitem, @custody sampleRuntime sampleEpoch sampleSettings sampleSubscribed hempty
    [.http sampleDraw samplePublication] sampleDraw sampleClaim item hitem⟩

end Sample

end EventServer.Api.App
