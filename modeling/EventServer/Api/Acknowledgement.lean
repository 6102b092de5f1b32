import EventServer.Api.Custody
import EventServer.Deliveries.LeaseSafety

/-! # Reports in time

A worker that acknowledges a delivery with the token it was given before its lease ends is answered
with 200, whatever the server has been asked for in between; until then the delivery is handed out
to nobody else, and afterwards never again (`acknowledged`). What an action does to a stored
delivery is said once, with the request that does it (`row_cases`). -/

namespace EventServer.Api.App

open EventServer.Db EventServer.Lib EventServer.Python EventServer.System
open EventServer.Auth.Publisher (Credentials)
open EventServer.Api.Publish EventServer.Api.Bodies EventServer.Api.Server
open EventServer.PublisherAdmin
open EventServer.Deliveries.Outbox
open EventServer.Deliveries.LeaseSafety (holdsLease_lease)
open EventServer.Deliveries.Steps (Returns ack_eq_ok exists_ack fail_eq_ok get_claim leased_eq_ok
  mem_returned returns_claim status_of_holdsLease tokenHash_of_holdsLease)

/-! ### The requests of workers -/

section Requests

variable [Pydantic]

/-- The request claims deliveries. -/
def ClaimRequested (req : Request) (body : { body : DeliveryClaimRequest // body.valid = true }) :
    Prop :=
  ∃ fields, req.target = .claimDeliveries (.json (.obj fields)) ∧
    checked DeliveryClaimRequest.valid (DeliveryClaimRequest.ofJson fields) = some body

/-- The request acknowledges a delivery. -/
def AckRequested (req : Request) (deliveryId : String)
    (body : { body : DeliveryAckRequest // body.valid = true }) : Prop :=
  ∃ fields, req.target = .ackDelivery deliveryId (.json (.obj fields)) ∧
    checked DeliveryAckRequest.valid (DeliveryAckRequest.ofJson fields) = some body

end Requests

/-- The request reports that a delivery has failed. -/
def FailRequested (req : Request) (deliveryId : String)
    (body : { body : DeliveryFailRequest // body.valid = true }) : Prop :=
  ∃ fields, req.target = .failDelivery deliveryId (.json (.obj fields)) ∧
    checked DeliveryFailRequest.valid (DeliveryFailRequest.ofJson fields) = some body

/-- A request with a body fails and changes nothing, or its function is called. -/
theorem withBody_eq {α : Type} (settings : Settings) (sv : State) (credentials : Option Credentials)
    (body : Body) (ofJson : JsonObject → Option α) (endpoint : α → Reply) :
    (∃ e, withBody settings sv credentials body ofJson endpoint = (sv, .error e)) ∨
      ∃ fields a, body = .json (.obj fields) ∧ ofJson fields = some a ∧
        requireServiceAuth settings credentials = .ok () ∧
          withBody settings sv credentials body ofJson endpoint = endpoint a := by
  cases body with
  | invalidJson => exact Or.inl ⟨_, rfl⟩
  | unreadable => exact Or.inl ⟨_, rfl⟩
  | json value =>
    simp only [withBody, readBody, authenticated]
    cases hauth : requireServiceAuth settings credentials with
    | error e => exact Or.inl ⟨e, rfl⟩
    | ok u =>
      cases hvalid : validated ofJson value with
      | error e => exact Or.inl ⟨e, rfl⟩
      | ok a =>
        obtain ⟨fields, hbody, ha⟩ := body_of_validated (rfl : readBody (.json value) =
          .ok value) hvalid
        cases hbody
        exact Or.inr ⟨fields, a, rfl, ha, rfl, rfl⟩

variable [Runtime] [Pydantic]

/-- What an action does to the delivery `x`, stored under `k`. -/
inductive RowStep (settings : Settings) (sv : State) (k : String) (x : Delivery) : Action → Prop
  | keep {action : Action} (h : (step settings sv action).store.deliveries.get k = some x)
    (hout : handsOut settings k sv action = false) : RowStep settings sv k x action
  | claim {d : Draw} {req : Request} (body : { body : DeliveryClaimRequest // body.valid = true })
    (hreq : ClaimRequested req body) (hdue : eligible d.now x = true)
    (h : (step settings sv (.http d req)).store.deliveries.get k =
      some ((claimOf settings d body.val).lease x)) : RowStep settings sv k x (.http d req)
  | ack {d : Draw} {req : Request} (body : { body : DeliveryAckRequest // body.valid = true })
    (hreq : AckRequested req k body) (hholds : holdsLease x body.val.leaseToken d.now = true)
    (h : (step settings sv (.http d req)).store.deliveries.get k =
      some ((ackOf d k body.val).apply x)) :
    RowStep settings sv k x (.http d req)
  | fail {d : Draw} {req : Request} (body : { body : DeliveryFailRequest // body.valid = true })
    (hreq : FailRequested req k body) (hholds : holdsLease x body.val.leaseToken d.now = true)
    (h : (step settings sv (.http d req)).store.deliveries.get k =
      some ((failOf d k body.val).apply settings.deliveryMaxAttempts x)) :
    RowStep settings sv k x (.http d req)

section Cases

variable {settings : Settings} {sv : State} {k : String} {x : Delivery}

theorem rowStep_failed (hx : sv.store.deliveries.get k = some x) {d : Draw}
    {req : Request} {e : Failure}
    (h : route settings sv d (requestId req.suppliedId d.uuid) req.credentials req.target =
      (sv, .error e)) : RowStep settings sv k x (.http d req) := by
  refine .keep ?_ (handsOut_of_nil k ?_)
  · simp only [step, serve, h, hx]
  · simp only [serve, h, items_error]

omit [Pydantic] in
theorem claimed_of_item {d : Draw} {id : String}
    {body : { body : DeliveryClaimRequest // body.valid = true }} {item : ClaimedDeliveryResponse}
    (h : item ∈ (respond id (claimDeliveries settings sv d body).2).items) :
    ∃ y ∈ (claim sv.store.deliveries (claimOf settings d body.val)).2,
      claimedDelivery y = some item := by
  simp only [claimDeliveries] at h
  split at h
  · rename_i items hitems
    exact (mem_of_mapM hitems).mp h
  · rw [items_error] at h
    exact absurd h List.not_mem_nil

/-- The function that a request with a body calls, if it does not fail. -/
theorem route_claim (settings : Settings) (sv : State) (d : Draw) (id : String)
    {req : Request} {b : Body} (htarget : req.target = .claimDeliveries b) :
    (∃ e, route settings sv d id req.credentials req.target = (sv, .error e)) ∨
      ∃ body, ClaimRequested req body ∧
        route settings sv d id req.credentials req.target = claimDeliveries settings sv d body := by
  rw [htarget]
  rcases withBody_eq settings sv req.credentials b
    (fun fields => checked DeliveryClaimRequest.valid (DeliveryClaimRequest.ofJson fields))
    (claimDeliveries settings sv d) with he | ⟨fields, body, rfl, hbody, -, heq⟩
  · exact Or.inl he
  · exact Or.inr ⟨body, ⟨fields, htarget, hbody⟩, heq⟩

theorem rowStep_claim (hx : sv.store.deliveries.get k = some x) {d : Draw} {req : Request}
    {b : Body} (htarget : req.target = .claimDeliveries b) :
    RowStep settings sv k x (.http d req) := by
  rcases route_claim settings sv d (requestId req.suppliedId d.uuid) htarget with ⟨e, he⟩ |
    ⟨body, hreq, hroute⟩
  · exact rowStep_failed hx he
  · have hget : (step settings sv (.http d req)).store.deliveries.get k =
        (claim sv.store.deliveries (claimOf settings d body.val)).1.get k := by
      simp only [step, serve, hroute, claimDeliveries]
    by_cases hret : Returns sv.store.deliveries k (.claim (claimOf settings d body.val))
    · obtain ⟨y, hy, rfl⟩ := hret
      obtain ⟨x', hx', hdue, -, -, hleased⟩ := mem_returned hy
      rw [hx, Option.some_inj] at hx'
      subst hx'
      exact .claim body hreq hdue (hget.trans hleased)
    · refine .keep ?_ ?_
      · rw [hget, get_claim, hx]
        rw [returns_claim] at hret
        simp only [Option.map_some, if_neg hret]
      · by_contra hout
        rw [Bool.not_eq_false] at hout
        simp only [handsOut, serve, hroute, List.any_eq_true, decide_eq_true_eq] at hout
        obtain ⟨item, hitem, hk⟩ := hout
        obtain ⟨y, hy, hconv⟩ := claimed_of_item hitem
        obtain ⟨-, heq⟩ := claimedDelivery_eq_some hconv
        exact hret ⟨y, hy, by rw [← hk, heq]⟩

theorem route_ack (settings : Settings) (sv : State) (d : Draw) (id : String) {req : Request}
    {deliveryId : String} {b : Body}
    (htarget : req.target = .ackDelivery deliveryId b) :
    (∃ e, route settings sv d id req.credentials req.target = (sv, .error e)) ∨
      ∃ body r, AckRequested req deliveryId body ∧
        Deliveries.Outbox.ack sv.store.deliveries (ackOf d deliveryId body.val) = .ok r ∧
        route settings sv d id req.credentials req.target =
          (withDeliveries sv r.1, .ok (.status (deliveryStatus r.2))) := by
  rw [htarget]
  rcases withBody_eq settings sv req.credentials b
    (fun fields => checked DeliveryAckRequest.valid (DeliveryAckRequest.ofJson fields))
    (ackDelivery sv d deliveryId) with he | ⟨fields, body, rfl, hbody, -, heq⟩
  · exact Or.inl he
  · cases hack : Deliveries.Outbox.ack sv.store.deliveries (ackOf d deliveryId body.val) with
    | error e =>
      simp only [ackDelivery, hack] at heq
      exact Or.inl ⟨_, heq⟩
    | ok r =>
      simp only [ackDelivery, hack] at heq
      exact Or.inr ⟨body, r, ⟨fields, htarget, hbody⟩, hack, heq⟩

theorem route_fail (settings : Settings) (sv : State) (d : Draw) (id : String) {req : Request}
    {deliveryId : String} {b : Body}
    (htarget : req.target = .failDelivery deliveryId b) :
    (∃ e, route settings sv d id req.credentials req.target = (sv, .error e)) ∨
      ∃ body r, FailRequested req deliveryId body ∧
        fail settings.deliveryMaxAttempts sv.store.deliveries
          (failOf d deliveryId body.val) = .ok r ∧
        route settings sv d id req.credentials req.target =
          (withDeliveries sv r.1, .ok (.status (deliveryStatus r.2))) := by
  rw [htarget]
  rcases withBody_eq settings sv req.credentials b
    (fun fields => checked DeliveryFailRequest.valid (DeliveryFailRequest.ofJson fields))
    (failDelivery settings sv d deliveryId) with he | ⟨fields, body, rfl, hbody, -, heq⟩
  · exact Or.inl he
  · cases hfail : fail settings.deliveryMaxAttempts sv.store.deliveries
      (failOf d deliveryId body.val) with
    | error e =>
      simp only [failDelivery, hfail] at heq
      exact Or.inl ⟨_, heq⟩
    | ok r =>
      simp only [failDelivery, hfail] at heq
      exact Or.inr ⟨body, r, ⟨fields, htarget, hbody⟩, hfail, heq⟩

theorem reported {d : Draw} {req : Request} {t : Deliveries} {y : DeliveryStatusResponse}
    (h : route settings sv d (requestId req.suppliedId d.uuid) req.credentials req.target =
      (withDeliveries sv t, .ok (.status y))) (k : String) :
    (step settings sv (.http d req)).store.deliveries = t ∧
      handsOut settings k sv (.http d req) = false := by
  refine ⟨?_, handsOut_of_nil k ?_⟩
  · simp only [step, serve, h, withDeliveries]
  · simp only [serve, h]
    rfl

theorem rowStep_ack (hx : sv.store.deliveries.get k = some x) {d : Draw} {req : Request}
    {deliveryId : String} {b : Body} (htarget : req.target = .ackDelivery deliveryId b) :
    RowStep settings sv k x (.http d req) := by
  rcases route_ack settings sv d (requestId req.suppliedId d.uuid) htarget with ⟨e, he⟩ |
    ⟨body, r, hreq, hack, hroute⟩
  · exact rowStep_failed hx he
  · obtain ⟨hstep, hout⟩ := reported hroute k
    obtain ⟨x', hx', hholds, -, hall⟩ := ack_eq_ok hack
    by_cases hk : k = deliveryId
    · subst hk
      obtain rfl := Option.some_inj.mp (hx.symm.trans hx')
      refine .ack body hreq hholds ?_
      rw [hstep, hall]
      exact if_pos rfl
    · refine .keep ?_ hout
      rw [hstep, hall]
      exact (if_neg hk).trans hx

theorem rowStep_fail (hx : sv.store.deliveries.get k = some x) {d : Draw} {req : Request}
    {deliveryId : String} {b : Body} (htarget : req.target = .failDelivery deliveryId b) :
    RowStep settings sv k x (.http d req) := by
  rcases route_fail settings sv d (requestId req.suppliedId d.uuid) htarget with ⟨e, he⟩ |
    ⟨body, r, hreq, hfail, hroute⟩
  · exact rowStep_failed hx he
  · obtain ⟨hstep, hout⟩ := reported hroute k
    obtain ⟨x', hx', hholds, -, hall⟩ := fail_eq_ok hfail
    by_cases hk : k = deliveryId
    · subst hk
      obtain rfl := Option.some_inj.mp (hx.symm.trans hx')
      refine .fail body hreq hholds ?_
      rw [hstep, hall]
      exact if_pos rfl
    · refine .keep ?_ hout
      rw [hstep, hall]
      exact (if_neg hk).trans hx

/-- **What an action does to a stored delivery.** -/
theorem row_cases (settings : Settings) (hx : sv.store.deliveries.get k = some x)
    (action : Action) :
    RowStep settings sv k x action := by
  have hsame : ∀ {action : Action}, (step settings sv action).store.deliveries =
      sv.store.deliveries →
      handsOut settings k sv action = false → RowStep settings sv k x action :=
    fun h hout => .keep (by rw [h, hx]) hout
  cases action with
  | upsert a =>
    refine hsame ?_ rfl
    simp only [step]
    cases upsert sv.publishers a <;> rfl
  | tool op =>
    refine hsame ?_ rfl
    obtain ⟨op, htool⟩ := op
    exact (sameOutbox_step sv.store (by cases op <;> first | rfl | cases htool)).deliveries
  | http d req =>
    have hcases := route_cases settings sv d (requestId req.suppliedId d.uuid)
      req.credentials req.target
    by_cases hkind : req.target.kind ∈ [Kind.publish, .claim, .ack, .fail]
    · cases htarget : req.target with
      | claimDeliveries b => exact rowStep_claim hx htarget
      | ackDelivery deliveryId b => exact rowStep_ack hx htarget
      | failDelivery deliveryId b => exact rowStep_fail hx htarget
      | publishEvent b =>
        rcases publishes_cases settings sv d
          (by rw [htarget]; rfl : req.target.kind = .publish) with
          ⟨e, he⟩ | ⟨c, r, h⟩
        · exact rowStep_failed hx he
        · refine .keep ?_ (handsOut_of_nil k (by simp only [Response.items, h.payload]))
          have hstep : (step settings sv (.http d req)).store.deliveries = r.1.deliveries := by
            simp only [step, h.state]
          rcases publishes_deliveries h k with hsame | ⟨hnone, -⟩
          · rw [hstep, hsame, hx]
          · rw [hx] at hnone
            cases hnone
      | _ =>
        rw [htarget] at hkind
        simp [Target.kind] at hkind
    · refine hsame (hcases.sameOutbox hkind).deliveries (handsOut_of_nil k ?_)
      by_cases hread : req.target.kind = .read
      · exact items_of_read hread
      · exact hcases.items_nil (by simp_all)

end Cases

/-! ### While nobody reports -/

/-- The action neither claims after the time `until_` nor presents a token with the digest for
`k`. -/
def Silent (k hash : String) (until_ : Time) : Action → Prop
  | .http d req => (∀ body, ClaimRequested req body → d.now ≤ until_) ∧
      (∀ body, AckRequested req k body → tokenHash body.val.leaseToken ≠ hash) ∧
      ∀ body, FailRequested req k body → tokenHash body.val.leaseToken ≠ hash
  | _ => True

section Quiet

variable {settings : Settings} {sv : State} {k : String} {x : Delivery}

/-- The delivery stays as it is, and is handed out to nobody, as long as every action leaves it
so. -/
theorem quiet_run (settings : Settings) {Q : Action → Prop}
    (hkeep : ∀ sv action, sv.store.deliveries.get k = some x → Q action →
      (step settings sv action).store.deliveries.get k = some x ∧
        handsOut settings k sv action = false)
    (hx : sv.store.deliveries.get k = some x) (actions : List Action)
    (hQ : ∀ action ∈ actions, Q action) :
    (run (step settings) sv actions).store.deliveries.get k = some x ∧
      tally (step settings) (handsOut settings k) sv actions = 0 := by
  induction actions generalizing sv with
  | nil => exact ⟨hx, rfl⟩
  | cons action actions ih =>
    rw [List.forall_mem_cons] at hQ
    obtain ⟨hget, hout⟩ := hkeep sv action hx hQ.1
    obtain ⟨hrun, htally⟩ := ih hget hQ.2
    refine ⟨hrun, ?_⟩
    rw [tally, hout, htally]
    rfl

theorem silent_keep {hash : String} {until_ : Time} (hx : sv.store.deliveries.get k = some x)
    (hstatus : x.status = .leased) (hhash : x.leaseTokenHash = some hash)
    (huntil : x.leaseUntil = some until_) {action : Action} (hs : Silent k hash until_ action) :
    (step settings sv action).store.deliveries.get k = some x ∧
      handsOut settings k sv action = false := by
  cases row_cases settings hx action with
  | keep h hout => exact ⟨h, hout⟩
  | claim body hreq hdue _ =>
    have hle := hs.1 body hreq
    simp only [eligible, hstatus, leaseOver, huntil] at hdue
    simp at hdue
    exact absurd hdue (not_lt.mpr hle)
  | ack body hreq hholds _ =>
    have h := tokenHash_of_holdsLease hholds
    rw [hhash, Option.some_inj] at h
    exact absurd h.symm (hs.2.1 body hreq)
  | fail body hreq hholds _ =>
    have h := tokenHash_of_holdsLease hholds
    rw [hhash, Option.some_inj] at h
    exact absurd h.symm (hs.2.2 body hreq)

theorem sent_keep (hx : sv.store.deliveries.get k = some x) (hstatus : x.status = .sent)
    (action : Action) : (step settings sv action).store.deliveries.get k = some x ∧
      handsOut settings k sv action = false := by
  cases row_cases settings hx action with
  | keep h hout => exact ⟨h, hout⟩
  | claim body _ hdue _ => simp [eligible, hstatus] at hdue
  | ack body _ hholds _ =>
    rw [status_of_holdsLease hholds] at hstatus
    cases hstatus
  | fail body _ hholds _ =>
    rw [status_of_holdsLease hholds] at hstatus
    cases hstatus

end Quiet

/-! ### A report in time -/

section Report

variable {settings : Settings} {sv : State}

omit [Runtime] in
theorem claimRequested_unique {req : Request}
    {body body' : { body : DeliveryClaimRequest // body.valid = true }}
    (h : ClaimRequested req body) (h' : ClaimRequested req body') : body = body' := by
  obtain ⟨fields, htarget, hbody⟩ := h
  obtain ⟨fields', htarget', hbody'⟩ := h'
  rw [htarget] at htarget'
  cases htarget'
  rw [hbody] at hbody'
  exact Option.some_inj.mp hbody'

theorem leased_of_item {d : Draw} {req : Request} {item : ClaimedDeliveryResponse}
    (h : item ∈ (serve settings sv d req).2.items) : ∃ body x, ClaimRequested req body ∧
      x.deliveryId = item.deliveryId ∧ item.leaseToken = d.token item.deliveryId ∧
      item.attempt = x.attempts + 1 ∧
      (step settings sv (.http d req)).store.deliveries.get item.deliveryId =
        some ((claimOf settings d body.val).lease x) := by
  have hcases := route_cases settings sv d (requestId req.suppliedId d.uuid)
    req.credentials req.target
  have hkind : req.target.kind = .claim := by
    by_contra hkind
    by_cases hread : req.target.kind = .read
    · rw [items_of_read hread] at h
      exact absurd h List.not_mem_nil
    · have hnil : (serve settings sv d req).2.items = [] := hcases.items_nil (by simp_all)
      rw [hnil] at h
      exact absurd h List.not_mem_nil
  obtain ⟨b, htarget⟩ : ∃ b, req.target = .claimDeliveries b := by
    cases htarget : req.target with
    | claimDeliveries b => exact ⟨b, rfl⟩
    | _ =>
      rw [htarget] at hkind
      cases hkind
  rcases route_claim settings sv d (requestId req.suppliedId d.uuid) htarget with ⟨e, he⟩ |
    ⟨body, hreq, hroute⟩
  · simp only [serve, he, items_error] at h
    exact absurd h List.not_mem_nil
  · simp only [serve, hroute] at h
    obtain ⟨y, hy, hconv⟩ := claimed_of_item h
    obtain ⟨-, hitem⟩ := claimedDelivery_eq_some hconv
    obtain ⟨x, hx, -, -, hclaimed, hleased⟩ := mem_returned hy
    have hid : item.deliveryId = y.deliveryId := by rw [hitem]
    have hkey : x.deliveryId = y.deliveryId := Table.key_of_get hx
    refine ⟨body, x, hreq, hkey.trans hid.symm, ?_, ?_, ?_⟩
    · rw [hid, hitem, ← hkey, hclaimed]
      rfl
    · rw [hitem, hclaimed]
      rfl
    · rw [hid]
      simp only [step, serve, hroute, claimDeliveries]
      exact hleased

theorem ack_in_time {k : String} {x : Delivery} (hx : sv.store.deliveries.get k = some x) {d : Draw}
    {req : Request} {body : { body : DeliveryAckRequest // body.valid = true }}
    (hreq : AckRequested req k body) (hauth : requireServiceAuth settings req.credentials = .ok ())
    (hholds : holdsLease x body.val.leaseToken d.now = true) :
    (step settings sv (.http d req)).store.deliveries.get k = some ((ackOf d k body.val).apply x) ∧
      (serve settings sv d req).2.status = 200 ∧ (serve settings sv d req).2.payload =
        .status (deliveryStatus ((ackOf d k body.val).apply x)) := by
  obtain ⟨fields, htarget, hbody⟩ := hreq
  have hleased : leased sv.store.deliveries k body.val.leaseToken d.now = .ok x :=
    leased_eq_ok.mpr ⟨hx, hholds⟩
  obtain ⟨r, hack⟩ := exists_ack (a := ackOf d k body.val) hleased
  obtain ⟨x', hx', -, hrow, hall⟩ := ack_eq_ok hack
  obtain rfl := Option.some_inj.mp (hx.symm.trans hx')
  have hroute : route settings sv d (requestId req.suppliedId d.uuid) req.credentials req.target =
      (withDeliveries sv r.1, .ok (.status (deliveryStatus r.2))) := by
    rw [htarget]
    simp only [route, withBody, readBody, authenticated, hauth, validated, hbody, ackDelivery, hack]
    rfl
  refine ⟨?_, ?_, ?_⟩
  · rw [(reported hroute k).1, hall]
    exact if_pos rfl
  · simp only [serve, hroute]
    rfl
  · simp only [serve, hroute, respond, hrow]

/-- **A report in time is accepted.** A response has handed out a delivery; before its lease ends,
and before anybody else has presented its token, the worker acknowledges it. Whatever the server has
been asked for in between, and will be asked for: the answer is 200, the delivery is sent with the
attempt that the worker was told, and it is handed out neither in between nor ever again. -/
theorem acknowledged (settings : Settings) (sv : State) {d d' : Draw} {req req' : Request}
    {item : ClaimedDeliveryResponse} (hitem : item ∈ (serve settings sv d req).2.items)
    {claimed : { body : DeliveryClaimRequest // body.valid = true }}
    (hclaim : ClaimRequested req claimed) {mid : List Action}
    (hmid : ∀ action ∈ mid, Silent item.deliveryId (tokenHash item.leaseToken)
      (d.now + seconds (leaseSeconds settings claimed.val)) action)
    {report : { body : DeliveryAckRequest // body.valid = true }}
    (hreport : AckRequested req' item.deliveryId report)
    (htoken : report.val.leaseToken = item.leaseToken)
    (hauth : requireServiceAuth settings req'.credentials = .ok ())
    (htime : d'.now < d.now + seconds (leaseSeconds settings claimed.val)) (post : List Action) :
    let sv₁ := step settings sv (.http d req)
    let r := serve settings (run (step settings) sv₁ mid) d' req'
    tally (step settings) (handsOut settings item.deliveryId) sv₁ mid = 0 ∧
      (r.2.status = 200 ∧ ∃ t, r.2.payload = .status ⟨item.deliveryId, .sent, item.attempt, t⟩) ∧
      tally (step settings) (handsOut settings item.deliveryId) r.1 post = 0 ∧
      ∃ x, (run (step settings) r.1 post).store.deliveries.get item.deliveryId = some x ∧
        x.status = .sent ∧ x.attempts = item.attempt := by
  intro sv₁ r
  obtain ⟨body, x, hreq, hid, htok, hattempt, hget⟩ := leased_of_item hitem
  obtain rfl := claimRequested_unique hreq hclaim
  have htokenHash : tokenHash item.leaseToken =
      tokenHash ((claimOf settings d body.val).token x.deliveryId) := by
    rw [htok, hid]
    rfl
  obtain ⟨hrow, hmidtally⟩ := quiet_run settings (fun sv action hx hs =>
    silent_keep hx rfl (congrArg some htokenHash.symm) rfl hs) hget mid hmid
  have hholds : holdsLease ((claimOf settings d body.val).lease x) report.val.leaseToken
      d'.now = true := by
    rw [holdsLease_lease, htoken, htokenHash]
    exact ⟨htime, rfl⟩
  obtain ⟨hafter, hstatus, hpayload⟩ := ack_in_time hrow hreport hauth hholds
  obtain ⟨hfinal, hposttally⟩ := quiet_run settings (Q := fun _ => True)
    (fun sv action hx _ => sent_keep hx rfl action) hafter post fun _ _ => trivial
  refine ⟨hmidtally, ⟨hstatus, x.nextAttemptAt, hpayload.trans ?_⟩, hposttally, _, hfinal,
    rfl, hattempt.symm⟩
  rw [hattempt, ← hid]
  rfl

end Report

section Sample

omit [Runtime] [Pydantic]

def sampleAck : Request where
  credentials := sampleCredentials "internal-token-0123456789"
  target := .ackDelivery "d-alice" (.json (.obj [("lease_token", .str "lease-token-of-d-alice")]))

theorem sampleClaim_valid :
    DeliveryClaimRequest.valid { workerId := "w-1", platform := "qqbot", limit := 10 } =
      true := by decide

theorem sampleAck_valid : DeliveryAckRequest.valid { leaseToken := "lease-token-of-d-alice" } =
    true := by
  decide

/-- The sample server after the claim. -/
def sampleLeased : State :=
  @step sampleRuntime sampleEpoch sampleSettings samplePublished (.http sampleDraw sampleClaim)

/-- The sample server after another claim, and its answer to the acknowledgement. -/
def sampleAcked : State × Response :=
  @serve sampleRuntime sampleEpoch sampleSettings
    (run (@step sampleRuntime sampleEpoch sampleSettings) sampleLeased
      [.http sampleDraw sampleClaim])
    sampleDraw sampleAck

/-- The worker acknowledges the delivery for `alice`. -/
theorem acknowledged_sample : ∃ item ∈ sampleClaimed,
    tally (@step sampleRuntime sampleEpoch sampleSettings)
        (@handsOut sampleRuntime sampleEpoch sampleSettings item.deliveryId) sampleLeased
        [.http sampleDraw sampleClaim] = 0 ∧
      (sampleAcked.2.status = 200 ∧
        ∃ t, sampleAcked.2.payload = .status ⟨item.deliveryId, .sent, item.attempt, t⟩) ∧
      tally (@step sampleRuntime sampleEpoch sampleSettings)
        (@handsOut sampleRuntime sampleEpoch sampleSettings item.deliveryId) sampleAcked.1
        [.http sampleDraw sampleClaim] = 0 ∧
      ∃ x, (run (@step sampleRuntime sampleEpoch sampleSettings) sampleAcked.1
          [.http sampleDraw sampleClaim]).store.deliveries.get item.deliveryId = some x ∧
        x.status = .sent ∧ x.attempts = item.attempt := by
  have hitems : sampleClaimed.map (fun item => (item.deliveryId, item.leaseToken)) =
      [("d-alice", "lease-token-of-d-alice")] := by decide
  obtain ⟨item, hitem, hitem'⟩ := List.mem_map.mp (hitems ▸ List.mem_cons_self :
    ("d-alice", "lease-token-of-d-alice") ∈ _)
  obtain ⟨hid, htoken⟩ := Prod.mk.inj hitem'
  refine ⟨item, hitem, @acknowledged sampleRuntime sampleEpoch sampleSettings
    samplePublished sampleDraw sampleDraw sampleClaim sampleAck item hitem ⟨_, sampleClaim_valid⟩
    ⟨_, rfl, rfl⟩ [.http sampleDraw sampleClaim] ?_ ⟨_, sampleAck_valid⟩ ?_ htoken.symm ?_ ?_
    [.http sampleDraw sampleClaim]⟩
  · intro action haction
    rw [List.mem_singleton.mp haction]
    refine ⟨fun _ _ => by decide, ?_, ?_⟩
    · rintro body ⟨fields, htarget, -⟩
      cases htarget
    · rintro body ⟨fields, htarget, -⟩
      cases htarget
  · rw [hid]
    exact ⟨_, rfl, rfl⟩
  · rfl
  · decide

end Sample

end EventServer.Api.App
