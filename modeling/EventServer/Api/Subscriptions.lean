import EventServer.Auth.Publisher
import EventServer.Services.Subscriptions

/-! # The subscription API

`api/subscriptions.py`: the two commands of `services/subscriptions.py` as requests, each committed
with an audit entry. -/

namespace EventServer.Api.Subscriptions

open EventServer.Db EventServer.Python EventServer.Auth.Publisher EventServer.Services.Subscriptions
open EventServer.Services.Users (maskIdentifier)

structure SubscriptionRequest where
  eventKey : String
  matchKeys : List String := []

/-- The constraints on the fields. -/
def SubscriptionRequest.valid (body : SubscriptionRequest) : Bool :=
  3 ≤ body.eventKey.length && body.eventKey.length ≤ 128 && body.matchKeys.length ≤ 32

/-- A call of `add_subscription`. -/
structure AddSubscription where
  platform : String := "qqbot"
  openid : String
  body : { body : SubscriptionRequest // body.valid = true }
  requestId : Option String := none

structure SubscriptionResponse where
  eventKey : String
  locale : String
  matchKeys : List String
  created : Bool
  updated : Bool

def AddSubscription.audit (a : AddSubscription) (r : Subscribed) : AuditLog where
  actorPlatform := some a.platform
  actorOpenidMasked := maskIdentifier (some a.openid)
  targetType := "subscription"
  targetIdMasked := maskIdentifier (some a.openid)
  action := if r.created then "subscribe" else "update_subscription"
  result := "success"
  requestId := a.requestId
  details := .obj [("event_key", .str r.item.eventKey),
    ("match_keys", .arr (r.item.matchKeys.map .str))]

/-- A call of `remove_subscription`. -/
structure RemoveSubscription where
  platform : String := "qqbot"
  openid : String
  eventKey : String
  requestId : Option String := none

structure DeleteSubscriptionResponse where
  eventKey : String
  deleted : Bool

def RemoveSubscription.audit (a : RemoveSubscription) (deleted : Bool) : AuditLog where
  actorPlatform := some a.platform
  actorOpenidMasked := maskIdentifier (some a.openid)
  targetType := "subscription"
  targetIdMasked := maskIdentifier (some a.openid)
  action := "unsubscribe"
  result := if deleted then "success" else "noop"
  requestId := a.requestId
  details := .obj [("event_key", .str a.eventKey)]

/-- `remove_subscription`. -/
def removeSubscription (s : Store) (a : RemoveSubscription) :
    Except ApiError (Store × DeleteSubscriptionResponse) :=
  match unsubscribe s ⟨a.platform, a.openid, a.eventKey⟩ with
  | .error (.authorizationError message) => .error (.http 403 message)
  | .error e => .error (.raised e)
  | .ok (s, deleted) =>
    .ok ({ s with auditLogs := s.auditLogs ++ [a.audit deleted] }, ⟨a.eventKey, deleted⟩)

/-- `add_subscription`. -/
def addSubscription [Runtime] (s : Store) (a : AddSubscription) :
    Except ApiError (Store × SubscriptionResponse) :=
  match subscribe s ⟨a.platform, a.openid, a.body.val.eventKey, some a.body.val.matchKeys⟩ with
  | .error (.authorizationError message) => .error (.http 403 message)
  | .error (.invalidMatchKeyError message) => .error (.http 400 message)
  | .error (.eventNotFoundError _) => .error (.http 404 "event is not available")
  | .error e => .error (.raised e)
  | .ok (s, r) =>
    .ok ({ s with auditLogs := s.auditLogs ++ [a.audit r] },
      ⟨r.item.eventKey, r.item.locale, r.item.matchKeys, r.created, r.updated⟩)

theorem addSubscription_ok [Runtime] {s : Store} {a : AddSubscription}
    {x : Store × SubscriptionResponse} (h : addSubscription s a = .ok x) : ∃ y,
      subscribe s ⟨a.platform, a.openid, a.body.val.eventKey, some a.body.val.matchKeys⟩ = .ok y ∧
        x.1 = { y.1 with auditLogs := y.1.auditLogs ++ [a.audit y.2] } := by
  unfold addSubscription at h
  cases hs : subscribe s ⟨a.platform, a.openid, a.body.val.eventKey, some a.body.val.matchKeys⟩ with
  | error e => cases e <;> simp [hs] at h
  | ok y =>
    rw [hs] at h
    cases h
    exact ⟨y, rfl, rfl⟩

theorem removeSubscription_ok {s : Store} {a : RemoveSubscription}
    {x : Store × DeleteSubscriptionResponse} (h : removeSubscription s a = .ok x) : ∃ y,
      unsubscribe s ⟨a.platform, a.openid, a.eventKey⟩ = .ok y ∧
        x.1 = { y.1 with auditLogs := y.1.auditLogs ++ [a.audit y.2] } := by
  unfold removeSubscription at h
  cases hs : unsubscribe s ⟨a.platform, a.openid, a.eventKey⟩ with
  | error e => cases e <;> simp [hs] at h
  | ok y =>
    rw [hs] at h
    cases h
    exact ⟨y, rfl, rfl⟩

end EventServer.Api.Subscriptions
