import EventServer.Core.MatchKeys
import EventServer.Services.Users

/-! # Subscriptions

`services/subscriptions.py`: a subscription is stored under the canonical key of its event type,
which is found directly or through an alias; its match keys are normalized and must be declared by
the event type as it is at that moment. -/

namespace EventServer.Services.Subscriptions

open EventServer.Db EventServer.Python EventServer.Core.MatchKeys EventServer.Services.Users

def resolveEvent (s : Store) (eventKey : String) : Except Raised EventType :=
  let event := match s.eventTypes.get eventKey with
    | some event => some event
    | none =>
      match s.eventAliases.get eventKey with
      | some eventAlias => s.eventTypes.get eventAlias.eventKey
      | none => none
  match event with
  | none => .error (.eventNotFoundError eventKey)
  | some event =>
    if event.enabled ∧ event.subscribable then .ok event
    else .error (.eventNotFoundError eventKey)

def listSubscriptions (s : Store) (platform openid : String) : List Subscription :=
  (s.subscriptions.rows.filter fun r => r.platform = platform ∧ r.openid = openid).insertionSort
    fun a b => a.eventKey ≤ b.eventKey

/-- The condition of `subscribe` and `unsubscribe` on the caller. -/
def activeCommand (s : Store) (platform openid : String) : Bool :=
  let snapshot := permissionSnapshot s platform openid
  snapshot.accountStatus = .known .active && snapshot.command

structure Subscribe where
  platform : String
  openid : String
  eventKey : String
  matchKeys : Option (List String) := none

/-- The subscription as stored, whether it is new, and whether its match keys changed. -/
structure Subscribed where
  item : Subscription
  created : Bool
  updated : Bool
  deriving DecidableEq

variable [Runtime]

/-- The match keys a subscription to `event` asks for, checked against the catalog. -/
def requestedMatchKeys (event : EventType) (matchKeys : Option (List String)) :
    Except Raised (List String) :=
  match normalizeMatchKeys (matchKeys.map (·.map .str)) with
  | .error e => .error (.invalidMatchKeyError e)
  | .ok requested =>
    match ensureMatchKeysAllowed requested (allowedMatchKeys event.matchKeyOptions) with
    | .error e => .error (.invalidMatchKeyError e)
    | .ok () =>
      if event.matchKeysRequired ∧ requested = [] then
        .error (.invalidMatchKeyError (event.eventKey ++ " requires at least one match key"))
      else .ok requested

def subscribe (s : Store) (a : Subscribe) : Except Raised (Store × Subscribed) :=
  if activeCommand s a.platform a.openid then
    match resolveEvent s a.eventKey with
    | .error e => .error e
    | .ok event =>
      match requestedMatchKeys event a.matchKeys with
      | .error e => .error e
      | .ok requested =>
        match s.subscriptions.get (a.platform, a.openid, event.eventKey) with
        | some existing =>
          let item := { existing with matchKeys := requested }
          .ok ({ s with subscriptions := s.subscriptions.put item },
            ⟨item, false, existing.matchKeys ≠ requested⟩)
        | none =>
          let item : Subscription :=
            { platform := a.platform, openid := a.openid, eventKey := event.eventKey,
              matchKeys := requested }
          .ok ({ s with subscriptions := s.subscriptions.put item }, ⟨item, true, false⟩)
  else .error (.authorizationError "active command permission is required")

structure Unsubscribe where
  platform : String
  openid : String
  eventKey : String

omit [Runtime] in
/-- The key whose subscription is removed: the event key itself if it does not resolve. -/
def canonicalKey (s : Store) (eventKey : String) : String :=
  match resolveEvent s eventKey with
  | .ok event => event.eventKey
  | .error _ => eventKey

omit [Runtime] in
def unsubscribe (s : Store) (a : Unsubscribe) : Except Raised (Store × Bool) :=
  if activeCommand s a.platform a.openid then
    let key := (a.platform, a.openid, canonicalKey s a.eventKey)
    match s.subscriptions.get key with
    | none => .ok (s, false)
    | some _ => .ok ({ s with subscriptions := s.subscriptions.erase key }, true)
  else .error (.authorizationError "active command permission is required")

end EventServer.Services.Subscriptions
