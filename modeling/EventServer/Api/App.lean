import EventServer.Api.Bodies
import EventServer.Api.PublishErrors

/-! # The application

`main.py`, `auth/service.py`, `api/errors.py` and the functions of `api/`: one HTTP request after
the other on the committed state. The framework reads the body, authenticates the caller, validates
the body and calls the function, in this order; what ends the request is turned into a response,
which carries the id of the request. -/

namespace EventServer.Api.App

open EventServer.Db EventServer.Lib EventServer.Python EventServer.System
open EventServer.Auth.Publisher EventServer.Api.Publish EventServer.Api.Subscriptions
open EventServer.Api.Bodies EventServer.Api.Server EventServer.CatalogAdmin
  EventServer.PublisherAdmin
open EventServer.Services.Users EventServer.Services.Pairing EventServer.Services.Subscriptions
open EventServer.Deliveries.Outbox

/-- The settings of `config.py` the application depends on, within their bounds. -/
structure Settings where
  internalApiToken : String := ""
  deliveryMaxAttempts : ℕ := 5
  deliveryDefaultLeaseSeconds : ℤ := 60
  publishing : Publish.Settings := {}
  token : internalApiToken = "" ∨ 24 ≤ internalApiToken.length := by decide
  attempts : 1 ≤ deliveryMaxAttempts ∧ deliveryMaxAttempts ≤ 20 := by decide
  lease : 10 ≤ deliveryDefaultLeaseSeconds ∧ deliveryDefaultLeaseSeconds ≤ 600 := by decide

/-! ### Requests and responses -/

/-- The routes of the application. -/
inductive Target where
  | health
  /-- Whether the database answers. -/
  | ready (reachable : Bool)
  | metrics
  | listEvents
  | getPermission (openid : String) (platform : Option String)
  | grantPermissions (openid : String) (platform : Option String) (body : Body)
  | revokePermissions (openid : String) (platform : Option String) (body : Body)
  | updateRole (openid : String) (platform : Option String) (body : Body)
  | getSubscriptions (openid : String) (platform : Option String)
  | addSubscription (openid : String) (platform : Option String) (body : Body)
  | removeSubscription (openid eventKey : String) (platform : Option String)
  | newPairingCode (body : Body)
  | approveCode (code : String) (body : Body)
  | claimDeliveries (body : Body)
  | ackDelivery (deliveryId : String) (body : Body)
  | failDelivery (deliveryId : String) (body : Body)
  | publishEvent (body : Body)
  /-- No route has the path, or none with the method. -/
  | unmatched (methodNotAllowed : Bool)

structure Request where
  /-- The `Authorization` header. -/
  credentials : Option Credentials := none
  /-- The `X-Request-ID` header. -/
  suppliedId : String := ""
  target : Target

/-- What a request draws: readings of the clock, random values, and what is up to the database. -/
structure Draw where
  /-- `str(uuid4())` for the request. -/
  uuid : String
  uuid_length : uuid.length = 36 := by decide
  now : Time
  /-- The reading for the rows that a publication stores. -/
  storedAt : Time
  /-- `str(uuid4())` for the event. -/
  eventId : String
  deliveryId : String → String → String
  code : String
  token : String → String
  tie : String → ℕ := fun _ => 0
  order : String → ℕ := fun _ => 0
  /-- What the database stores for a `datetime` of a request. -/
  stored : DateTime → Time

structure EventResponse where
  eventKey : String
  displayName : String
  description : String
  schemaVersion : ℤ
  deprecated : Bool
  matchKeyField : Option String
  matchKeysRequired : Bool
  matchKeyOptions : List MatchKeyOption

/-- An item of the list of subscriptions. -/
structure SubscriptionItem where
  eventKey : String
  locale : String
  matchKeys : List String
  deriving DecidableEq

structure ClaimedDeliveryResponse where
  deliveryId : String
  leaseToken : String
  eventId : String
  eventKey : String
  platform : String
  openid : String
  message : JsonObject
  attempt : ℕ
  createdAt : Time

structure DeliveryStatusResponse where
  deliveryId : String
  status : DeliveryStatus
  attempts : ℕ
  nextAttemptAt : Time
  deriving DecidableEq

/-- The content of a response. -/
inductive Payload where
  | alive
  | databaseReady
  /-- The counters of `prometheus_client`. -/
  | metrics
  | events (items : List EventResponse)
  | permission (snapshot : PermissionSnapshot)
  | subscriptions (items : List SubscriptionItem)
  | subscription (r : SubscriptionResponse)
  | deleteSubscription (r : DeleteSubscriptionResponse)
  | pairingCode (code : String) (expiresAt : Time)
  | claim (items : List ClaimedDeliveryResponse)
  | status (r : DeliveryStatusResponse)
  | published (r : PublishEventResponse)
  /-- An `ErrorResponse`. -/
  | error (code message requestId : String)
  /-- The error of the framework itself. -/
  | detail (message : String)
  | text (message : String)

structure Response where
  status : ℕ
  payload : Payload
  /-- The `X-Request-ID` header. -/
  requestId : Option String

/-- An exception without a handler. -/
inductive Unhandled where
  | typeError
  | overflowError
  /-- A model refuses the fields it is given. -/
  | validationError
  | raised (e : Raised)
  deriving DecidableEq

/-- What ends a request in place of a payload. -/
inductive Failure where
  | httpException (status : ℕ) (detail : String)
  | requestValidationError
  | unmatched (methodNotAllowed : Bool)
  | unhandled (e : Unhandled)
  deriving DecidableEq

/-- The state a request commits, and what it ends with. -/
abbrev Reply := State × Except Failure Payload

/-! ### `api/errors.py` and `request_context` -/

/-- The dictionary of `http_exception_handler`. -/
def httpCode : ℕ → String
  | 401 => "UNAUTHORIZED"
  | 403 => "FORBIDDEN"
  | 404 => "NOT_FOUND"
  | 409 => "CONFLICT"
  | 503 => "NOT_READY"
  | _ => "HTTP_ERROR"

/-- `supplied[:64] if supplied else str(uuid4())`. -/
def requestId (supplied uuid : String) : String :=
  if supplied = "" then uuid else String.ofList (supplied.toList.take 64)

/-- The response; an exception without a handler leaves `request_context` before it sets the
header. -/
def respond (id : String) : Except Failure Payload → Response
  | .ok payload => ⟨200, payload, some id⟩
  | .error (.httpException status detail) => ⟨status, .error (httpCode status) detail id, some id⟩
  | .error .requestValidationError =>
    ⟨422, .error "VALIDATION_ERROR" "request validation failed" id, some id⟩
  | .error (.unmatched false) => ⟨404, .detail "Not Found", some id⟩
  | .error (.unmatched true) => ⟨405, .detail "Method Not Allowed", some id⟩
  | .error (.unhandled _) => ⟨500, .text "Internal Server Error", none⟩

/-! ### `auth/service.py` -/

/-- `secrets.compare_digest` on texts. -/
def compareDigest (a b : String) : Except Failure Bool :=
  if a.toList.all (·.toNat < 128) && b.toList.all (·.toNat < 128) then .ok (a = b)
  else .error (.unhandled .typeError)

def requireServiceAuth (settings : Settings) (credentials : Option Credentials) :
    Except Failure Unit :=
  if settings.internalApiToken = "" then
    .error (.httpException 503 "internal API token is not configured")
  else
    match credentials with
    | none => .error (.httpException 401 "invalid service credentials")
    | some c =>
      if c.isBearer then
        match compareDigest c.credentials settings.internalApiToken with
        | .error e => .error e
        | .ok true => .ok ()
        | .ok false => .error (.httpException 401 "invalid service credentials")
      else .error (.httpException 401 "invalid service credentials")

/-! ### The steps of the framework -/

def readBody : Body → Except Failure Json
  | .json value => .ok value
  | .invalidJson => .error .requestValidationError
  | .unreadable => .error (.httpException 400 "There was an error parsing the body")

/-- A body as an instance of its model. -/
def validated {α : Type} (ofJson : JsonObject → Option α) : Json → Except Failure α
  | .obj fields =>
    match ofJson fields with
    | some a => .ok a
    | none => .error .requestValidationError
  | _ => .error .requestValidationError

/-- A function of the service API without a body. -/
def authenticated (settings : Settings) (sv : State) (credentials : Option Credentials)
    (endpoint : Reply) : Reply :=
  match requireServiceAuth settings credentials with
  | .error e => (sv, .error e)
  | .ok () => endpoint

/-- A function of the service API with a body. -/
def withBody {α : Type} (settings : Settings) (sv : State) (credentials : Option Credentials)
    (body : Body) (ofJson : JsonObject → Option α) (endpoint : α → Reply) : Reply :=
  match readBody body with
  | .error e => (sv, .error e)
  | .ok value =>
    authenticated settings sv credentials
      (match validated ofJson value with
        | .error e => (sv, .error e)
        | .ok a => endpoint a)

/-- A function that commits what its service returns. -/
def ended {ε α : Type} (sv : State) (handler : ε → Failure) (answer : α → Payload)
    (r : Except ε (Store × α)) : Reply :=
  match r with
  | .ok (s, a) => ({ sv with store := s }, .ok (answer a))
  | .error e => (sv, .error (handler e))

/-! ### The functions of `api/` -/

/-- The `except` clauses of `api/users.py`. -/
def usersHandler : Raised → Failure
  | .authorizationError message => .httpException 403 message
  | .lastAdminError message => .httpException 409 message
  | e => .unhandled (.raised e)

/-- The `except` clauses of `api/pairing.py`. -/
def pairingHandler : Raised → Failure
  | .authorizationError message => .httpException 403 message
  | .pairingCodeError message => .httpException 404 message
  | e => .unhandled (.raised e)

/-- The `except` clauses of `api/deliveries.py`. -/
def deliveriesHandler : Raised → Failure
  | .leaseConflictError message => .httpException 409 message
  | e => .unhandled (.raised e)

/-- What leaves the functions of `api/subscriptions.py`. -/
def apiHandler : ApiError → Failure
  | .http status detail => .httpException status detail
  | .validationError => .unhandled .validationError
  | .raised e => .unhandled (.raised e)

/-- What leaves `publish_event`. -/
def publishHandler : PublishErrors.Failure → Failure
  | .api e => apiHandler e
  | .overflowError => .unhandled .overflowError

/-- A stored option as a `MatchKeyOption` of `api/schemas.py`. -/
def matchKeyOption : Json → Option MatchKeyOption
  | .obj fields =>
    match strField fields "key", strField fields "label" with
    | some key, some label =>
      if 1 ≤ key.length ∧ key.length ≤ 64 ∧ key.toList.all Core.MatchKeys.isMatchKeyChar ∧
          1 ≤ label.length ∧ label.length ≤ 100 then
        some ⟨key, label⟩
      else none
    | _, _ => none
  | _ => none

def eventResponse (item : EventType) : Option EventResponse :=
  (item.matchKeyOptions.mapM matchKeyOption).map fun options =>
    { eventKey := item.eventKey
      displayName := item.displayName
      description := item.description
      schemaVersion := item.schemaVersion
      deprecated := item.deprecatedAt.isSome
      matchKeyField := item.matchKeyField
      matchKeysRequired := item.matchKeysRequired
      matchKeyOptions := options }

def listEvents (s : Store) : Except Failure Payload :=
  match ((s.eventTypes.rows.filter (·.enabled)).insertionSort fun a b =>
      a.eventKey ≤ b.eventKey).mapM eventResponse with
  | some items => .ok (.events items)
  | none => .error (.unhandled .validationError)

def getSubscriptions (s : Store) (platform openid : String) : Payload :=
  .subscriptions ((listSubscriptions s platform openid).map fun item =>
    ⟨item.eventKey, item.locale, item.matchKeys⟩)

/-- `_set_permission`. -/
def setPermission [Runtime] (sv : State) (id openid : String)
    (body : { body : PermissionChangeRequest // body.valid = true }) (granted : Bool)
    (platform : String) : Reply :=
  ended sv usersHandler .permission
    (setPermissions sv.store
      { platform := platform
        openid := openid
        permissions := body.val.permissions
        granted := granted
        operatorOpenid := body.val.operatorOpenid
        requestId := some id })

/-- `body.lease_seconds or settings.delivery_default_lease_seconds`. -/
def leaseSeconds (settings : Settings) (body : DeliveryClaimRequest) : ℤ :=
  match body.leaseSeconds with
  | none => settings.deliveryDefaultLeaseSeconds
  | some n => if n = 0 then settings.deliveryDefaultLeaseSeconds else n

/-- The call of `claim` a request makes. -/
def claimOf (settings : Settings) (d : Draw) (body : DeliveryClaimRequest) : Claim where
  workerId := body.workerId
  platform := body.platform
  limit := body.limit.toNat
  leaseSeconds := leaseSeconds settings body
  now := d.now
  tie := d.tie
  token := d.token

def claimedDelivery (item : ClaimedDelivery) : Option ClaimedDeliveryResponse :=
  match item.message with
  | .obj message =>
    some
      { deliveryId := item.deliveryId
        leaseToken := item.leaseToken
        eventId := item.eventId
        eventKey := item.eventKey
        platform := item.platform
        openid := item.openid
        message := message
        attempt := item.attempt
        createdAt := item.createdAt }
  | _ => none

/-- `_status`. -/
def deliveryStatus (row : Delivery) : DeliveryStatusResponse :=
  ⟨row.deliveryId, row.status, row.attempts, row.nextAttemptAt⟩

variable [Runtime]

/-- `claim_deliveries`: the claim is committed before the items are made. -/
def claimDeliveries (settings : Settings) (sv : State) (d : Draw)
    (body : { body : DeliveryClaimRequest // body.valid = true }) : Reply :=
  let r := claim sv.store.deliveries (claimOf settings d body.val)
  ({ sv with store := { sv.store with deliveries := r.1 } },
    match r.2.mapM claimedDelivery with
    | some items => .ok (.claim items)
    | none => .error (.unhandled .validationError))

omit [Runtime] in
/-- The call of `ack` a request makes. -/
def ackOf (d : Draw) (deliveryId : String) (body : DeliveryAckRequest) : Ack where
  deliveryId := deliveryId
  leaseToken := body.leaseToken
  now := d.now
  sentAt := body.sentAt.map d.stored
  platformMessageId := body.platformMessageId

omit [Runtime] in
/-- The call of `fail` a request makes. -/
def failOf (d : Draw) (deliveryId : String) (body : DeliveryFailRequest) : Fail where
  deliveryId := deliveryId
  leaseToken := body.leaseToken
  now := d.now
  errorCode := body.errorCode
  retryable := body.retryable

def ackDelivery (sv : State) (d : Draw) (deliveryId : String)
    (body : { body : DeliveryAckRequest // body.valid = true }) : Reply :=
  ended sv deliveriesHandler (fun row => .status (deliveryStatus row))
    ((Deliveries.Outbox.ack sv.store.deliveries (ackOf d deliveryId body.val)).map fun r =>
      ({ sv.store with deliveries := r.1 }, r.2))

def failDelivery (settings : Settings) (sv : State) (d : Draw) (deliveryId : String)
    (body : { body : DeliveryFailRequest // body.valid = true }) : Reply :=
  ended sv deliveriesHandler (fun row => .status (deliveryStatus row))
    ((fail settings.deliveryMaxAttempts sv.store.deliveries (failOf d deliveryId body.val)).map
      fun r =>
      ({ sv.store with deliveries := r.1 }, r.2))

omit [Runtime] in
/-- The call of `publish_event` a request makes. -/
def publishOf (d : Draw) (id : String) (credentials : Option Credentials) (body : ValidRequest) :
    Publish.Call where
  credentials := credentials
  body := body
  now := d.now
  storedAt := d.storedAt
  eventId := d.eventId
  deliveryId := d.deliveryId
  requestId := some id
  order := d.order

variable [Pydantic]

/-- The route of `publish_event`, which authenticates the publisher. -/
def publishRoute (settings : Settings) (sv : State) (d : Draw) (id : String)
    (credentials : Option Credentials) (body : Body) : Reply :=
  match readBody body with
  | .error e => (sv, .error e)
  | .ok value =>
    match requirePublisherAuth (enabledRows sv.publishers d.order) credentials with
    | .error e => (sv, .error (apiHandler e))
    | .ok _ =>
      match validated validRequest value with
      | .error e => (sv, .error e)
      | .ok body =>
        ended sv publishHandler .published
          (PublishErrors.publishEvent settings.publishing sv.publishers sv.store
            (publishOf d id credentials body))

/-- The route of a request. -/
def route (settings : Settings) (sv : State) (d : Draw) (id : String)
    (credentials : Option Credentials) : Target → Reply
  | .health => (sv, .ok .alive)
  | .ready reachable =>
    (sv, if reachable then .ok .databaseReady
      else .error (.httpException 503 "database is unavailable"))
  | .metrics => authenticated settings sv credentials (sv, .ok .metrics)
  | .listEvents => authenticated settings sv credentials (sv, listEvents sv.store)
  | .getPermission openid platform => authenticated settings sv credentials
    (sv, .ok (.permission (permissionSnapshot sv.store (platform.getD "qqbot") openid)))
  | .grantPermissions openid platform body =>
    withBody settings sv credentials body (fun fields =>
      checked _ (PermissionChangeRequest.ofJson fields))
      fun body => setPermission sv id openid body true (platform.getD "qqbot")
  | .revokePermissions openid platform body =>
    withBody settings sv credentials body (fun fields =>
      checked _ (PermissionChangeRequest.ofJson fields))
      fun body => setPermission sv id openid body false (platform.getD "qqbot")
  | .updateRole openid platform body =>
    withBody settings sv credentials body
      (fun fields => checked RoleChangeRequest.valid (RoleChangeRequest.ofJson fields)) fun body =>
        ended sv usersHandler .permission
          (changeRole sv.store
            { platform := platform.getD "qqbot"
              openid := openid
              role := body.val.role
              operatorOpenid := body.val.operatorOpenid
              requestId := some id })
  | .getSubscriptions openid platform => authenticated settings sv credentials
    (sv, .ok (getSubscriptions sv.store (platform.getD "qqbot") openid))
  | .addSubscription openid platform body =>
    withBody settings sv credentials body
      (fun fields => checked SubscriptionRequest.valid (subscriptionOfJson fields)) fun body =>
        ended sv apiHandler .subscription
          (Subscriptions.addSubscription sv.store ⟨platform.getD "qqbot", openid, body, some id⟩)
  | .removeSubscription openid eventKey platform => authenticated settings sv credentials
    (ended sv apiHandler .deleteSubscription
      (Subscriptions.removeSubscription sv.store ⟨platform.getD "qqbot", openid,
        eventKey, some id⟩))
  | .newPairingCode body =>
    withBody settings sv credentials body
      (fun fields => checked PairingCodeRequest.valid (PairingCodeRequest.ofJson fields))
        fun body =>
        ended sv (fun e => .unhandled (.raised e)) (fun row => .pairingCode d.code row.expiresAt)
          (createPairingCode sv.store d.now body.val.platform body.val.openid d.code)
  | .approveCode code body =>
    withBody settings sv credentials body
      (fun fields => checked PairingApproveRequest.valid (PairingApproveRequest.ofJson fields))
      fun body =>
        ended sv pairingHandler .permission
          (approvePairingCode sv.store d.now
            { code := code
              permissions := body.val.permissions
              operatorOpenid := body.val.operatorOpenid
              platform := body.val.platform
              requestId := some id })
  | .claimDeliveries body =>
    withBody settings sv credentials body
      (fun fields => checked DeliveryClaimRequest.valid (DeliveryClaimRequest.ofJson fields))
      (claimDeliveries settings sv d)
  | .ackDelivery deliveryId body =>
    withBody settings sv credentials body
      (fun fields => checked DeliveryAckRequest.valid (DeliveryAckRequest.ofJson fields))
      (ackDelivery sv d deliveryId)
  | .failDelivery deliveryId body =>
    withBody settings sv credentials body
      (fun fields => checked DeliveryFailRequest.valid (DeliveryFailRequest.ofJson fields))
      (failDelivery settings sv d deliveryId)
  | .publishEvent body => publishRoute settings sv d id credentials body
  | .unmatched methodNotAllowed => (sv, .error (.unmatched methodNotAllowed))

/-- The state after a request, and the response. -/
def serve (settings : Settings) (sv : State) (d : Draw) (req : Request) : State × Response :=
  let id := requestId req.suppliedId d.uuid
  let reply := route settings sv d id req.credentials req.target
  (reply.1, respond id reply.2)

/-! ### The server -/

omit [Runtime] [Pydantic] in
/-- What is done by a local tool or directly in the database. -/
def isTool : Op → Bool
  | .register _ | .bootstrapFirstAdmin .. | .setAccountStatus .. => true
  | _ => false

omit [Runtime] [Pydantic] in
inductive Action where
  | http (d : Draw) (req : Request)
  | upsert (a : Upsert)
  | tool (op : { op : Op // isTool op = true })

/-- The state after an action. -/
def step (settings : Settings) (sv : State) : Action → State
  | .http d req => (serve settings sv d req).1
  | .upsert a =>
    match upsert sv.publishers a with
    | .ok publishers => { sv with publishers := publishers }
    | .error _ => sv
  | .tool op => { sv with store := System.step settings.deliveryMaxAttempts sv.store op.val }

/-! ### A sample -/

section Sample

omit [Runtime] [Pydantic]

/-- The conversions of the samples, whose bodies need none. -/
abbrev samplePydantic : Pydantic where
  intOfStr _ := none
  datetimeOfStr _ := none
  datetimeOfNumber _ := none

theorem sampleToken_long : 24 ≤ "internal-token-0123456789".length := by decide

theorem attempts_default : 1 ≤ 5 ∧ 5 ≤ 20 := by decide

theorem lease_default : 10 ≤ (60 : ℤ) ∧ (60 : ℤ) ≤ 600 := by decide

def sampleSettings : Settings where
  internalApiToken := "internal-token-0123456789"
  publishing := Server.sampleSettings
  token := Or.inr sampleToken_long
  attempts := attempts_default
  lease := lease_default

def sampleDraw : Draw where
  uuid := "00000000-0000-4000-8000-000000000001"
  now := seconds 1789387200
  storedAt := seconds 1789387200
  eventId := "00000000-0000-4000-8000-000000000002"
  deliveryId _ openid := "d-" ++ openid
  code := "ABCDEFGH"
  token id := "lease-token-of-" ++ id
  stored
    | .aware t => t
    | .naive wall => wall

def sampleCredentials (token : String) : Option Credentials := some ⟨"Bearer", token⟩

/-- A pairing code for `alice`, asked for with the token `token`. -/
def samplePairing (token : String) : Request where
  credentials := sampleCredentials token
  target := .newPairingCode (.json (.obj [("openid", .str "alice")]))

/-- A request to the sample server. -/
def sampleServe (sv : State) (req : Request) : State × Response :=
  @serve .sample samplePydantic sampleSettings sv sampleDraw req

/-- The sample server after some actions. -/
def sampleRun (actions : List Action) : State :=
  run (@step .sample samplePydantic sampleSettings) {} actions

/-- A pairing code for `alice`, asked for with the internal token. -/
def sampleAuthorized : Request := samplePairing "internal-token-0123456789"

/-- `alice` becomes the first administrator. -/
def sampleAdmin : List Action :=
  [.http sampleDraw sampleAuthorized,
    .tool ⟨.bootstrapFirstAdmin (seconds 1789387201) { code := "abcdefgh" }, rfl⟩]

/-- `alice` grants `bob` the permission to give commands. -/
def sampleGrant : Request where
  credentials := sampleCredentials "internal-token-0123456789"
  target := .grantPermissions "bob" none
    (.json (.obj [("permissions", .arr [.str "command"]), ("operator_openid", .str "alice")]))

end Sample

end EventServer.Api.App
