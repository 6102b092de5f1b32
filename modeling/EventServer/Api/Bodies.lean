import EventServer.Api.Requests
import EventServer.Api.Subscriptions
import Mathlib.Data.List.Dedup

/-! # The bodies of the service API

The request models of `api/schemas.py` other than `PublishEventRequest`: which fields a body has,
what they are converted to, and which constraints they meet. An API function receives a body
together with the fact that it meets them. -/

namespace EventServer.Api.Bodies

open EventServer.Db EventServer.Python EventServer.Api.Publish EventServer.Api.Subscriptions

/-- The body of a request as the framework reads it. -/
inductive Body where
  | json (value : Json)
  /-- Not JSON. -/
  | invalidJson
  /-- Not readable as text. -/
  | unreadable

/-- A value of a model, once its fields meet their constraints. -/
def checked {α : Type} (valid : α → Bool) : Option α → Option { a : α // valid a = true }
  | none => none
  | some a => if h : valid a = true then some ⟨a, h⟩ else none

/-- `Field(min_length=1, max_length=128)`. -/
def isOpenid (value : String) : Bool := 1 ≤ value.length && value.length ≤ 128

/-- A field of type `str` with a default. -/
def strFieldOr (fields : JsonObject) (key default : String) : Option String :=
  if (fields.lookup key).isNone then some default else strField fields key

/-- A field of type `str | None` with the default `None`. -/
def optionalStr (fields : JsonObject) (key : String) : Option (Option String) :=
  match fields.lookup key with
  | none | some .null => some none
  | some (.str value) => some (some value)
  | some _ => none

/-- The members of a list that are all texts. -/
def strings : List Json → Option (List String)
  | [] => some []
  | .str value :: values => (strings values).map (value :: ·)
  | _ => none

/-- A field of type `list[str]` or of a set of texts. -/
def stringsField (fields : JsonObject) (key : String) : Option (List String) :=
  match fields.lookup key with
  | some (.arr values) => strings values
  | _ => none

/-- The texts that stand for a truth value, in lower case. -/
def boolOfText (value : String) : Option Bool :=
  let lower := String.ofList (value.toList.map Char.toLower)
  if lower ∈ ["1", "on", "t", "true", "y", "yes"] then some true
  else if lower ∈ ["0", "off", "f", "false", "n", "no"] then some false
  else none

/-- The truth value a value is converted to. -/
def toBool : Json → Option Bool
  | .bool b => some b
  | .int n => if n = 0 then some false else if n = 1 then some true else none
  | .float (.finite q) => if q = 0 then some false else if q = 1 then some true else none
  | .float .negZero => some false
  | .str value => boolOfText value
  | _ => none

/-! ### Accounts -/

/-- `PermissionChangeRequest`; the permissions are the members of a set. -/
structure PermissionChangeRequest where
  permissions : List String
  operatorOpenid : String

/-- `Literal["chat", "command"]`. -/
def isPermission (value : String) : Bool := value = "chat" || value = "command"

def PermissionChangeRequest.valid (body : PermissionChangeRequest) : Bool :=
  body.permissions ≠ [] && body.permissions.all isPermission && isOpenid body.operatorOpenid

def PermissionChangeRequest.ofJson (fields : JsonObject) : Option PermissionChangeRequest := do
  let permissions ← stringsField fields "permissions"
  let operatorOpenid ← strField fields "operator_openid"
  some ⟨permissions.dedup, operatorOpenid⟩

structure RoleChangeRequest where
  role : String
  operatorOpenid : String

def RoleChangeRequest.valid (body : RoleChangeRequest) : Bool :=
  (body.role = "user" || body.role = "admin") && isOpenid body.operatorOpenid

def RoleChangeRequest.ofJson (fields : JsonObject) : Option RoleChangeRequest := do
  let role ← strField fields "role"
  let operatorOpenid ← strField fields "operator_openid"
  some ⟨role, operatorOpenid⟩

/-! ### Subscriptions and pairing -/

def subscriptionOfJson (fields : JsonObject) : Option SubscriptionRequest := do
  let eventKey ← strField fields "event_key"
  let matchKeys ← if (fields.lookup "match_keys").isNone then some []
    else stringsField fields "match_keys"
  some ⟨eventKey, matchKeys⟩

structure PairingCodeRequest where
  platform : String := "qqbot"
  openid : String

def PairingCodeRequest.valid (body : PairingCodeRequest) : Bool := isOpenid body.openid

def PairingCodeRequest.ofJson (fields : JsonObject) : Option PairingCodeRequest := do
  let platform ← strFieldOr fields "platform" "qqbot"
  let openid ← strField fields "openid"
  some ⟨platform, openid⟩

structure PairingApproveRequest where
  permissions : List String
  operatorOpenid : String
  platform : String := "qqbot"

def PairingApproveRequest.valid (body : PairingApproveRequest) : Bool :=
  body.permissions ≠ [] && body.permissions.all isPermission && isOpenid body.operatorOpenid

def PairingApproveRequest.ofJson (fields : JsonObject) : Option PairingApproveRequest := do
  let permissions ← stringsField fields "permissions"
  let operatorOpenid ← strField fields "operator_openid"
  let platform ← strFieldOr fields "platform" "qqbot"
  some ⟨permissions.dedup, operatorOpenid, platform⟩

/-! ### Deliveries -/

structure DeliveryClaimRequest where
  workerId : String
  platform : String := "qqbot"
  limit : ℤ := 10
  leaseSeconds : Option ℤ := none

def DeliveryClaimRequest.valid (body : DeliveryClaimRequest) : Bool :=
  isOpenid body.workerId && 1 ≤ body.limit && body.limit ≤ 100 &&
    (match body.leaseSeconds with
      | none => true
      | some n => 10 ≤ n && n ≤ 600)

structure DeliveryAckRequest where
  leaseToken : String
  sentAt : Option DateTime := none
  platformMessageId : Option String := none

def DeliveryAckRequest.valid (body : DeliveryAckRequest) : Bool :=
  16 ≤ body.leaseToken.length &&
    (match body.platformMessageId with
      | none => true
      | some id => id.length ≤ 128)

structure DeliveryFailRequest where
  leaseToken : String
  errorCode : String
  retryable : Bool

/-- `^[A-Z0-9_]+$`. -/
def isErrorCode (value : String) : Bool :=
  value.length ≠ 0 && value.toList.all fun c => c.isUpper || c.isDigit || c = '_'

def DeliveryFailRequest.valid (body : DeliveryFailRequest) : Bool :=
  16 ≤ body.leaseToken.length && 1 ≤ body.errorCode.length && body.errorCode.length ≤ 64 &&
    isErrorCode body.errorCode

def DeliveryFailRequest.ofJson (fields : JsonObject) : Option DeliveryFailRequest := do
  let leaseToken ← strField fields "lease_token"
  let errorCode ← strField fields "error_code"
  let retryable ← (fields.lookup "retryable").bind toBool
  some ⟨leaseToken, errorCode, retryable⟩

section

variable [Pydantic]

/-- A field of type `int | None` with the default `None`. -/
def optionalInt (fields : JsonObject) (key : String) : Option (Option ℤ) :=
  match fields.lookup key with
  | none | some .null => some none
  | some value => (toInt value).map some

/-- A field of type `int` with a default. -/
def intFieldOr (fields : JsonObject) (key : String) (default : ℤ) : Option ℤ :=
  match fields.lookup key with
  | none => some default
  | some value => toInt value

def DeliveryClaimRequest.ofJson (fields : JsonObject) : Option DeliveryClaimRequest := do
  let workerId ← strField fields "worker_id"
  let platform ← strFieldOr fields "platform" "qqbot"
  let limit ← intFieldOr fields "limit" 10
  let leaseSeconds ← optionalInt fields "lease_seconds"
  some ⟨workerId, platform, limit, leaseSeconds⟩

def DeliveryAckRequest.ofJson (fields : JsonObject) : Option DeliveryAckRequest := do
  let leaseToken ← strField fields "lease_token"
  let sentAt ← optionalDatetime fields "sent_at"
  let platformMessageId ← optionalStr fields "platform_message_id"
  some ⟨leaseToken, sentAt, platformMessageId⟩

end

end EventServer.Api.Bodies
