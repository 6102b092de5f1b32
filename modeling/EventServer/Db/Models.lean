import EventServer.Core.Models
import EventServer.Lib.Table

/-! # The database

The rows of `db/models.py` and the tables that hold them. Primary keys and unique constraints are
part of the table types, so no state of the store violates them; columns of enumeration type are
enumerations. Left out are the columns no service function reads or sets. -/

namespace EventServer.Db

open EventServer.Lib EventServer.Python

inductive Role where
  | user
  | admin
  deriving DecidableEq

inductive AccountStatus where
  | active
  | blocked
  deriving DecidableEq

/-- The values the check constraint on `permission_key` admits. -/
inductive PermissionKey where
  | chat
  | command
  deriving DecidableEq

inductive DeliveryStatus where
  | pending
  | leased
  | retry
  | sent
  | dead
  deriving DecidableEq

structure User where
  platform : String
  openid : String
  role : Role := .user
  accountStatus : AccountStatus := .active
  deriving DecidableEq

def User.key (r : User) : String × String := (r.platform, r.openid)

structure UserPermission where
  platform : String
  openid : String
  permissionKey : PermissionKey
  granted : Bool := false
  grantedBy : Option String := none
  deriving DecidableEq

def UserPermission.key (r : UserPermission) : String × String × PermissionKey :=
  (r.platform, r.openid, r.permissionKey)

structure EventType where
  eventKey : String
  displayName : String
  description : String := ""
  schemaVersion : ℤ := 1
  payloadSchema : JsonObject := []
  enabled : Bool := true
  subscribable : Bool := true
  deprecatedAt : Option Time := none
  matchKeyField : Option String := none
  matchKeyOptions : List Json := []
  matchKeysRequired : Bool := false

structure EventAlias where
  aliasKey : String
  eventKey : String

structure EventOccurrence where
  eventId : String
  eventKey : String
  schemaVersion : ℤ
  dedupeKey : String
  occurredAt : Time
  subject : JsonObject
  data : JsonObject
  metadata : JsonObject := []

/-- `uq_event_dedupe`. -/
def EventOccurrence.dedupe (r : EventOccurrence) : String × String := (r.eventKey, r.dedupeKey)

structure Subscription where
  platform : String
  openid : String
  eventKey : String
  locale : String := "zh-CN"
  matchKeys : List String := []
  deriving DecidableEq

def Subscription.key (r : Subscription) : String × String × String :=
  (r.platform, r.openid, r.eventKey)

structure Delivery where
  deliveryId : String
  eventId : String
  eventKey : String
  platform : String
  openid : String
  message : Json
  status : DeliveryStatus := .pending
  attempts : ℕ := 0
  nextAttemptAt : Time
  leaseOwner : Option String := none
  leaseTokenHash : Option String := none
  leaseUntil : Option Time := none
  sentAt : Option Time := none
  platformMessageId : Option String := none
  lastErrorCode : Option String := none
  createdAt : Time

/-- `uq_delivery_target`. -/
def Delivery.target (r : Delivery) : String × String × String := (r.eventId, r.platform, r.openid)

structure PairingCode where
  codeHash : String
  platform : String
  openid : String
  expiresAt : Time
  approvedBy : Option String := none
  approvedAt : Option Time := none
  consumedAt : Option Time := none
  deriving DecidableEq

structure AuditLog where
  actorPlatform : Option String := none
  actorOpenidMasked : Option String := none
  targetType : String
  targetIdMasked : Option String := none
  action : String
  result : String
  requestId : Option String := none
  details : Json := .obj []

abbrev Users := Table User.key User.key
abbrev UserPermissions := Table UserPermission.key UserPermission.key
abbrev EventTypes := Table EventType.eventKey EventType.eventKey
abbrev EventAliases := Table EventAlias.aliasKey EventAlias.aliasKey
abbrev EventOccurrences := Table EventOccurrence.eventId EventOccurrence.dedupe
abbrev Subscriptions := Table Subscription.key Subscription.key
abbrev Deliveries := Table Delivery.deliveryId Delivery.target
abbrev PairingCodes := Table PairingCode.codeHash PairingCode.codeHash

/-- The committed contents of the database. -/
structure Store where
  users : Users := .empty
  userPermissions : UserPermissions := .empty
  eventTypes : EventTypes := .empty
  eventAliases : EventAliases := .empty
  eventOccurrences : EventOccurrences := .empty
  subscriptions : Subscriptions := .empty
  deliveries : Deliveries := .empty
  pairingCodes : PairingCodes := .empty
  auditLogs : List AuditLog := []

end EventServer.Db
