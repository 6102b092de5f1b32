import EventServer.Db.Models

/-! # Users, roles and permissions

`services/users.py`: the permission snapshot, the check that an operator is an effective
administrator, and the two operations that can end an administrator's effectiveness, each with its
guard against removing the last one. A session's `get` of a row it has added returns that row, and a
row that is new has the column defaults. -/

namespace EventServer.Services.Users

open EventServer.Db EventServer.Python

/-- `services.common.mask_identifier`. -/
def maskIdentifier : Option String → Option String
  | none => none
  | some value =>
    let cs := value.toList
    if cs.length ≤ 6 then some "***"
    else some (String.ofList (cs.take 3) ++ "***" ++ String.ofList (cs.drop (cs.length - 3)))

/-- The account status of a snapshot: `unknown` for a user that is not stored. -/
inductive SnapshotStatus where
  | unknown
  | known (status : AccountStatus)
  deriving DecidableEq

structure PermissionSnapshot where
  platform : String
  openid : String
  accountStatus : SnapshotStatus
  role : Role
  chat : Bool
  command : Bool
  deriving DecidableEq

/-- `values.get(key, False)` of the dictionary made from permission rows. -/
def permissionValue (rows : List UserPermission) (key : PermissionKey) : Bool :=
  match rows.find? fun r => r.permissionKey = key with
  | some r => r.granted
  | none => false

def permissionSnapshot (s : Store) (platform openid : String) : PermissionSnapshot :=
  match s.users.get (platform, openid) with
  | none => ⟨platform, openid, .unknown, .user, false, false⟩
  | some user =>
    let rows := s.userPermissions.rows.filter fun r => r.platform = platform ∧ r.openid = openid
    ⟨platform, openid, .known user.accountStatus, user.role, permissionValue rows .chat,
      permissionValue rows .command⟩

/-- The condition of `require_admin`. -/
def PermissionSnapshot.isAdmin (p : PermissionSnapshot) : Bool :=
  p.accountStatus = .known .active && p.role = .admin && p.command

def requireAdmin (s : Store) (platform operatorOpenid : String) : Except Raised Unit :=
  if (permissionSnapshot s platform operatorOpenid).isAdmin then .ok ()
  else .error (.authorizationError "operator must be an active admin with command permission")

/-- The count query: users joined with their granted `command` row. -/
def activeCommandAdminCount (s : Store) (platform : String) : ℕ :=
  ((s.users.rows.flatMap fun u =>
      (s.userPermissions.rows.filter fun p =>
        p.platform = u.platform ∧ p.openid = u.openid ∧ p.permissionKey = .command ∧ p.granted).map
        fun p => (u, p)).filter fun up =>
    up.1.platform = platform ∧ up.1.role = .admin ∧ up.1.accountStatus = .active).length

/-! ### Granting and revoking -/

def PermissionKey.ofString? : String → Option PermissionKey
  | "chat" => some .chat
  | "command" => some .command
  | _ => none

/-- The arguments of `set_permissions`; `permissions` lists the members of a set. -/
structure SetPermissions where
  platform : String
  openid : String
  permissions : List String
  granted : Bool
  operatorOpenid : String
  requestId : Option String := none

/-- The permission rows the call writes. -/
def SetPermissions.keys (a : SetPermissions) : List PermissionKey :=
  a.permissions.filterMap PermissionKey.ofString?

/-- `permissions - VALID_PERMISSIONS`. -/
def SetPermissions.invalid (a : SetPermissions) : List String :=
  a.permissions.filter fun p => (PermissionKey.ofString? p).isNone

/-- The guard of `set_permissions` on the rows it loaded and the count it read. -/
def SetPermissions.removesLast (a : SetPermissions) (target : User)
    (existingCommand : Option UserPermission) (count : ℕ) : Bool :=
  !a.granted && "command" ∈ a.permissions && target.role = .admin &&
    target.accountStatus = .active &&
    (match existingCommand with
      | some row => row.granted
      | none => false) && count = 1

/-- The permission row after the assignments of the loop, from the row that was loaded. -/
def SetPermissions.row (a : SetPermissions) (key : PermissionKey) (loaded : Option UserPermission) :
    UserPermission :=
  { loaded.getD { platform := a.platform, openid := a.openid, permissionKey := key } with
    granted := a.granted, grantedBy := some a.operatorOpenid }

def SetPermissions.audit (a : SetPermissions) : AuditLog where
  actorPlatform := some a.platform
  actorOpenidMasked := maskIdentifier (some a.operatorOpenid)
  targetType := "user"
  targetIdMasked := maskIdentifier (some a.openid)
  action := if a.granted then "grant" else "revoke"
  result := "success"
  requestId := a.requestId
  details := .obj [("permissions", .arr ((sortedStr a.permissions).map .str))]

/-- The row of a user, added if it is not stored. -/
def ensureUser (s : Store) (platform openid : String) : User × Store :=
  match s.users.get (platform, openid) with
  | some user => (user, s)
  | none =>
    let user : User := { platform := platform, openid := openid }
    (user, { s with users := s.users.put user })

/-- The loop over the requested permissions. -/
def writePermissions (s : Store) (a : SetPermissions) : Store :=
  a.keys.foldl (fun s key => { s with
    userPermissions := s.userPermissions.put
      (a.row key (s.userPermissions.get (a.platform, a.openid, key))) }) s

/-- What `set_permissions` does once its checks have passed. -/
def applyPermissions (s : Store) (a : SetPermissions) : Store :=
  let s := writePermissions (ensureUser s a.platform a.openid).2 a
  { s with auditLogs := s.auditLogs ++ [a.audit] }

variable [Runtime]

def setPermissions (s : Store) (a : SetPermissions) : Except Raised (Store × PermissionSnapshot) :=
  if a.invalid ≠ [] ∨ a.permissions = [] then
    .error (.valueError ("invalid permissions: " ++
      (Json.arr ((sortedStr a.invalid).map .str)).repr))
  else
    match requireAdmin s a.platform a.operatorOpenid with
    | .error e => .error e
    | .ok () =>
      let (target, s) := ensureUser s a.platform a.openid
      if a.removesLast target (s.userPermissions.get (a.platform, a.openid, .command))
          (activeCommandAdminCount s a.platform) then
        .error (.lastAdminError "cannot revoke command from the last active admin")
      else
        let s := writePermissions s a
        let s := { s with auditLogs := s.auditLogs ++ [a.audit] }
        .ok (s, permissionSnapshot s a.platform a.openid)

/-! ### Changing a role -/

def Role.ofString? : String → Option Role
  | "user" => some .user
  | "admin" => some .admin
  | _ => none

structure ChangeRole where
  platform : String
  openid : String
  role : String
  operatorOpenid : String
  requestId : Option String := none

/-- The guard of `change_role` on the row it loaded, the `granted` column it read (`none`: no such
row) and the count. -/
def ChangeRole.removesLast (target : User) (role : Role) (commandGranted : Option Bool)
    (count : ℕ) : Bool :=
  target.role = .admin && role = .user && target.accountStatus = .active &&
    commandGranted = some true && count = 1

def ChangeRole.audit (a : ChangeRole) : AuditLog where
  actorPlatform := some a.platform
  actorOpenidMasked := maskIdentifier (some a.operatorOpenid)
  targetType := "user"
  targetIdMasked := maskIdentifier (some a.openid)
  action := "change_role"
  result := "success"
  requestId := a.requestId
  details := .obj [("role", .str a.role)]

/-- What `change_role` does once its checks have passed. -/
def applyRole (s : Store) (a : ChangeRole) (role : Role) : Store :=
  let target := (ensureUser s a.platform a.openid).1
  { s with
    users := s.users.put { target with role := role }
    auditLogs := s.auditLogs ++ [a.audit] }

def changeRole (s : Store) (a : ChangeRole) : Except Raised (Store × PermissionSnapshot) :=
  match Role.ofString? a.role with
  | none => .error (.valueError "role must be user or admin")
  | some role =>
    match requireAdmin s a.platform a.operatorOpenid with
    | .error e => .error e
    | .ok () =>
      -- a user that is not stored yet has no role before the flush: the guard does not apply
      let target := s.users.get (a.platform, a.openid)
      let granted := (s.userPermissions.get (a.platform, a.openid, .command)).map (·.granted)
      if (target.map fun t => ChangeRole.removesLast t role granted
          (activeCommandAdminCount s a.platform)).getD false then
        .error (.lastAdminError "cannot demote the last active command-enabled admin")
      else
        let s := applyRole s a role
        .ok (s, permissionSnapshot s a.platform a.openid)

end EventServer.Services.Users
