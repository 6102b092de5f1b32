import EventServer.Services.Users

/-! # Pairing codes and the first administrator

`services/pairing.py` and `services/bootstrap_admin.py`: a pairing code is created for a user,
stored under its digest, and consumed either by an administrator's approval, which grants
permissions, or by the bootstrap of the first administrator, which makes its user an effective
administrator. -/

namespace EventServer.Services.Pairing

open EventServer.Db EventServer.Python EventServer.Services.Users

/-- The characters of a pairing code. -/
def alphabet : List Char := "ABCDEFGHJKLMNPQRSTUVWXYZ23456789".toList

variable [Runtime]

def pairingCodeHash (code : String) : String := Runtime.sha256Hex (Runtime.strUpper code)

/-- `create_pairing_code` for the random code `code`. -/
def createPairingCode (s : Store) (now : Time) (platform openid code : String)
    (ttlMinutes : ℤ := 10) : Except Raised (Store × PairingCode) :=
  let row : PairingCode :=
    { codeHash := pairingCodeHash code, platform := platform, openid := openid,
      expiresAt := now + minutes ttlMinutes }
  match s.pairingCodes.insert? row with
  | none => .error .integrityError
  | some codes => .ok ({ s with pairingCodes := codes }, row)

/-! ### Approval by an administrator -/

structure Approve where
  code : String
  permissions : List String
  operatorOpenid : String
  platform : String := "qqbot"
  requestId : Option String := none

/-- The check of the row an approval loaded. -/
def Approve.check (a : Approve) (row : Option PairingCode) (now : Time) :
    Except Raised PairingCode :=
  match row with
  | none => .error (.pairingCodeError "pairing code is invalid")
  | some row =>
    if row.platform ≠ a.platform then .error (.pairingCodeError "pairing code is invalid")
    else if row.consumedAt ≠ none ∨ row.expiresAt ≤ now then
      .error (.pairingCodeError "pairing code is expired or already consumed")
    else .ok row

/-- The grant an approval of `row` makes. -/
def Approve.grant (a : Approve) (row : PairingCode) : SetPermissions where
  platform := a.platform
  openid := row.openid
  permissions := a.permissions
  granted := true
  operatorOpenid := a.operatorOpenid
  requestId := a.requestId

/-- The row with the three columns an approval sets. -/
def PairingCode.consume (row : PairingCode) (approvedBy : String) (now : Time) : PairingCode :=
  { row with approvedBy := some approvedBy, approvedAt := some now, consumedAt := some now }

def approvePairingCode (s : Store) (now : Time) (a : Approve) :
    Except Raised (Store × PermissionSnapshot) :=
  match requireAdmin s a.platform a.operatorOpenid with
  | .error e => .error e
  | .ok () =>
    match a.check (s.pairingCodes.get (pairingCodeHash a.code)) now with
    | .error e => .error e
    | .ok row =>
      match setPermissions s (a.grant row) with
      | .error e => .error e
      | .ok (s, snapshot) =>
        .ok
          ({ s with
          pairingCodes := s.pairingCodes.put (PairingCode.consume row a.operatorOpenid now) },
          snapshot)

/-! ### The first administrator -/

structure Bootstrap where
  code : String
  platform : String := "qqbot"

def invalidCode : Raised :=
  .firstAdminBootstrapError "pairing code is invalid, expired, or already consumed"

/-- `code.strip().upper()`. -/
def Bootstrap.normalizedCode (a : Bootstrap) : String :=
  Runtime.strUpper (Runtime.strStrip a.code)

/-- The check of the row a bootstrap locked. -/
def Bootstrap.check (a : Bootstrap) (row : Option PairingCode) (now : Time) :
    Except Raised PairingCode :=
  match row with
  | none => .error invalidCode
  | some row =>
    if row.platform ≠ a.platform then .error invalidCode
    else if row.consumedAt ≠ none ∨ row.expiresAt ≤ now then .error invalidCode
    else .ok row

/-- The permission row of `key` granted by the bootstrap, from the row that was loaded. -/
def Bootstrap.permission (a : Bootstrap) (openid : String) (key : PermissionKey)
    (loaded : Option UserPermission) : UserPermission :=
  { loaded.getD { platform := a.platform, openid := openid, permissionKey := key } with
    granted := true, grantedBy := some "bootstrap-pairing" }

def Bootstrap.audit (a : Bootstrap) (openid : String) : AuditLog where
  actorPlatform := some "system"
  actorOpenidMasked := none
  targetType := "user"
  targetIdMasked := maskIdentifier (some openid)
  action := "bootstrap_first_admin"
  result := "success"
  details := .obj [("platform", .str a.platform), ("role", .str "admin"),
    ("permissions", .arr [.str "chat", .str "command"]), ("source", .str "pairing_code")]

/-- What a bootstrap writes for the user of the code. -/
def Bootstrap.promote (s : Store) (a : Bootstrap) (openid : String) : Store :=
  let user := (ensureUser s a.platform openid).1
  let users := s.users.put { user with accountStatus := .active, role := .admin }
  let permissions := [PermissionKey.chat, PermissionKey.command].foldl
    (fun t key => t.put (a.permission openid key (t.get (a.platform, openid, key))))
    s.userPermissions
  { s with users := users, userPermissions := permissions }

def bootstrapFirstAdmin (s : Store) (now : Time) (a : Bootstrap) :
    Except Raised (Store × PermissionSnapshot) :=
  if activeCommandAdminCount s a.platform ≠ 0 then
    .error (.firstAdminBootstrapError "an active administrator already exists")
  else if a.normalizedCode.length ≠ 8 ∨ a.normalizedCode.toList.any (· ∉ alphabet) then
    .error invalidCode
  else
    match a.check (s.pairingCodes.get (pairingCodeHash a.normalizedCode)) now with
    | .error e => .error e
    | .ok row =>
      if (s.users.get (a.platform, row.openid)).map (·.accountStatus) = some .blocked then
        .error (.firstAdminBootstrapError "the pairing target is blocked")
      else
        let s := Bootstrap.promote s a row.openid
        let s := { s with
          pairingCodes := s.pairingCodes.put (PairingCode.consume row "bootstrap" now)
          auditLogs := s.auditLogs ++ [a.audit row.openid] }
        .ok (s, permissionSnapshot s a.platform row.openid)

end EventServer.Services.Pairing
