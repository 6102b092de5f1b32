import EventServer.Db.Providers
import EventServer.Services.Accounts

/-! # Configured administrators

`bootstrap.py`: at start-up the event types and the provider instances of the in-image providers are
retired, and the users named in the settings become administrators. It can be repeated: `settled`
says when it has nothing left to write to event types and accounts. -/

namespace EventServer.Bootstrap

open EventServer.Db EventServer.Lib EventServer.Python EventServer.Services.Accounts

def legacyEventKeys : List String :=
  ["warframe.cetus.night", "warframe.konzu.rotation", "warframe.ghoul.started"]

def legacyProviderKeys : List String :=
  ["warframe.cetus_night", "warframe.konzu_rotation", "warframe.ghoul_event"]

/-- The administrators of the settings, and the reading of the clock for each event type. -/
structure Args where
  adminOpenids : List String
  now : String → Time

/-- The assignments to a legacy event type. -/
def Args.retire (a : Args) (row : EventType) : EventType :=
  { row with
    enabled := false
    deprecatedAt := some (row.deprecatedAt.getD (a.now row.eventKey)) }

/-- The assignment to a legacy provider instance. -/
def disable (row : ProviderInstance) : ProviderInstance := { row with enabled := false }

/-- The assignments to the stored or new user. -/
def adminUser (openid : String) (row : Option User) : User :=
  { row.getD { platform := "qqbot", openid := openid } with
    accountStatus := .active, role := .admin }

/-- The assignments to a stored or new permission. -/
def adminPermission (openid : String) (key : PermissionKey) (row : Option UserPermission) :
    UserPermission :=
  { row.getD { platform := "qqbot", openid := openid, permissionKey := key } with
    granted := true
    grantedBy := some "bootstrap" }

/-- The body of the loop over the administrators. -/
def writeAdmin (s : Store) (openid : String) : Store :=
  { s with
    users := s.users.put (adminUser openid (s.users.get ("qqbot", openid)))
    userPermissions :=
      writeRows (adminPermission openid) "qqbot" openid [.chat, .command] s.userPermissions }

/-- A user or a permission of an administrator is not stored. -/
def missing (s : Store) (openid : String) : Bool :=
  (s.users.get ("qqbot", openid)).isNone ||
    [PermissionKey.chat, .command].any fun key =>
      (s.userPermissions.get ("qqbot", openid, key)).isNone

/-- A row is added twice: `get` does not find rows that are not flushed. -/
def Args.conflicts (a : Args) (s : Store) : Bool :=
  a.adminOpenids.any fun openid => 1 < a.adminOpenids.count openid && missing s openid

/-- `bootstrap`. -/
def bootstrap (s : Store) (instances : ProviderInstances) (a : Args) :
    Except Raised (Store × ProviderInstances) :=
  if a.conflicts s then .error .integrityError
  else .ok
    ({ a.adminOpenids.foldl writeAdmin s with
        eventTypes := s.eventTypes.modifyIf (fun row => row.eventKey ∈ legacyEventKeys) a.retire
          (fun _ => rfl) fun _ => rfl },
      instances.modifyIf (fun row => row.providerKey ∈ legacyProviderKeys) disable (fun _ => rfl)
        fun _ => rfl)

/-! ### What is written -/

theorem adminUser_key (t : Users) (openid : String) :
    User.key (adminUser openid (t.get ("qqbot", openid))) = ("qqbot", openid) := by
  cases h : t.get ("qqbot", openid) with
  | none => rfl
  | some u => exact (Table.key_of_get h : User.key u = _)

theorem adminPermission_key (t : UserPermissions) (openid : String) (key : PermissionKey) :
    UserPermission.key (adminPermission openid key (t.get ("qqbot", openid, key))) =
      ("qqbot", openid, key) := by
  cases h : t.get ("qqbot", openid, key) with
  | none => rfl
  | some r => exact (Table.key_of_get h : UserPermission.key r = _)

theorem mem_keys (key : PermissionKey) : key ∈ [PermissionKey.chat, .command] := by
  cases key <;> simp

theorem get_users_writeAdmins (s : Store) (openids : List String) (p o : String) :
    (openids.foldl writeAdmin s).users.get (p, o) =
      if p = "qqbot" ∧ o ∈ openids then some (adminUser o (s.users.get (p, o)))
      else s.users.get (p, o) := by
  induction openids generalizing s with
  | nil => simp
  | cons openid openids ih =>
    have hput : (writeAdmin s openid).users.get (p, o) = if p = "qqbot" ∧ o = openid then
        some (adminUser openid (s.users.get ("qqbot", openid))) else s.users.get (p, o) := by
      unfold writeAdmin
      simp only [Table.get_put, adminUser_key, Prod.mk.injEq]
    rw [List.foldl_cons, ih, hput]
    by_cases hp : p = "qqbot"
    · subst hp
      by_cases ho : o = openid
      · subst ho
        by_cases hm : o ∈ openids <;> simp [hm, adminUser]
      · simp [ho]
    · simp [hp]

theorem get_permissions_writeAdmins (s : Store) (openids : List String) (p o : String)
    (key : PermissionKey) : (openids.foldl writeAdmin s).userPermissions.get (p, o, key) =
      if p = "qqbot" ∧ o ∈ openids then
        some (adminPermission o key (s.userPermissions.get (p, o, key)))
      else s.userPermissions.get (p, o, key) := by
  induction openids generalizing s with
  | nil => simp
  | cons openid openids ih =>
    have hrows : (writeAdmin s openid).userPermissions.get (p, o, key) =
        if p = "qqbot" ∧ o = openid then
          some (adminPermission openid key (s.userPermissions.get (p, o, key)))
        else s.userPermissions.get (p, o, key) := by
      refine (get_writeRows (fun t key => adminPermission_key t openid key)
        (fun key r => rfl) _ s.userPermissions p o key).trans ?_
      simp only [mem_keys, and_true]
    rw [List.foldl_cons, ih, hrows]
    by_cases hp : p = "qqbot"
    · subst hp
      by_cases ho : o = openid
      · subst ho
        by_cases hm : o ∈ openids <;> simp [hm, adminPermission]
      · simp [ho]
    · simp [hp]

theorem writeAdmins_eq (s : Store) (openids : List String) : openids.foldl writeAdmin s =
    { s with
      users := (openids.foldl writeAdmin s).users
      userPermissions := (openids.foldl writeAdmin s).userPermissions } := by
  induction openids generalizing s with
  | nil => rfl
  | cons openid openids ih =>
    rw [List.foldl_cons, ih]
    rfl

/-! ### Repeating it -/

/-- The legacy event types are retired, and the administrators stored with both permissions granted
at start-up. -/
structure Settled (s : Store) (a : Args) : Prop where
  retired : ∀ key ∈ legacyEventKeys, ∀ row, s.eventTypes.get key = some row →
    row.enabled = false ∧ row.deprecatedAt ≠ none
  admins : ∀ openid ∈ a.adminOpenids, ∃ u, s.users.get ("qqbot", openid) = some u ∧
    u.accountStatus = .active ∧ u.role = .admin
  permissions : ∀ openid ∈ a.adminOpenids, ∀ key, ∃ r,
    s.userPermissions.get ("qqbot", openid, key) = some r ∧ r.granted = true ∧
      r.grantedBy = some "bootstrap"

theorem retire_eq_self {a : Args} {row : EventType} :
    a.retire row = row ↔ row.enabled = false ∧ row.deprecatedAt ≠ none := by
  obtain ⟨key, name, description, version, schema, enabled, subscribable,
    deprecated, field, options, required⟩ := row
  cases deprecated with
  | none => simp [Args.retire]
  | some t => cases enabled <;> simp [Args.retire]

theorem adminUser_eq_self {openid : String} {row : Option User} :
    some (adminUser openid row) = row ↔
      ∃ u, row = some u ∧ u.accountStatus = .active ∧ u.role = .admin := by
  cases row with
  | none => simp
  | some u =>
    obtain ⟨platform, openid', role, status⟩ := u
    cases role <;> cases status <;> simp [adminUser]

theorem adminPermission_eq_self {openid : String} {key : PermissionKey}
    {row : Option UserPermission} : some (adminPermission openid key row) = row ↔
      ∃ r, row = some r ∧ r.granted = true ∧ r.grantedBy = some "bootstrap" := by
  cases row with
  | none => simp
  | some r =>
    have hrow : adminPermission openid key (some r) = r ↔
        r.granted = true ∧ r.grantedBy = some "bootstrap" := by
      obtain ⟨platform, openid', key', granted, grantedBy⟩ := r
      simp only [adminPermission, Option.getD_some, UserPermission.mk.injEq, true_and]
      exact and_congr eq_comm eq_comm
    simp [hrow]

theorem get_retired (s : Store) (a : Args) (hk : ∀ row, (a.retire row).eventKey = row.eventKey)
    (k : String) : (s.eventTypes.modifyIf (fun row => row.eventKey ∈ legacyEventKeys)
      a.retire hk hk).get k =
      (s.eventTypes.get k).map fun row => if k ∈ legacyEventKeys then a.retire row else row := by
  refine (Table.get_modifyIf hk hk).trans ?_
  cases hget : s.eventTypes.get k with
  | none => rfl
  | some row =>
    have hkey : row.eventKey = k := Table.key_of_get hget
    simp [hkey]

/-- **A repetition writes the same rows** exactly if everything is settled. -/
theorem settled_iff {s : Store} {instances : ProviderInstances} {a : Args}
    {r : Store × ProviderInstances} (h : bootstrap s instances a = .ok r) : Settled s a ↔
      (∀ k, r.1.eventTypes.get k = s.eventTypes.get k) ∧ (∀ k, r.1.users.get k = s.users.get k) ∧
        ∀ k, r.1.userPermissions.get k = s.userPermissions.get k := by
  unfold bootstrap at h
  split_ifs at h
  cases h
  have htypes := get_retired s a fun _ => rfl
  constructor
  · intro hs
    refine ⟨fun k => ?_, fun ⟨p, o⟩ => ?_, fun ⟨p, o, key⟩ => ?_⟩
    · refine (htypes k).trans ?_
      cases hget : s.eventTypes.get k with
      | none => rfl
      | some row =>
        rw [Option.map_some]
        split_ifs with hk
        · rw [retire_eq_self.mpr (hs.retired k hk row hget)]
        · rfl
    · refine (get_users_writeAdmins s a.adminOpenids p o).trans ?_
      split_ifs with hpo
      · obtain ⟨rfl, ho⟩ := hpo
        exact adminUser_eq_self.mpr (hs.admins o ho)
      · rfl
    · refine (get_permissions_writeAdmins s a.adminOpenids p o key).trans ?_
      split_ifs with hpo
      · obtain ⟨rfl, ho⟩ := hpo
        exact adminPermission_eq_self.mpr (hs.permissions o ho key)
      · rfl
  · rintro ⟨hsame, husers, hpermissions⟩
    refine ⟨fun k hk row hget => ?_, fun o ho => ?_, fun o ho key => ?_⟩
    · have hrow := (htypes k).symm.trans (hsame k)
      rw [hget, Option.map_some, if_pos hk, Option.some_inj] at hrow
      exact retire_eq_self.mp hrow
    · have hrow := (get_users_writeAdmins s a.adminOpenids "qqbot" o).symm.trans (husers _)
      rw [if_pos ⟨rfl, ho⟩] at hrow
      exact adminUser_eq_self.mp hrow
    · have hrow := (get_permissions_writeAdmins s a.adminOpenids "qqbot" o key).symm.trans
        (hpermissions _)
      rw [if_pos ⟨rfl, ho⟩] at hrow
      exact adminPermission_eq_self.mp hrow

end EventServer.Bootstrap
