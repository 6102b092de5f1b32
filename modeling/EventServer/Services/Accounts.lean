import EventServer.Services.Pairing

/-! # Who may be notified and who may administer

`Entitled` users receive deliveries, `EffectiveAdmin`s may change the accounts of their platform.
This module connects the two notions with the queries of the services (`isAdmin_iff`,
`activeCommandAdminCount_eq`) and says of each operation on accounts what it does to them. The roles
and account states are those of `users`, the granted `command` row is `HasCommand`. -/

namespace EventServer.Services.Accounts

open EventServer.Db EventServer.Lib EventServer.Python EventServer.Services.Users
open EventServer.Services.Pairing

/-- The user's `command` permission is granted. -/
def HasCommand (s : Store) (p o : String) : Prop :=
  ∃ r, s.userPermissions.get (p, o, .command) = some r ∧ r.granted = true

/-- The user is stored as active. -/
def Active (s : Store) (p o : String) : Prop :=
  ∃ u, s.users.get (p, o) = some u ∧ u.accountStatus = .active

/-- The user is active and has the role `admin`. -/
def ActiveAdmin (s : Store) (p o : String) : Prop :=
  ∃ u, s.users.get (p, o) = some u ∧ u.accountStatus = .active ∧ u.role = .admin

/-- The user may be notified: active, with `command` granted. -/
def Entitled (s : Store) (p o : String) : Prop := Active s p o ∧ HasCommand s p o

/-- The user may administer the platform `p`. -/
def EffectiveAdmin (s : Store) (p o : String) : Prop := ActiveAdmin s p o ∧ HasCommand s p o

instance (s : Store) (p o : String) : Decidable (HasCommand s p o) := by
  unfold HasCommand; infer_instance

instance (s : Store) (p o : String) : Decidable (Active s p o) := by
  unfold Active; infer_instance

instance (s : Store) (p o : String) : Decidable (ActiveAdmin s p o) := by
  unfold ActiveAdmin; infer_instance

instance (s : Store) (p o : String) : Decidable (Entitled s p o) := by
  unfold Entitled; infer_instance

instance (s : Store) (p o : String) : Decidable (EffectiveAdmin s p o) := by
  unfold EffectiveAdmin; infer_instance

theorem ActiveAdmin.active {s : Store} {p o : String} (h : ActiveAdmin s p o) : Active s p o := by
  obtain ⟨u, hu, ha, -⟩ := h
  exact ⟨u, hu, ha⟩

theorem EffectiveAdmin.entitled {s : Store} {p o : String} (h : EffectiveAdmin s p o) :
    Entitled s p o := ⟨h.1.active, h.2⟩

/-- Neither the users nor their permissions differ. -/
structure SameAccounts (s s' : Store) : Prop where
  users : s'.users = s.users
  userPermissions : s'.userPermissions = s.userPermissions

theorem SameAccounts.refl (s : Store) : SameAccounts s s := ⟨rfl, rfl⟩

theorem SameAccounts.trans {s₁ s₂ s₃ : Store} (h : SameAccounts s₁ s₂) (h' : SameAccounts s₂ s₃) :
    SameAccounts s₁ s₃ := ⟨h'.users.trans h.users, h'.userPermissions.trans h.userPermissions⟩

theorem SameAccounts.hasCommand {s s' : Store} (h : SameAccounts s s') {p o : String} :
    HasCommand s' p o ↔ HasCommand s p o := by
  unfold HasCommand
  rw [h.userPermissions]

theorem SameAccounts.entitled {s s' : Store} (h : SameAccounts s s') {p o : String} :
    Entitled s' p o ↔ Entitled s p o := by
  unfold Entitled Active
  rw [h.users, h.hasCommand]

theorem SameAccounts.effectiveAdmin {s s' : Store} (h : SameAccounts s s') {p o : String} :
    EffectiveAdmin s' p o ↔ EffectiveAdmin s p o := by
  unfold EffectiveAdmin ActiveAdmin
  rw [h.users, h.hasCommand]

/-! ### The queries -/

/-- The dictionary of a snapshot has the value of the row with the same key. -/
theorem permissionValue_rows (t : UserPermissions) (p o : String) (key : PermissionKey) :
    permissionValue (t.rows.filter fun r => r.platform = p ∧ r.openid = o) key =
      ((t.get (p, o, key)).map (·.granted)).getD false := by
  have hp : (fun r : UserPermission => decide (UserPermission.key r = (p, o, key))) =
      fun r => decide (decide (r.platform = p ∧ r.openid = o) = true ∧
        decide (r.permissionKey = key) = true) := by
    funext r
    simp [UserPermission.key, Bool.and_assoc]
  unfold permissionValue Table.get
  rw [hp, List.find?_filter]
  cases t.rows.find? _ <;> rfl

theorem command_iff {s : Store} {p o : String} :
    ((s.userPermissions.get (p, o, .command)).map (·.granted)).getD false = true ↔
      HasCommand s p o := by
  unfold HasCommand
  cases s.userPermissions.get (p, o, .command) <;> simp

theorem isAdmin_iff {s : Store} {p o : String} :
    (permissionSnapshot s p o).isAdmin = true ↔ EffectiveAdmin s p o := by
  unfold permissionSnapshot EffectiveAdmin ActiveAdmin
  cases h : s.users.get (p, o) with
  | none => simp [PermissionSnapshot.isAdmin]
  | some u =>
    simp only [PermissionSnapshot.isAdmin, permissionValue_rows, Bool.and_eq_true, command_iff]
    simp

theorem requireAdmin_eq_ok {s : Store} {p o : String} :
    requireAdmin s p o = .ok () ↔ EffectiveAdmin s p o := by
  rw [← isAdmin_iff]
  unfold requireAdmin
  split_ifs with h <;> simp [h]

theorem snapshot_active_command {s : Store} {p o : String} :
    ((permissionSnapshot s p o).accountStatus = .known .active ∧
      (permissionSnapshot s p o).command = true) ↔ Entitled s p o := by
  unfold permissionSnapshot Entitled Active
  cases h : s.users.get (p, o) with
  | none => simp
  | some u =>
    simp only [permissionValue_rows, command_iff]
    simp

theorem commandRows (s : Store) (p o : String) :
    s.userPermissions.rows.filter (fun r =>
      r.platform = p ∧ r.openid = o ∧ r.permissionKey = .command ∧ r.granted = true) =
      if HasCommand s p o then (s.userPermissions.get (p, o, .command)).toList else [] := by
  have hsplit : s.userPermissions.rows.filter (fun r =>
      r.platform = p ∧ r.openid = o ∧ r.permissionKey = .command ∧ r.granted = true) =
      (s.userPermissions.rows.filter fun r => UserPermission.key r = (p, o, .command)).filter
        (·.granted) := by
    rw [List.filter_filter]
    congr 1
    funext r
    simp only [UserPermission.key, Prod.mk.injEq, Bool.decide_and, Bool.decide_eq_true]
    ac_rfl
  rw [hsplit, Table.filter_key]
  cases h : s.userPermissions.get (p, o, .command) with
  | none => simp
  | some r => cases hr : r.granted <;> simp [HasCommand, h, hr]

theorem length_commandRows (s : Store) (p o : String) :
    (s.userPermissions.rows.filter fun r =>
      r.platform = p ∧ r.openid = o ∧ r.permissionKey = .command ∧ r.granted = true).length =
      if HasCommand s p o then 1 else 0 := by
  rw [commandRows]
  split_ifs with h
  · obtain ⟨r, hr, -⟩ := h
    rw [hr]; rfl
  · rfl

/-- **The count query counts the effective administrators.** -/
theorem activeCommandAdminCount_eq (s : Store) (p : String) :
    activeCommandAdminCount s p =
      (s.users.rows.filter fun u => u.platform = p ∧ EffectiveAdmin s p u.openid).length := by
  have hrow : ∀ u ∈ s.users.rows,
      (((s.userPermissions.rows.filter fun r => r.platform = u.platform ∧ r.openid = u.openid ∧
          r.permissionKey = .command ∧ r.granted = true).map fun r => (u, r)).filter fun ur =>
        ur.1.platform = p ∧ ur.1.role = .admin ∧ ur.1.accountStatus = .active).length =
        if u.platform = p ∧ EffectiveAdmin s p u.openid then 1 else 0 := by
    intro u hu
    have hg : s.users.get (u.platform, u.openid) = some u := Table.mem_iff_get.mp hu
    rw [List.filter_map, List.length_map]
    by_cases hp : u.platform = p
    · subst hp
      have hA : ActiveAdmin s u.platform u.openid ↔ u.role = .admin ∧
          u.accountStatus = .active := by
        simp [ActiveAdmin, hg, and_comm]
      by_cases ha : u.role = .admin ∧ u.accountStatus = .active
      · rw [List.filter_eq_self.mpr]
        · rw [length_commandRows]
          simp [EffectiveAdmin, hA, ha]
        · simp [ha]
      · rw [List.filter_eq_nil_iff.mpr]
        · simp [EffectiveAdmin, hA, ha]
        · intro r _
          simpa using ha
    · rw [List.filter_eq_nil_iff.mpr]
      · simp [hp]
      · intro r _
        simp [hp]
  unfold activeCommandAdminCount
  rw [List.filter_flatMap, List.length_flatMap, List.map_congr_left hrow]
  generalize s.users.rows = us
  induction us with
  | nil => rfl
  | cons u us ih =>
    rw [List.map_cons, List.sum_cons, ih, List.filter_cons]
    by_cases h : u.platform = p ∧ EffectiveAdmin s p u.openid <;> simp [h, Nat.add_comm]

theorem effectiveAdmin_mem {s : Store} {p o : String} (h : EffectiveAdmin s p o) :
    ∃ u ∈ s.users.rows.filter fun u => u.platform = p ∧ EffectiveAdmin s p u.openid,
      u.openid = o := by
  obtain ⟨u, hu, -⟩ := h.1
  have hk : User.key u = (p, o) := Table.key_of_get hu
  obtain ⟨rfl, rfl⟩ : u.platform = p ∧ u.openid = o := Prod.mk.inj hk
  exact ⟨u, by rw [List.mem_filter]; exact ⟨Table.mem_of_get hu, by simpa using h⟩, rfl⟩

/-- The count is zero exactly if there is no effective administrator. -/
theorem count_eq_zero {s : Store} {p : String} :
    activeCommandAdminCount s p = 0 ↔ ∀ o, ¬ EffectiveAdmin s p o := by
  rw [activeCommandAdminCount_eq, List.length_eq_zero_iff]
  constructor
  · intro h o ho
    obtain ⟨u, hu, -⟩ := effectiveAdmin_mem ho
    rw [h] at hu
    exact List.not_mem_nil hu
  · intro h
    rw [List.filter_eq_nil_iff]
    intro u _
    simp [h u.openid]

/-- **If the count is one**, an effective administrator is the only one. -/
theorem eq_of_count_eq_one {s : Store} {p o o' : String} (h : activeCommandAdminCount s p = 1)
    (ho : EffectiveAdmin s p o) (ho' : EffectiveAdmin s p o') : o = o' := by
  rw [activeCommandAdminCount_eq, List.length_eq_one_iff] at h
  obtain ⟨v, hv⟩ := h
  obtain ⟨u, hu, rfl⟩ := effectiveAdmin_mem ho
  obtain ⟨u', hu', rfl⟩ := effectiveAdmin_mem ho'
  rw [hv, List.mem_singleton] at hu hu'
  rw [hu, hu']

/-- If the count is not one, an effective administrator is not the only one. -/
theorem exists_other {s : Store} {p o : String} (h : activeCommandAdminCount s p ≠ 1)
    (ho : EffectiveAdmin s p o) : ∃ o', o' ≠ o ∧ EffectiveAdmin s p o' := by
  by_contra hno
  have hall : ∀ o', EffectiveAdmin s p o' → o' = o := by
    intro o' ho'
    by_contra hne
    exact hno ⟨o', hne, ho'⟩
  apply h
  obtain ⟨u, hu, rfl⟩ := effectiveAdmin_mem ho
  rw [activeCommandAdminCount_eq]
  have huniq : ∀ v ∈ s.users.rows.filter fun u => u.platform = p ∧ EffectiveAdmin s p u.openid,
      v = u := by
    intro v hv
    rw [List.mem_filter, decide_eq_true_eq] at hu hv
    refine Table.key_inj (t := s.users) hv.1 hu.1 ?_
    show (v.platform, v.openid) = (u.platform, u.openid)
    rw [hv.2.1, hu.2.1, hall v.openid hv.2.2]
  have hn : (s.users.rows.filter fun u => u.platform = p ∧ EffectiveAdmin s p u.openid).Nodup :=
    (List.Nodup.of_map _ s.users.key_nodup).filter _
  generalize s.users.rows.filter _ = l at hu huniq hn
  match l, hu, huniq, hn with
  | [v], _, _, _ => rfl
  | v :: w :: l, _, huniq, hn =>
    have hv := huniq v (by simp)
    have hw := huniq w (by simp)
    rw [hv, hw] at hn
    simp at hn

/-! ### Granting and revoking -/

theorem ensureUser_snd (s : Store) (p o : String) :
    (ensureUser s p o).2 = { s with users := (ensureUser s p o).2.users } := by
  unfold ensureUser
  cases s.users.get (p, o) <;> rfl

theorem get_ensureUser (s : Store) (p o : String) (k : String × String) :
    (ensureUser s p o).2.users.get k =
      if k = (p, o) then some (ensureUser s p o).1 else s.users.get k := by
  unfold ensureUser
  cases h : s.users.get (p, o) with
  | none => exact Table.get_put
  | some u =>
    split_ifs with hk
    · rw [hk, h]
    · rfl

theorem ensureUser_fst (s : Store) (p o : String) :
    (ensureUser s p o).1 = (s.users.get (p, o)).getD { platform := p, openid := o } := by
  unfold ensureUser
  cases s.users.get (p, o) <;> rfl

theorem hasCommand_ensureUser {s : Store} {p o p' o' : String} :
    HasCommand (ensureUser s p o).2 p' o' ↔ HasCommand s p' o' := by
  rw [ensureUser_snd]; exact Iff.rfl

theorem activeAdmin_ensureUser {s : Store} {p o p' o' : String} :
    ActiveAdmin (ensureUser s p o).2 p' o' ↔ ActiveAdmin s p' o' := by
  unfold ActiveAdmin
  rw [get_ensureUser, ensureUser_fst]
  split_ifs with h
  · rw [h]
    cases s.users.get (p, o) <;> simp
  · rfl

theorem active_ensureUser {s : Store} {p o p' o' : String} (h : Active s p' o') :
    Active (ensureUser s p o).2 p' o' := by
  unfold Active at h ⊢
  rw [get_ensureUser, ensureUser_fst]
  split_ifs with hk
  · rw [hk] at h
    obtain ⟨u, hu, ha⟩ := h
    exact ⟨u, by rw [hu]; rfl, ha⟩
  · exact h

theorem command_mem_keys {a : SetPermissions} : .command ∈ a.keys ↔ "command" ∈ a.permissions := by
  unfold SetPermissions.keys
  rw [List.mem_filterMap]
  constructor
  · rintro ⟨x, hx, he⟩
    unfold PermissionKey.ofString? at he
    split at he <;> simp_all
  · intro h
    exact ⟨"command", h, rfl⟩

theorem row_idem (a : SetPermissions) (key : PermissionKey) (r : Option UserPermission) :
    a.row key (some (a.row key r)) = a.row key r := by
  cases r <;> rfl

theorem row_key (t : UserPermissions) (a : SetPermissions) (key : PermissionKey) :
    UserPermission.key (a.row key (t.get (a.platform, a.openid, key))) =
      (a.platform, a.openid, key) := by
  cases h : t.get (a.platform, a.openid, key) with
  | none => rfl
  | some r => exact (Table.key_of_get h : UserPermission.key r = _)

/-- The loop that writes permission rows of one user, each computed by `f` from the stored one. -/
def writeRows (f : PermissionKey → Option UserPermission → UserPermission) (p₀ o₀ : String)
    (ks : List PermissionKey) (t : UserPermissions) : UserPermissions :=
  ks.foldl (fun t k => t.put (f k (t.get (p₀, o₀, k)))) t

theorem get_writeRows {f : PermissionKey → Option UserPermission → UserPermission} {p₀ o₀ : String}
    (hk : ∀ (t : UserPermissions) key,
      UserPermission.key (f key (t.get (p₀, o₀, key))) = (p₀, o₀, key))
    (hi : ∀ key r, f key (some (f key r)) = f key r) (ks : List PermissionKey) (t : UserPermissions)
    (p o : String) (key : PermissionKey) : (writeRows f p₀ o₀ ks t).get (p, o, key) =
      if (p = p₀ ∧ o = o₀) ∧ key ∈ ks then some (f key (t.get (p, o, key)))
      else t.get (p, o, key) := by
  unfold writeRows
  induction ks generalizing t with
  | nil => simp
  | cons k ks ih =>
    rw [List.foldl_cons, ih]
    simp only [Table.get_put, hk, Prod.mk.injEq, List.mem_cons]
    by_cases hpo : p = p₀ ∧ o = o₀
    · obtain ⟨rfl, rfl⟩ := hpo
      by_cases hkk : key = k
      · subst hkk
        by_cases hm : key ∈ ks <;> simp [hm, hi]
      · simp [hkk]
    · have hpo' : ¬ (p = p₀ ∧ o = o₀ ∧ key = k) := fun h => hpo ⟨h.1, h.2.1⟩
      simp [hpo, hpo']

theorem writePermissions_eq (s : Store) (a : SetPermissions) :
    writePermissions s a =
      { s with
        userPermissions := writeRows a.row a.platform a.openid a.keys s.userPermissions } := by
  unfold writePermissions writeRows
  generalize a.keys = ks
  induction ks generalizing s with
  | nil => rfl
  | cons k ks ih => rw [List.foldl_cons, ih, List.foldl_cons]

theorem applyPermissions_eq (s : Store) (a : SetPermissions) :
    applyPermissions s a =
      { s with
        users := (ensureUser s a.platform a.openid).2.users
        userPermissions := writeRows a.row a.platform a.openid a.keys s.userPermissions
        auditLogs := s.auditLogs ++ [a.audit] } := by
  unfold applyPermissions
  rw [writePermissions_eq, ensureUser_snd]

/-- After the call `command` is as requested for its target and as before for everyone else. -/
theorem hasCommand_applyPermissions {s : Store} {a : SetPermissions} {p o : String} :
    HasCommand (applyPermissions s a) p o ↔
      if (p = a.platform ∧ o = a.openid) ∧ "command" ∈ a.permissions then a.granted = true
      else HasCommand s p o := by
  rw [applyPermissions_eq]
  unfold HasCommand
  simp only [get_writeRows (fun t key => row_key t a key) (row_idem a), ← command_mem_keys]
  split_ifs with h
  · simp [SetPermissions.row]
  · rfl

theorem activeAdmin_applyPermissions {s : Store} {a : SetPermissions} {p o : String} :
    ActiveAdmin (applyPermissions s a) p o ↔ ActiveAdmin s p o := by
  rw [applyPermissions_eq]
  exact activeAdmin_ensureUser (p := a.platform) (o := a.openid)

theorem active_applyPermissions {s : Store} {a : SetPermissions} {p o : String}
    (h : Active s p o) : Active (applyPermissions s a) p o := by
  rw [applyPermissions_eq]
  exact active_ensureUser (p := a.platform) (o := a.openid) h

/-! ### Changing a role -/

theorem get_applyRole (s : Store) (a : ChangeRole) (role : Role) (k : String × String) :
    (applyRole s a role).users.get k =
      if k = (a.platform, a.openid) then
        some { (ensureUser s a.platform a.openid).1 with role := role }
      else s.users.get k := by
  have hk : User.key { (ensureUser s a.platform a.openid).1 with role := role } =
      (a.platform, a.openid) := by
    rw [ensureUser_fst]
    cases h : s.users.get (a.platform, a.openid) with
    | none => rfl
    | some u => exact (Table.key_of_get h : User.key u = _)
  unfold applyRole
  rw [Table.get_put, hk]

theorem hasCommand_applyRole {s : Store} {a : ChangeRole} {role : Role} {p o : String} :
    HasCommand (applyRole s a role) p o ↔ HasCommand s p o := Iff.rfl

theorem active_applyRole {s : Store} {a : ChangeRole} {role : Role} {p o : String}
    (h : Active s p o) : Active (applyRole s a role) p o := by
  unfold Active at h ⊢
  rw [get_applyRole]
  split_ifs with hk
  · rw [hk] at h
    obtain ⟨u, hu, ha⟩ := h
    exact ⟨_, rfl, by rw [ensureUser_fst, hu]; exact ha⟩
  · exact h

theorem activeAdmin_applyRole_of_ne {s : Store} {a : ChangeRole} {role : Role} {p o : String}
    (hne : ¬ (p = a.platform ∧ o = a.openid)) :
    ActiveAdmin (applyRole s a role) p o ↔ ActiveAdmin s p o := by
  unfold ActiveAdmin
  rw [get_applyRole, if_neg (by simpa using hne)]

/-- The target is an administrator afterwards if that is the role it was given. -/
theorem activeAdmin_applyRole {s : Store} {a : ChangeRole} {role : Role} :
    ActiveAdmin (applyRole s a role) a.platform a.openid ↔
      role = .admin ∧ ((s.users.get (a.platform, a.openid)).getD
        { platform := a.platform, openid := a.openid }).accountStatus = .active := by
  unfold ActiveAdmin
  rw [get_applyRole, if_pos rfl, ensureUser_fst]
  simp [and_comm]

/-! ### The first administrator -/

theorem permission_key (t : UserPermissions) (a : Bootstrap) (o : String) (key : PermissionKey) :
    UserPermission.key (a.permission o key (t.get (a.platform, o, key))) =
      (a.platform, o, key) := by
  cases h : t.get (a.platform, o, key) with
  | none => rfl
  | some r => exact (Table.key_of_get h : UserPermission.key r = _)

theorem hasCommand_promote {s : Store} {a : Bootstrap} {openid p o : String} :
    HasCommand (Bootstrap.promote s a openid) p o ↔
      (p = a.platform ∧ o = openid) ∨ HasCommand s p o := by
  unfold HasCommand Bootstrap.promote
  simp only [List.foldl_cons, List.foldl_nil, Table.get_put, permission_key, Prod.mk.injEq,
    reduceCtorEq, and_false, if_false, and_true]
  by_cases h : p = a.platform ∧ o = openid
  · simp [h, Bootstrap.permission]
  · simp [h]

theorem get_promote (s : Store) (a : Bootstrap) (openid : String) (k : String × String) :
    (Bootstrap.promote s a openid).users.get k =
      if k = (a.platform, openid) then
        some { (ensureUser s a.platform openid).1 with accountStatus := .active, role := .admin }
      else s.users.get k := by
  have hk : User.key { (ensureUser s a.platform openid).1 with
      accountStatus := .active, role := .admin } = (a.platform, openid) := by
    rw [ensureUser_fst]
    cases h : s.users.get (a.platform, openid) with
    | none => rfl
    | some u => exact (Table.key_of_get h : User.key u = _)
  unfold Bootstrap.promote
  rw [Table.get_put, hk]

theorem active_promote {s : Store} {a : Bootstrap} {openid p o : String} (h : Active s p o) :
    Active (Bootstrap.promote s a openid) p o := by
  unfold Active at h ⊢
  rw [get_promote]
  split_ifs with hk
  · exact ⟨_, rfl, rfl⟩
  · exact h

theorem activeAdmin_promote {s : Store} {a : Bootstrap} {openid p o : String} :
    ActiveAdmin (Bootstrap.promote s a openid) p o ↔
      (p = a.platform ∧ o = openid) ∨ ActiveAdmin s p o := by
  unfold ActiveAdmin
  rw [get_promote]
  by_cases h : p = a.platform ∧ o = openid
  · simp [h]
  · rw [if_neg (by simpa using h)]
    simp [h]

/-! ### The guards -/

variable [Runtime]

/-- What a call of `set_permissions` returns for valid permissions and an operator who is an
effective administrator. -/
theorem setPermissions_eq {s : Store} {a : SetPermissions} (hv : a.invalid = [])
    (hne : a.permissions ≠ []) (ho : EffectiveAdmin s a.platform a.operatorOpenid) :
    setPermissions s a =
      if a.removesLast (ensureUser s a.platform a.openid).1
          (s.userPermissions.get (a.platform, a.openid, .command))
          (activeCommandAdminCount (ensureUser s a.platform a.openid).2 a.platform) then
        .error (.lastAdminError "cannot revoke command from the last active admin")
      else .ok (applyPermissions s a,
        permissionSnapshot (applyPermissions s a) a.platform a.openid) := by
  unfold setPermissions
  rw [if_neg (by simp [hv, hne]), requireAdmin_eq_ok.mpr ho]
  simp only
  rw [show (ensureUser s a.platform a.openid).2.userPermissions = s.userPermissions by
    rw [ensureUser_snd]]
  rfl

theorem setPermissions_ok {s : Store} {a : SetPermissions} {r : Store × PermissionSnapshot}
    (h : setPermissions s a = .ok r) :
    (a.invalid = [] ∧ a.permissions ≠ []) ∧ EffectiveAdmin s a.platform a.operatorOpenid ∧
      r.1 = applyPermissions s a := by
  by_cases hv : a.invalid ≠ [] ∨ a.permissions = []
  · simp [setPermissions, hv] at h
  · have hv' : a.invalid = [] ∧ a.permissions ≠ [] := by
      rw [not_or, not_not] at hv; exact hv
    by_cases ho : EffectiveAdmin s a.platform a.operatorOpenid
    · rw [setPermissions_eq hv'.1 hv'.2 ho] at h
      split_ifs at h
      cases h
      exact ⟨hv', ho, rfl⟩
    · have hr : ∃ e, requireAdmin s a.platform a.operatorOpenid = .error e := by
        cases hr : requireAdmin s a.platform a.operatorOpenid with
        | error e => exact ⟨e, rfl⟩
        | ok u => exact absurd (requireAdmin_eq_ok.mp hr) ho
      obtain ⟨e, hr⟩ := hr
      simp [setPermissions, hv, hr] at h

omit [Runtime] in
theorem changeRole_eq {s : Store} {a : ChangeRole} {role : Role}
    (hv : Role.ofString? a.role = some role)
    (ho : EffectiveAdmin s a.platform a.operatorOpenid) :
    changeRole s a =
      if ((s.users.get (a.platform, a.openid)).map fun t => ChangeRole.removesLast t role
          ((s.userPermissions.get (a.platform, a.openid, .command)).map (·.granted))
          (activeCommandAdminCount s a.platform)).getD false then
        .error (.lastAdminError "cannot demote the last active command-enabled admin")
      else .ok (applyRole s a role,
        permissionSnapshot (applyRole s a role) a.platform a.openid) := by
  unfold changeRole
  rw [hv, requireAdmin_eq_ok.mpr ho]

omit [Runtime] in
theorem changeRole_ok {s : Store} {a : ChangeRole} {r : Store × PermissionSnapshot}
    (h : changeRole s a = .ok r) :
    ∃ role, Role.ofString? a.role = some role ∧ EffectiveAdmin s a.platform a.operatorOpenid ∧
      r.1 = applyRole s a role := by
  cases hv : Role.ofString? a.role with
  | none => simp [changeRole, hv] at h
  | some role =>
    by_cases ho : EffectiveAdmin s a.platform a.operatorOpenid
    · rw [changeRole_eq hv ho] at h
      split_ifs at h
      cases h
      exact ⟨role, rfl, ho, rfl⟩
    · cases hr : requireAdmin s a.platform a.operatorOpenid with
      | error e => simp [changeRole, hv, hr] at h
      | ok u => exact absurd (requireAdmin_eq_ok.mp hr) ho

theorem createPairingCode_ok {s : Store} {now : Time} {platform openid code : String} {ttl : ℤ}
    {r : Store × PairingCode} (h : createPairingCode s now platform openid code ttl = .ok r) :
    ∃ codes, s.pairingCodes.insert? r.2 = some codes ∧ r.1 = { s with pairingCodes := codes } ∧
      r.2.codeHash = pairingCodeHash code ∧ r.2.platform = platform ∧ r.2.openid = openid ∧
      r.2.expiresAt = now + minutes ttl := by
  simp only [createPairingCode] at h
  split at h
  · cases h
  · rename_i codes hinsert
    cases h
    exact ⟨codes, hinsert, rfl, rfl, rfl, rfl, rfl⟩

omit [Runtime] in
theorem approve_check_ok {a : Approve} {found : Option PairingCode} {now : Time} {row : PairingCode}
    (h : a.check found now = .ok row) :
    found = some row ∧ row.platform = a.platform ∧ row.consumedAt = none ∧ now < row.expiresAt := by
  cases found with
  | none => cases h
  | some found =>
    simp only [Approve.check] at h
    split_ifs at h with hp hc
    cases h
    rw [not_or, not_not] at hc
    exact ⟨rfl, not_not.mp hp, hc.1, lt_of_not_ge hc.2⟩

omit [Runtime] in
theorem bootstrap_check_ok {a : Bootstrap} {found : Option PairingCode} {now : Time}
    {row : PairingCode} (h : a.check found now = .ok row) :
    found = some row ∧ row.platform = a.platform ∧ row.consumedAt = none ∧ now < row.expiresAt := by
  cases found with
  | none => cases h
  | some found =>
    simp only [Bootstrap.check] at h
    split_ifs at h with hp hc
    cases h
    rw [not_or, not_not] at hc
    exact ⟨rfl, not_not.mp hp, hc.1, lt_of_not_ge hc.2⟩

theorem approvePairingCode_ok {s : Store} {now : Time} {a : Approve}
    {r : Store × PermissionSnapshot} (h : approvePairingCode s now a = .ok r) :
    ∃ row snapshot, a.check (s.pairingCodes.get (pairingCodeHash a.code)) now = .ok row ∧
      setPermissions s (a.grant row) = .ok (applyPermissions s (a.grant row), snapshot) ∧
      r.1 = { applyPermissions s (a.grant row) with
        pairingCodes := s.pairingCodes.put (PairingCode.consume row a.operatorOpenid now) } := by
  unfold approvePairingCode at h
  cases hr : requireAdmin s a.platform a.operatorOpenid with
  | error e => simp [hr] at h
  | ok u =>
    cases hc : a.check (s.pairingCodes.get (pairingCodeHash a.code)) now with
    | error e => simp [hr, hc] at h
    | ok row =>
      cases hs : setPermissions s (a.grant row) with
      | error e => simp [hr, hc, hs] at h
      | ok r' =>
        simp only [hr, hc, hs] at h
        cases h
        obtain ⟨-, -, h1⟩ := setPermissions_ok hs
        refine ⟨row, r'.2, rfl, ?_, ?_⟩
        · rw [← h1]; exact hs
        · rw [h1, applyPermissions_eq]

theorem bootstrapFirstAdmin_ok {s : Store} {now : Time} {a : Bootstrap}
    {r : Store × PermissionSnapshot} (h : bootstrapFirstAdmin s now a = .ok r) :
    ∃ row, a.check (s.pairingCodes.get (pairingCodeHash a.normalizedCode)) now = .ok row ∧
      r.1 = { Bootstrap.promote s a row.openid with
        pairingCodes := s.pairingCodes.put (PairingCode.consume row "bootstrap" now)
        auditLogs := s.auditLogs ++ [a.audit row.openid] } := by
  unfold bootstrapFirstAdmin at h
  split_ifs at h with h1 h2
  cases hc : a.check (s.pairingCodes.get (pairingCodeHash a.normalizedCode)) now with
  | error e => simp [hc] at h
  | ok row =>
    simp only [hc] at h
    split_ifs at h
    cases h
    exact ⟨row, rfl, rfl⟩

end EventServer.Services.Accounts
