import EventServer.Lib.Interleave
import EventServer.Db.Session
import EventServer.System

/-! # Revoking and demoting as concurrent transactions

`set_permissions` and `change_role` as transactions at READ COMMITTED, in three steps: the check of
the operator; the guard, on the rows of the target and the count of effective administrators; and
the writes, which are committed together. The counted rows are not locked, so other transactions
commit between the guard and the writes.

A guard that passes leaves an administrator other than the target (`other_of_guard`). That stays
true unless another transaction takes this one away, so a platform keeps an administrator as long as
no two transactions that overlap take away all there are; two that do leave none
(`admins_of_races`). -/

namespace EventServer.Services.AdminRaces

open EventServer.Db EventServer.Lib EventServer.Python EventServer.System
open EventServer.Services.Users EventServer.Services.Accounts

/-- A call with valid arguments; a call without raises before it reads anything. -/
inductive Request where
  | setPermissions (a : SetPermissions) (h : a.invalid = [] ∧ a.permissions ≠ [])
  | changeRole (a : ChangeRole) (role : Role) (h : Role.ofString? a.role = some role)

namespace Request

def platform : Request → String
  | setPermissions a _ => a.platform
  | changeRole a _ _ => a.platform

def openid : Request → String
  | setPermissions a _ => a.openid
  | changeRole a _ _ => a.openid

def operatorOpenid : Request → String
  | setPermissions a _ => a.operatorOpenid
  | changeRole a _ _ => a.operatorOpenid

/-- The guard refuses the request: on the target's rows as the session holds them, and the role's
`granted` column and the count as they are. -/
def refused (s : Store) (target : Option User) (command : Option UserPermission) : Request → Bool
  | setPermissions a _ =>
    a.removesLast (target.getD { platform := a.platform, openid := a.openid }) command
      (activeCommandAdminCount s a.platform)
  | changeRole a role _ =>
    (target.map fun t => ChangeRole.removesLast t role
      ((s.userPermissions.get (a.platform, a.openid, .command)).map (·.granted))
      (activeCommandAdminCount s a.platform)).getD false

/-- The guard has loaded the target's `command` row. -/
def loadsCommand (target : Option User) : Request → Bool
  | setPermissions a _ => !a.granted && "command" ∈ a.permissions &&
      (target.map fun t => decide (t.role = .admin ∧ t.accountStatus = .active)).getD false
  | changeRole _ _ _ => false

end Request

/-! ### What is written -/

/-- The stored permission row after the flush of a row that was loaded as `loaded`. -/
def flushPermission (loaded changed current : UserPermission) : UserPermission :=
  { current with
    granted := column loaded.granted changed.granted current.granted
    grantedBy := column loaded.grantedBy changed.grantedBy current.grantedBy }

/-- The stored user after the flush of a row that was loaded as `loaded`. -/
def flushUser (loaded changed current : User) : User :=
  { current with
    role := column loaded.role changed.role current.role
    accountStatus := column loaded.accountStatus changed.accountStatus current.accountStatus }

/-- The row of one permission after the write: `command` may have been loaded before, by the guard;
the others are loaded by the loop. -/
def writtenRow (a : SetPermissions) (command : Option UserPermission) (key : PermissionKey)
    (current : Option UserPermission) : UserPermission :=
  match (if key = .command then command else none), current with
  | some loaded, some current => flushPermission loaded (a.row key (some loaded)) current
  | _, _ => a.row key current

/-- The loop of `set_permissions`, with the row the guard has loaded. -/
def writeLoaded (t : UserPermissions) (a : SetPermissions) (command : Option UserPermission) :
    UserPermissions :=
  writeRows (writtenRow a command) a.platform a.openid a.keys t

/-- The writes of a request, or `none` if the row of a new user collides with a stored one. -/
def Request.write (s : Store) (target : Option User) (command : Option UserPermission) :
    Request → Option Store
  | .setPermissions a _ =>
    let s := { s with
      userPermissions := writeLoaded s.userPermissions a command
      auditLogs := s.auditLogs ++ [a.audit] }
    match target with
    | some _ => some s
    | none => (s.users.insert? { platform := a.platform, openid := a.openid }).map fun users =>
      { s with users := users }
  | .changeRole a role _ =>
    match target with
    | some t => (s.users.get (a.platform, a.openid)).map fun current =>
      { s with
        users := s.users.put (flushUser t { t with role := role } current)
        auditLogs := s.auditLogs ++ [a.audit] }
    | none =>
      (s.users.insert? { platform := a.platform, openid := a.openid, role := role }).map
        fun users => { s with users := users, auditLogs := s.auditLogs ++ [a.audit] }

/-! ### The transactions -/

/-- Where a transaction stands, and the rows its session holds: the operator's, then the
target's. -/
inductive Local where
  | start
  | checked (operator : Option User) (command : Option UserPermission)
  | guarded (target : Option User) (command : Option UserPermission)
  | committed
  | aborted

/-- `go held`: where the operator is the target, `held` says whether the session still holds the
rows it has loaded for the check; it keeps no strong references to them. -/
inductive Choice where
  | go (held : Bool)
  | rollback

variable {ι : Type}

/-- The moves of the transaction that answers `req i`. -/
def move (req : ι → Request) (i : ι) : Choice → Store → Local → Option (Store × Local)
  | .go _, s, .start =>
    if (permissionSnapshot s (req i).platform (req i).operatorOpenid).isAdmin then
      some (s, .checked (s.users.get ((req i).platform, (req i).operatorOpenid))
        (s.userPermissions.get ((req i).platform, (req i).operatorOpenid, .command)))
    else some (s, .aborted)
  | .go held, s, .checked operator command =>
    let holds := held && (req i).openid = (req i).operatorOpenid
    let target := if holds then operator else s.users.get ((req i).platform, (req i).openid)
    let command := if holds then command
      else s.userPermissions.get ((req i).platform, (req i).openid, .command)
    if (req i).refused s target command then some (s, .aborted)
    else some (s, .guarded target (if holds || (req i).loadsCommand target then command else none))
  | .go _, s, .guarded target command =>
    match (req i).write s target command with
    | some s' => some (s', .committed)
    | none => some (s, .aborted)
  | .rollback, s, .checked _ _ => some (s, .aborted)
  | .rollback, s, .guarded _ _ => some (s, .aborted)
  | _, _, _ => none

/-- Any number of requests against one database. -/
def system (req : ι → Request) : Sys ι Choice Empty Store Local where
  move := move req
  env e := e.elim

/-! ### What a write does to administrators -/

theorem writtenRow_key (t : UserPermissions) (a : SetPermissions) (command : Option UserPermission)
    (key : PermissionKey) :
    UserPermission.key (writtenRow a command key (t.get (a.platform, a.openid, key))) =
      (a.platform, a.openid, key) := by
  unfold writtenRow
  split
  · rename_i hcur
    exact (Table.key_of_get hcur : UserPermission.key _ = _)
  · exact row_key t a key

theorem writtenRow_idem (a : SetPermissions) (command : Option UserPermission) (key : PermissionKey)
    (r : Option UserPermission) :
    writtenRow a command key (some (writtenRow a command key r)) = writtenRow a command key r := by
  unfold writtenRow
  cases (if key = .command then command else none) with
  | none => exact row_idem a key r
  | some loaded =>
    cases r with
    | none => simp [flushPermission, SetPermissions.row]
    | some current => simp [flushPermission, column_idem]

/-- The request takes administration away from its target: it revokes a `command` that was granted
when it was loaded, or gives the role `user` to one who was an administrator. -/
def Request.takes (target : Option User) (command : Option UserPermission) : Request → Bool
  | .setPermissions a _ => target.isSome && !a.granted && "command" ∈ a.permissions &&
      (command.map (·.granted)).getD true
  | .changeRole _ role _ => role = .user && (target.map (·.role)) = some .admin

section Write

variable {s s' : Store} {req : Request} {target : Option User} {command : Option UserPermission}

/-- The ways a request can write: the permissions of its target, which may be new, or its role. -/
inductive Written (s : Store) (target : Option User)
    (command : Option UserPermission) (s' : Store) :
    Request → Prop
  | permissions (a : SetPermissions) (h : a.invalid = [] ∧ a.permissions ≠ [])
    (hcom : s'.userPermissions = writeLoaded s.userPermissions a command)
    (husers : target.isSome = true ∧ s'.users = s.users ∨ target = none ∧
      s.users.insert? { platform := a.platform, openid := a.openid } = some s'.users) :
    Written s target command s' (.setPermissions a h)
  | role (a : ChangeRole) (role : Role) (h : Role.ofString? a.role = some role)
    (hcom : s'.userPermissions = s.userPermissions)
    (husers : (∃ t current, target = some t ∧ s.users.get (a.platform, a.openid) = some current ∧
        s'.users = s.users.put (flushUser t { t with role := role } current)) ∨ target = none ∧
      s.users.insert? { platform := a.platform, openid := a.openid, role := role } =
        some s'.users) :
    Written s target command s' (.changeRole a role h)

theorem write_cases (h : req.write s target command = some s') :
    Written s target command s' req := by
  cases req with
  | setPermissions a hv =>
    cases target with
    | some t =>
      cases h
      exact .permissions a hv rfl (Or.inl ⟨rfl, rfl⟩)
    | none =>
      simp only [Request.write, Option.map_eq_some_iff] at h
      obtain ⟨users, hi, rfl⟩ := h
      exact .permissions a hv rfl (Or.inr ⟨rfl, hi⟩)
  | changeRole a role hv =>
    cases target with
    | some t =>
      simp only [Request.write, Option.map_eq_some_iff] at h
      obtain ⟨current, hg, rfl⟩ := h
      exact .role a role hv rfl (Or.inl ⟨t, current, rfl, hg, rfl⟩)
    | none =>
      simp only [Request.write, Option.map_eq_some_iff] at h
      obtain ⟨users, hi, rfl⟩ := h
      exact .role a role hv rfl (Or.inr ⟨rfl, hi⟩)

/-- Nobody but the target gains or loses `command`, and the target only if it is written. -/
theorem get_command_written (a : SetPermissions) (t : UserPermissions) (p o : String) :
    (writeLoaded t a command).get (p, o, .command) =
      if (p = a.platform ∧ o = a.openid) ∧ "command" ∈ a.permissions then
        some (writtenRow a command .command (t.get (p, o, .command)))
      else t.get (p, o, .command) := by
  unfold writeLoaded
  rw [get_writeRows (fun t key => writtenRow_key t a command key) (writtenRow_idem a command)]
  simp only [command_mem_keys]

/-- **A write concerns its target only.** -/
theorem write_other (h : req.write s target command = some s') {p o : String}
    (hne : ¬ (p = req.platform ∧ o = req.openid)) :
    EffectiveAdmin s' p o ↔ EffectiveAdmin s p o := by
  have hne' : ¬ ((p, o) = (req.platform, req.openid)) := by simpa using hne
  have hget : s'.users.get (p, o) = s.users.get (p, o) := by
    cases write_cases h with
    | permissions a hv _ husers =>
      rcases husers with ⟨-, hu⟩ | ⟨-, hi⟩
      · rw [hu]
      · rw [Table.get_of_insert? hi]
        exact if_neg hne'
    | role a role hv _ husers =>
      rcases husers with ⟨t, current, -, hg, hu⟩ | ⟨-, hi⟩
      · have hkc : User.key current = (a.platform, a.openid) := Table.key_of_get hg
        have hk : User.key (flushUser t { t with role := role } current) = (a.platform, a.openid) :=
          hkc
        rw [hu, Table.get_put, hk]
        exact if_neg hne'
      · rw [Table.get_of_insert? hi]
        exact if_neg hne'
  have hcom : s'.userPermissions.get (p, o, .command) = s.userPermissions.get (p, o, .command) := by
    cases write_cases h with
    | permissions a hv hc _ =>
      rw [hc, get_command_written, if_neg fun hpo => hne hpo.1]
    | role a role hv hc _ => rw [hc]
  unfold EffectiveAdmin ActiveAdmin HasCommand
  rw [hget, hcom]

/-- A revoke of a `command` that was granted when it was loaded. -/
theorem revoked_writtenRow {a : SetPermissions} {current : Option UserPermission}
    (hgr : a.granted = false) (hl : (command.map (·.granted)).getD true = true) :
    (writtenRow a command .command current).granted = false := by
  cases command with
  | none => exact hgr
  | some loaded =>
    cases current with
    | none => exact hgr
    | some current =>
      have hlg : loaded.granted = true := hl
      show column loaded.granted a.granted current.granted = false
      rw [hlg, hgr, column_of_ne (by decide)]

/-- A grant, and a revoke of a `command` that was not granted when it was loaded, leave it
granted. -/
theorem granted_writtenRow {a : SetPermissions} {row : UserPermission} (hg : row.granted = true)
    (h : a.granted = true ∨ (command.map (·.granted)).getD true = false) :
    (writtenRow a command .command (some row)).granted = true := by
  cases command with
  | none =>
    rcases h with hgr | hl
    · exact hgr
    · cases hl
  | some loaded =>
    show column loaded.granted a.granted row.granted = true
    rcases h with hgr | hl
    · rw [hgr, hg, column_changed]
    · have hl' : loaded.granted = false := hl
      cases hgr : a.granted with
      | false => rw [hl', column_unchanged, hg]
      | true => rw [hg, column_changed]

/-- An administrator stays one, unless one who was loaded as an administrator gets the role
`user`. -/
theorem admin_flushUser {t u : User} {role : Role} (hr : u.role = .admin)
    (h : ¬ (role = .user ∧ t.role = .admin)) :
    (flushUser t { t with role := role } u).role = .admin := by
  show column t.role role u.role = .admin
  rw [hr]
  cases role with
  | admin => exact column_changed _ _
  | user =>
    have htr : t.role = .user := by
      cases htr : t.role with
      | user => rfl
      | admin => exact absurd ⟨rfl, htr⟩ h
    rw [htr, column_unchanged]

/-- **A write that takes administration away** leaves its target without it. -/
theorem write_takes (h : req.write s target command = some s')
    (ht : req.takes target command = true) : ¬ EffectiveAdmin s' req.platform req.openid := by
  rintro ⟨⟨u, hu, -, hr⟩, row, hrow, hg⟩
  cases write_cases h with
  | permissions a hv hc _ =>
    simp only [Request.takes, Bool.and_eq_true, Bool.not_eq_true', decide_eq_true_eq] at ht
    obtain ⟨⟨⟨-, hgr⟩, hm⟩, hl⟩ := ht
    rw [hc, get_command_written, if_pos ⟨⟨rfl, rfl⟩, hm⟩, Option.some_inj] at hrow
    rw [← hrow, revoked_writtenRow hgr hl] at hg
    cases hg
  | role a role hv _ husers =>
    simp only [Request.takes, Bool.and_eq_true, decide_eq_true_eq, Option.map_eq_some_iff] at ht
    obtain ⟨rfl, t, rfl, hta⟩ := ht
    rcases husers with ⟨t', current, ht', hgc, hus⟩ | ⟨hnone, -⟩
    · cases ht'
      have hkc : User.key current = (a.platform, a.openid) := Table.key_of_get hgc
      have hk : User.key (flushUser t { t with role := .user } current) = (a.platform, a.openid) :=
        hkc
      have hput : s'.users.get (a.platform, a.openid) = some u := hu
      rw [hus, Table.get_put, hk, if_pos rfl, Option.some_inj] at hput
      rw [← hput] at hr
      simp [flushUser, hta, column_of_ne] at hr
    · cases hnone

theorem write_keeps (h : req.write s target command = some s')
    (ht : req.takes target command = false) (he : EffectiveAdmin s req.platform req.openid) :
    EffectiveAdmin s' req.platform req.openid := by
  obtain ⟨⟨u, hu, ha, hr⟩, row, hrow, hg⟩ := he
  cases write_cases h with
  | permissions a hv hc husers =>
    have hu' : s.users.get (a.platform, a.openid) = some u := hu
    have hrow' : s.userPermissions.get (a.platform, a.openid, .command) = some row := hrow
    rcases husers with ⟨hsome, hus⟩ | ⟨-, hi⟩
    · refine ⟨⟨u, by rw [hus]; exact hu, ha, hr⟩, ?_⟩
      show HasCommand s' a.platform a.openid
      unfold HasCommand
      rw [hc, get_command_written, hrow']
      split_ifs with hm
      · simp only [Request.takes, hsome, hm.2, Bool.true_and, decide_true, Bool.and_true,
          Bool.and_eq_false_iff, Bool.not_eq_false'] at ht
        exact ⟨_, rfl, granted_writtenRow hg ht⟩
      · exact ⟨row, rfl, hg⟩
    · have hnone : s.users.get (a.platform, a.openid) = none := Table.get_eq_none_of_insert? hi
      rw [hu'] at hnone
      cases hnone
  | role a role hv hc husers =>
    have hu' : s.users.get (a.platform, a.openid) = some u := hu
    rcases husers with ⟨t, current, rfl, hgc, hus⟩ | ⟨-, hi⟩
    · rw [hu', Option.some_inj] at hgc
      subst hgc
      have hkc : User.key u = (a.platform, a.openid) := Table.key_of_get hu'
      have hk : User.key (flushUser t { t with role := role } u) = (a.platform, a.openid) := hkc
      have hrole : (flushUser t { t with role := role } u).role = .admin := by
        refine admin_flushUser hr ?_
        rintro ⟨rfl, htr⟩
        simp [Request.takes, htr] at ht
      refine ⟨⟨flushUser t { t with role := role } u, ?_, ?_, hrole⟩,
        row, by rw [hc]; exact hrow, hg⟩
      · show s'.users.get (a.platform, a.openid) = _
        rw [hus, Table.get_put, hk, if_pos rfl]
      · simp [flushUser, ha]
    · have hnone : s.users.get (a.platform, a.openid) = none := Table.get_eq_none_of_insert? hi
      rw [hu'] at hnone
      cases hnone

theorem write_users (h : req.write s target command = some s') {k : String × String}
    (hk : (s.users.get k).isSome = true) : (s'.users.get k).isSome = true := by
  cases write_cases h with
  | permissions a hv _ husers =>
    rcases husers with ⟨-, hu⟩ | ⟨-, hi⟩
    · rw [hu]; exact hk
    · rw [Table.get_of_insert? hi]
      split_ifs <;> simp [hk]
  | role a role hv _ husers =>
    rcases husers with ⟨t, current, -, -, hu⟩ | ⟨-, hi⟩
    · rw [hu, Table.get_put]
      split_ifs <;> simp [hk]
    · rw [Table.get_of_insert? hi]
      split_ifs <;> simp [hk]

theorem exists_write (ht : req.takes target command = true)
    (hk : (s.users.get (req.platform, req.openid)).isSome = true) :
    ∃ s', req.write s target command = some s' := by
  cases req with
  | setPermissions a hv =>
    cases target with
    | some t => exact ⟨_, rfl⟩
    | none => simp [Request.takes] at ht
  | changeRole a role hv =>
    cases target with
    | some t =>
      obtain ⟨current, hc⟩ := Option.isSome_iff_exists.mp hk
      have hc' : s.users.get (a.platform, a.openid) = some current := hc
      exact ⟨_, by simp only [Request.write, hc', Option.map_some]; rfl⟩
    | none => simp [Request.takes] at ht

end Write

/-! ### One at a time -/

/-- The request as a call of the service. -/
def Request.call (s : Store) [Runtime] : Request → Except Raised (Store × PermissionSnapshot)
  | .setPermissions a _ => Users.setPermissions s a
  | .changeRole a _ _ => Users.changeRole s a

/-- The users and their permissions are the same. -/
def AgreesOn (s s' : Store) : Prop :=
  (∀ k, s.users.get k = s'.users.get k) ∧ ∀ p o key,
    s.userPermissions.get (p, o, key) = s'.userPermissions.get (p, o, key)

section Alone

variable {req : ι → Request} {i : ι} {s : Store}

theorem guard_alone (held : Bool)
    (ho : EffectiveAdmin s (req i).platform (req i).operatorOpenid) :
    ∃ l, move req i (.go held) s .start = some (s, l) ∧
      let target := s.users.get ((req i).platform, (req i).openid)
      let command := s.userPermissions.get ((req i).platform, (req i).openid, .command)
      ((req i).refused s target command = true →
        move req i (.go held) s l = some (s, .aborted)) ∧
      ((req i).refused s target command = false → ∃ loaded, (loaded = command ∨ loaded = none) ∧
        move req i (.go held) s l = some (s, .guarded target loaded)) := by
  have hadm : (permissionSnapshot s (req i).platform (req i).operatorOpenid).isAdmin = true :=
    isAdmin_iff.mpr ho
  refine ⟨_, by simp only [move, hadm, if_true]; rfl, fun hg => ?_, fun hg => ?_⟩
  all_goals
    by_cases hh : (held && decide ((req i).openid = (req i).operatorOpenid)) = true
  · have heq :
        (req i).openid = (req i).operatorOpenid := by simpa using (Bool.and_eq_true_iff.mp hh).2
    rw [heq] at hg
    simp only [move, hh, if_true, hg]
  · simp only [move, hh, hg, Bool.false_eq_true, if_false, if_true]
  · have heq :
        (req i).openid = (req i).operatorOpenid := by simpa using (Bool.and_eq_true_iff.mp hh).2
    rw [heq] at hg ⊢
    exact ⟨_, Or.inl rfl, by simp only [move, hh, if_true, hg, Bool.true_or]; rfl⟩
  · refine ⟨_, ?_, by simp only [move, hh, hg, Bool.false_eq_true, if_false]; rfl⟩
    split_ifs
    · exact Or.inl rfl
    · exact Or.inr rfl

theorem writtenRow_loaded (a : SetPermissions) (t : UserPermissions)
    {loaded : Option UserPermission} (hl : loaded = t.get (a.platform, a.openid, .command) ∨
      loaded = none) (key : PermissionKey) :
    writtenRow a loaded key (t.get (a.platform, a.openid, key)) =
      a.row key (t.get (a.platform, a.openid, key)) := by
  unfold writtenRow
  rcases hl with rfl | rfl
  · split
    · rename_i loaded current hload hcur
      have hk : key = .command := by
        by_contra hk
        simp [hk] at hload
      subst hk
      rw [if_pos rfl, hcur, Option.some_inj] at hload
      subst hload
      rw [hcur]
      simp only [flushPermission, column_self]
      rfl
    · rfl
  · split
    · rename_i hload _
      simp at hload
    · rfl

theorem permissions_alone {a : SetPermissions} (hv : a.invalid = [] ∧ a.permissions ≠ [])
    {loaded : Option UserPermission}
    (hl : loaded = s.userPermissions.get (a.platform, a.openid, .command) ∨ loaded = none) :
    ∃ s', (Request.setPermissions a hv).write s (s.users.get (a.platform, a.openid)) loaded =
      some s' ∧ AgreesOn s' (applyPermissions s a) := by
  have hperm : ∀ p o key, (writeLoaded s.userPermissions a loaded).get (p, o, key) =
      (applyPermissions s a).userPermissions.get (p, o, key) := by
    intro p o key
    rw [applyPermissions_eq]
    show (writeLoaded s.userPermissions a loaded).get _ = (writeRows _ _ _ _ _).get _
    unfold writeLoaded
    rw [get_writeRows (fun t key => writtenRow_key t a loaded key) (writtenRow_idem a loaded),
      get_writeRows (fun t key => row_key t a key) (row_idem a)]
    split_ifs with h
    · obtain ⟨⟨rfl, rfl⟩, -⟩ := h
      rw [writtenRow_loaded a s.userPermissions hl]
    · rfl
  have husers : ∀ k, (applyPermissions s a).users.get k =
      if k = (a.platform, a.openid) then some (ensureUser s a.platform a.openid).1
      else s.users.get k := by
    intro k
    rw [applyPermissions_eq]
    exact get_ensureUser s a.platform a.openid k
  cases hu : s.users.get (a.platform, a.openid) with
  | some u =>
    refine ⟨_, rfl, fun k => ?_, hperm⟩
    rw [husers, ensureUser_fst, hu]
    split_ifs with hk
    · rw [hk]; exact hu
    · rfl
  | none =>
    obtain ⟨users, hi⟩ := Table.exists_insert? (t := s.users)
      (r := { platform := a.platform, openid := a.openid }) hu
    refine ⟨_, by simp only [Request.write, hi, Option.map_some]; rfl, fun k => ?_, hperm⟩
    rw [husers, ensureUser_fst, hu]
    exact Table.get_of_insert? hi k

theorem role_alone {a : ChangeRole} {role : Role} (hv : Role.ofString? a.role = some role)
    (loaded : Option UserPermission) :
    ∃ s', (Request.changeRole a role hv).write s (s.users.get (a.platform, a.openid)) loaded =
      some s' ∧ AgreesOn s' (applyRole s a role) := by
  cases hu : s.users.get (a.platform, a.openid) with
  | some u =>
    refine ⟨{ s with
        users := s.users.put (flushUser u { u with role := role } u)
        auditLogs := s.auditLogs ++ [a.audit] },
      by simp only [Request.write, hu, Option.map_some], fun k => ?_, fun _ _ _ => rfl⟩
    have hk : User.key (flushUser u { u with role := role } u) = (a.platform, a.openid) :=
      (Table.key_of_get hu : User.key u = _)
    rw [get_applyRole, ensureUser_fst, hu]
    show (s.users.put (flushUser u { u with role := role } u)).get k = _
    rw [Table.get_put, hk]
    simp only [flushUser, column_self]
    rfl
  | none =>
    obtain ⟨users, hi⟩ := Table.exists_insert? (t := s.users)
      (r := { platform := a.platform, openid := a.openid, role := role }) hu
    refine ⟨{ s with users := users, auditLogs := s.auditLogs ++ [a.audit] },
      by simp only [Request.write, hi, Option.map_some], fun k => ?_, fun _ _ _ => rfl⟩
    rw [get_applyRole, ensureUser_fst, hu]
    exact Table.get_of_insert? hi k

variable [Runtime]

theorem refused_iff {r : Request} (ho : EffectiveAdmin s r.platform r.operatorOpenid) :
    r.refused s (s.users.get (r.platform, r.openid))
      (s.userPermissions.get (r.platform, r.openid, .command)) = true ↔
        ∃ m, r.call s = .error (.lastAdminError m) := by
  cases r with
  | setPermissions a hv =>
    have hcall : (Request.setPermissions a hv).call s = _ := setPermissions_eq hv.1 hv.2 ho
    have hsame : (Request.setPermissions a hv).refused s (s.users.get (a.platform, a.openid))
        (s.userPermissions.get (a.platform, a.openid, .command)) =
        a.removesLast (ensureUser s a.platform a.openid).1
          (s.userPermissions.get (a.platform, a.openid, .command))
          (activeCommandAdminCount (ensureUser s a.platform a.openid).2 a.platform) := by
      unfold ensureUser
      cases hu : s.users.get (a.platform, a.openid) with
      | some u => rfl
      | none =>
        -- a new user is not an administrator, whatever the count is
        simp [Request.refused, SetPermissions.removesLast]
    rw [hcall, ← hsame]
    show (Request.setPermissions a hv).refused s (s.users.get (a.platform, a.openid))
      (s.userPermissions.get (a.platform, a.openid, .command)) = true ↔ _
    split_ifs with hg <;> simp [hg]
  | changeRole a role hv =>
    have hcall : (Request.changeRole a role hv).call s = _ := changeRole_eq hv ho
    rw [hcall]
    show (Request.changeRole a role hv).refused s (s.users.get (a.platform, a.openid))
      (s.userPermissions.get (a.platform, a.openid, .command)) = true ↔ _
    split_ifs with hg
    · exact ⟨fun _ => ⟨_, rfl⟩, fun _ => hg⟩
    · constructor
      · intro h
        exact absurd h hg
      · rintro ⟨m, h⟩
        cases h

/-- **A transaction that meets no other is the call of the service.** -/
theorem alone (held : Bool) {x : Store × PermissionSnapshot} (h : (req i).call s = .ok x) :
    ∃ l l' s', move req i (.go held) s .start = some (s, l) ∧
      move req i (.go held) s l = some (s, l') ∧
      move req i (.go held) s l' = some (s', .committed) ∧ AgreesOn s' x.1 := by
  have ho : EffectiveAdmin s (req i).platform (req i).operatorOpenid := by
    cases hr : req i with
    | setPermissions a hv => rw [hr] at h; exact (setPermissions_ok h).2.1
    | changeRole a role hv => rw [hr] at h; exact (changeRole_ok h).choose_spec.2.1
  obtain ⟨l, hstart, -, hpass⟩ := guard_alone held ho
  have hg : (req i).refused s (s.users.get ((req i).platform, (req i).openid))
      (s.userPermissions.get ((req i).platform, (req i).openid, .command)) = false := by
    by_contra hg
    obtain ⟨m, hm⟩ := (refused_iff ho).mp (by simpa using hg)
    rw [h] at hm
    cases hm
  obtain ⟨loaded, hl, hguard⟩ := hpass hg
  have hwrite : ∃ s', (req i).write s (s.users.get ((req i).platform, (req i).openid)) loaded =
      some s' ∧ AgreesOn s' x.1 := by
    cases hr : req i with
    | setPermissions a hv =>
      rw [hr] at h hl
      rw [(setPermissions_ok h).2.2]
      exact permissions_alone hv hl
    | changeRole a role hv =>
      rw [hr] at h
      obtain ⟨role', hrole, -, hx⟩ := changeRole_ok h
      rw [hv] at hrole
      cases hrole
      rw [hx]
      exact role_alone hv loaded
  obtain ⟨s', hw, hagrees⟩ := hwrite
  refine ⟨l, _, s', hstart, hguard, ?_, hagrees⟩
  simp only [move, hw]

theorem alone_refused (held : Bool) (ho : EffectiveAdmin s (req i).platform (req i).operatorOpenid)
    {m : String} (h : (req i).call s = .error (.lastAdminError m)) :
    ∃ l, move req i (.go held) s .start = some (s, l) ∧
      move req i (.go held) s l = some (s, .aborted) := by
  obtain ⟨l, hstart, hrefuse, -⟩ := guard_alone held ho
  exact ⟨l, hstart, hrefuse ((refused_iff ho).mpr ⟨m, h⟩)⟩

end Alone

/-! ### What a guard leaves -/

/-- The rows a session has loaded for an operator who has passed the check. -/
def IsAdminRow (operator : Option User) (command : Option UserPermission) : Prop :=
  (∃ u, operator = some u ∧ u.accountStatus = .active ∧ u.role = .admin) ∧
    ∃ row, command = some row ∧ row.granted = true

section Guard

variable {s : Store} {p : String} {target : Option User} {command : Option UserPermission}

/-- If the only administrators there can be are counted and the count is not one, there is one
besides any given user. -/
theorem other_of_count {o : String} (hadm : ∃ o', EffectiveAdmin s p o')
    (h : EffectiveAdmin s p o → activeCommandAdminCount s p ≠ 1) :
    ∃ o', o' ≠ o ∧ EffectiveAdmin s p o' := by
  by_cases ho : EffectiveAdmin s p o
  · exact exists_other (h ho) ho
  · obtain ⟨o', ho'⟩ := hadm
    exact ⟨o', fun heq => ho (heq ▸ ho'), ho'⟩

/-- The guard of a request that takes administration away has seen a count other than one, if its
target is an administrator. -/
theorem count_of_guard {req : Request} {loaded : Option UserPermission}
    (hrows : IsAdminRow target command ∨
      target = s.users.get (req.platform, req.openid) ∧
      command = s.userPermissions.get (req.platform, req.openid, .command))
    (hg : req.refused s target command = false)
    (ht : req.takes target loaded = true) (he : EffectiveAdmin s req.platform req.openid) :
    activeCommandAdminCount s req.platform ≠ 1 := by
  intro hcount
  obtain ⟨⟨u, hu, hua, hur⟩, row, hrow, hrg⟩ := he
  have hadmin : ∃ t, target = some t ∧ t.accountStatus = .active ∧ t.role = .admin := by
    rcases hrows with ⟨h, -⟩ | ⟨h, -⟩
    · exact h
    · exact ⟨u, by rw [h]; exact hu, hua, hur⟩
  have hcommand : ∃ r, command = some r ∧ r.granted = true := by
    rcases hrows with ⟨-, h⟩ | ⟨-, h⟩
    · exact h
    · exact ⟨row, by rw [h]; exact hrow, hrg⟩
  obtain ⟨t, rfl, hta, htr⟩ := hadmin
  obtain ⟨r, rfl, hr⟩ := hcommand
  cases req with
  | setPermissions a hv =>
    simp only [Request.takes, Option.isSome_some, Bool.true_and, Bool.and_eq_true,
      Bool.not_eq_true', decide_eq_true_eq] at ht
    have hcount' : activeCommandAdminCount s a.platform = 1 := hcount
    have href : (Request.setPermissions a hv).refused s (some t) (some r) = true := by
      simp [Request.refused, SetPermissions.removesLast, ht.1.1, ht.1.2, hta, htr, hr, hcount']
    rw [href] at hg
    cases hg
  | changeRole a role hv =>
    simp only [Request.takes, Option.map_some, Bool.and_eq_true, decide_eq_true_eq] at ht
    have hcount' : activeCommandAdminCount s a.platform = 1 := hcount
    have hrow' : s.userPermissions.get (a.platform, a.openid, .command) = some row := hrow
    have href : (Request.changeRole a role hv).refused s (some t) (some r) = true := by
      simp [Request.refused, ChangeRole.removesLast, ht.1, hta, htr, hrow', hrg, hcount']
    rw [href] at hg
    cases hg

end Guard

/-! ### Over any schedule -/

/-- A request that is about to take administration away on the platform `p`. -/
def Taking (p : String) (r : Request) : Local → Prop
  | .guarded target command => r.platform = p ∧ r.takes target command = true
  | _ => False

/-- What a transaction has found: its operator is an administrator, its target is stored if it
was. -/
def Found (r : Request) (s : Store) : Local → Prop
  | .checked operator command => IsAdminRow operator command ∧
      (s.users.get (r.platform, r.operatorOpenid)).isSome = true
  | .guarded target _ => target.isSome = true → (s.users.get (r.platform, r.openid)).isSome = true
  | _ => True

/-- Someone besides the target of a request that takes administration away is an administrator. -/
def LeavesOther (p : String) (r : Request) (s : Store) (l : Local) : Prop :=
  Taking p r l → ∃ o, o ≠ r.openid ∧ EffectiveAdmin s p o

/-- The ways a transaction can move. -/
inductive Moved (r : Request) (s : Store) : Choice → Local → Store → Local → Prop
  | check (held : Bool) (operator : Option User) (command : Option UserPermission)
    (hrows : IsAdminRow operator command)
    (hop : (s.users.get (r.platform, r.operatorOpenid)).isSome = true) :
    Moved r s (.go held) .start s (.checked operator command)
  | guard (held : Bool) (operator target : Option User)
    (checked command loaded : Option UserPermission)
    (hrows : target = operator ∧ command = checked ∧ r.openid = r.operatorOpenid ∨
      target = s.users.get (r.platform, r.openid) ∧
      command = s.userPermissions.get (r.platform, r.openid, .command))
    (hg : r.refused s target command = false) :
    Moved r s (.go held) (.checked operator checked) s (.guarded target loaded)
  | write (held : Bool) (target : Option User) (command : Option UserPermission) (s' : Store)
    (hw : r.write s target command = some s') :
    Moved r s (.go held) (.guarded target command) s' .committed
  | abort (ch : Choice) (l : Local) : Moved r s ch l s .aborted

variable {req : ι → Request}

theorem move_cases {i : ι} {ch : Choice} {s s' : Store} {l l' : Local}
    (h : move req i ch s l = some (s', l')) : Moved (req i) s ch l s' l' := by
  cases ch with
  | rollback =>
    cases l with
    | checked operator command => cases h; exact .abort _ _
    | guarded target command => cases h; exact .abort _ _
    | start | committed | aborted => cases h
  | go held =>
    cases l with
    | start =>
      simp only [move] at h
      split_ifs at h with hadm
      · cases h
        obtain ⟨⟨u, hu, hua, hur⟩, row, hrow, hg⟩ := isAdmin_iff.mp hadm
        exact .check held _ _ ⟨⟨u, hu, hua, hur⟩, row, hrow, hg⟩ (by rw [hu]; rfl)
      · cases h
        exact .abort _ _
    | checked operator command =>
      by_cases hh : (held && decide ((req i).openid = (req i).operatorOpenid)) = true
      · have heq : (req i).openid = (req i).operatorOpenid := by
          simp only [Bool.and_eq_true, decide_eq_true_eq] at hh
          exact hh.2
        simp only [move, hh, if_true] at h
        cases hg : (req i).refused s operator command with
        | true =>
          simp only [hg, if_true] at h
          cases h
          exact .abort _ _
        | false =>
          simp only [hg, Bool.false_eq_true, if_false] at h
          cases h
          exact .guard held _ _ _ _ _ (Or.inl ⟨rfl, rfl, heq⟩) hg
      · simp only [move, hh] at h
        cases hg : (req i).refused s (s.users.get ((req i).platform, (req i).openid))
            (s.userPermissions.get ((req i).platform, (req i).openid, .command)) with
        | true =>
          simp only [Bool.false_eq_true, if_false, hg, if_true] at h
          cases h
          exact .abort _ _
        | false =>
          simp only [Bool.false_eq_true, if_false, hg] at h
          cases h
          exact .guard held _ _ _ _ _ (Or.inr ⟨rfl, rfl⟩) hg
    | guarded target command =>
      simp only [move] at h
      split at h
      · rename_i s₁ hw
        cases h
        exact .write held _ _ _ hw
      · cases h
        exact .abort _ _
    | committed | aborted => cases h

section Moves

variable {r r' : Request} {s s' : Store} {ch : Choice} {l l' lj : Local} {p : String}

theorem moved_users (h : Moved r s ch l s' l') {k : String × String}
    (hk : (s.users.get k).isSome = true) : (s'.users.get k).isSome = true := by
  cases h with
  | write held target command s' hw => exact write_users hw hk
  | check | guard | abort => exact hk

theorem found_own (h : Moved r s ch l s' l') (hf : Found r s l) : Found r s' l' := by
  cases h with
  | check held operator command hrows hop => exact ⟨hrows, hop⟩
  | guard held operator target checked command loaded hrows hg =>
    intro hsome
    rcases hrows with ⟨-, -, heq⟩ | ⟨heq, -⟩
    · rw [heq]; exact hf.2
    · rw [← heq]; exact hsome
  | write | abort => trivial

theorem found_others (h : Moved r s ch l s' l') (hf : Found r' s lj) : Found r' s' lj := by
  cases lj with
  | checked operator command => exact ⟨hf.1, moved_users h hf.2⟩
  | guarded target command => exact fun hsome => moved_users h (hf hsome)
  | start | committed | aborted => trivial

/-- **A guard that passes leaves another administrator**, as long as there is one at all. -/
theorem other_of_guard (h : Moved r s ch l s' l') (hf : Found r s l)
    (hadm : ∃ o, EffectiveAdmin s p o) : LeavesOther p r s' l' := by
  cases h with
  | guard held operator target checked command loaded hrows hg =>
    rintro ⟨rfl, ht⟩
    have hloaded : IsAdminRow target command ∨ target = s.users.get (r.platform, r.openid) ∧
        command = s.userPermissions.get (r.platform, r.openid, .command) := by
      rcases hrows with ⟨rfl, rfl, -⟩ | hrows
      · exact Or.inl hf.1
      · exact Or.inr hrows
    exact other_of_count hadm (count_of_guard hloaded hg ht)
  | check | write | abort => exact fun h => h.elim

/-- An administrator stays one unless the move takes this one away. -/
theorem effectiveAdmin_of_moved (h : Moved r s ch l s' l') {o : String}
    (hl : Taking p r l → ch ≠ .rollback → o ≠ r.openid) (ho : EffectiveAdmin s p o) :
    EffectiveAdmin s' p o := by
  cases h with
  | write held target command s' hw =>
    by_cases hpo : p = r.platform ∧ o = r.openid
    · obtain ⟨rfl, rfl⟩ := hpo
      cases ht : r.takes target command with
      | false => exact write_keeps hw ht ho
      | true => exact absurd rfl (hl ⟨rfl, ht⟩ (by simp))
    · exact (write_other hw hpo).mpr ho
  | check | guard | abort => exact ho

end Moves

variable [DecidableEq ι]

/-- The move does not take administration away while another transaction is about to do so, unless
there is an administrator besides their two targets. -/
def KeepsOther (req : ι → Request) (p : String) (c : Config ι Store Local) :
    Label ι Choice Empty → Prop
  | .proc i (.go _) => Taking p (req i) (c.loc i) → ∀ j, j ≠ i → Taking p (req j) (c.loc j) →
      ∃ o, o ≠ (req i).openid ∧ o ≠ (req j).openid ∧ EffectiveAdmin c.db p o
  | _ => True

section Reach

variable {c₀ c c' : Config ι Store Local}
  {C : Config ι Store Local → Label ι Choice Empty → Prop} {p : String}

theorem found_reach (h₀ : ∀ i, c₀.loc i = .start) (h : (system req).Reach C c₀ c) (i : ι) :
    Found (req i) c.db (c.loc i) := by
  have hstart : ∀ i, Found (req i) c₀.db (c₀.loc i) := by
    intro i
    rw [h₀ i]
    trivial
  refine (h.interference_free (G := fun _ => True) (A := fun i => Found (req i)) trivial hstart
    ?_ ?_ ?_).2 i
  · intro c i ch s l _ _ hA _ hm
    exact ⟨trivial, found_own (move_cases hm) (hA i)⟩
  · intro c i ch s l _ _ hA _ hm j _
    exact found_others (move_cases hm) (hA j)
  · intro c e
    exact e.elim

/-- **Under the condition there is an administrator**, and one besides the target of every request
that is about to take administration away. -/
theorem admins_reach (h₀ : ∀ i, c₀.loc i = .start) (hadm : ∃ o, EffectiveAdmin c₀.db p o)
    (h : (system req).Reach (KeepsOther req p) c₀ c) :
    (∃ o, EffectiveAdmin c.db p o) ∧ ∀ i, LeavesOther p (req i) c.db (c.loc i) := by
  have hstart : ∀ i, LeavesOther p (req i) c₀.db (c₀.loc i) := by
    intro i
    rw [h₀ i]
    exact fun h => h.elim
  refine h.interference_free (G := fun s => ∃ o, EffectiveAdmin s p o)
    (A := fun i => LeavesOther p (req i)) hadm hstart ?_ ?_ ?_
  · intro c i ch s l hr hG hA _ hm
    have hmoved := move_cases hm
    have hkeep : ∃ o, EffectiveAdmin s p o := by
      by_cases ht : Taking p (req i) (c.loc i)
      · obtain ⟨o, hne, ho⟩ := hA i ht
        exact ⟨o, effectiveAdmin_of_moved hmoved (fun _ _ => hne) ho⟩
      · obtain ⟨o, ho⟩ := hG
        exact ⟨o, effectiveAdmin_of_moved hmoved (fun h => absurd h ht) ho⟩
    exact ⟨hkeep, other_of_guard hmoved (found_reach h₀ hr i) hG⟩
  · intro c i ch s l _ _ hA hC hm j hj htj
    have hmoved := move_cases hm
    by_cases ht : Taking p (req i) (c.loc i) ∧ ch ≠ .rollback
    · obtain ⟨hti, hch⟩ := ht
      cases ch with
      | rollback => exact absurd rfl hch
      | go held =>
        obtain ⟨o, hi, hoj, ho⟩ := hC hti j hj htj
        exact ⟨o, hoj, effectiveAdmin_of_moved hmoved (fun _ _ => hi) ho⟩
    · obtain ⟨o, hoj, ho⟩ := hA j htj
      exact ⟨o, hoj, effectiveAdmin_of_moved hmoved (fun h1 h2 => absurd ⟨h1, h2⟩ ht) ho⟩
  · intro c e
    exact e.elim

/-- A request that is about to take administration away can be committed, and its target is not an
administrator then. -/
theorem exists_commit (h₀ : ∀ i, c₀.loc i = .start) (h : (system req).Reachable c₀ c) {i : ι}
    {p : String} (held : Bool) (ht : Taking p (req i) (c.loc i)) :
    ∃ c', (system req).next c (.proc i (.go held)) = some c' ∧ (∀ j, j ≠ i → c'.loc j = c.loc j) ∧
      ¬ EffectiveAdmin c'.db p (req i).openid ∧
      ∀ o, o ≠ (req i).openid → (EffectiveAdmin c'.db p o ↔ EffectiveAdmin c.db p o) := by
  have hf := found_reach h₀ h i
  cases hl : c.loc i with
  | guarded target command =>
    rw [hl] at ht hf
    obtain ⟨rfl, ht⟩ := ht
    have hsome : target.isSome = true := by
      cases hreq : req i with
      | setPermissions a hv =>
        simp only [hreq, Request.takes, Bool.and_eq_true] at ht
        exact ht.1.1.1
      | changeRole a role hv =>
        simp only [hreq, Request.takes, Bool.and_eq_true, decide_eq_true_eq] at ht
        cases target with
        | some t => rfl
        | none => simp at ht
    obtain ⟨s', hw⟩ := exists_write ht (hf hsome)
    refine ⟨⟨s', Function.update c.loc i .committed⟩, ?_, fun j hj => Function.update_of_ne hj _ _,
      write_takes hw ht, fun o ho => write_other hw fun h => ho h.2⟩
    refine Sys.next_proc.mpr ⟨s', .committed, ?_, rfl⟩
    show move req i (.go held) c.db (c.loc i) = _
    rw [hl]
    simp only [move, hw]
  | start | checked | committed | aborted =>
    rw [hl] at ht
    exact ht.elim

end Reach

/-- What can be said of the requests `req`. -/
structure KeepsAdmins (req : ι → Request) (p : String) (c₀ : Config ι Store Local) : Prop where
  /-- Under the condition there is an administrator in every state. -/
  kept : ∀ c, (system req).Reach (KeepsOther req p) c₀ c → ∃ o, EffectiveAdmin c.db p o
  /-- A commit that breaks the condition can be followed by one that leaves no administrator. -/
  lost : ∀ c l, (system req).Reachable c₀ c → ¬ KeepsOther req p c l →
    ∃ j held c', (system req).exec c [l, .proc j (.go held)] = some c' ∧
      ∀ o, ¬ EffectiveAdmin c'.db p o

/-- **A platform keeps an administrator** as long as no two transactions that overlap take away all
there are; and whenever two are about to, both can commit, and none is left. -/
theorem admins_of_races {req : ι → Request} {p : String} {c₀ : Config ι Store Local}
    (h₀ : ∀ i, c₀.loc i = .start) (hadm : ∃ o, EffectiveAdmin c₀.db p o) :
    KeepsAdmins req p c₀ := by
  refine ⟨fun c h => (admins_reach h₀ hadm h).1, fun c l h hC => ?_⟩
  cases l with
  | env e => exact e.elim
  | proc i ch =>
    cases ch with
    | rollback => exact absurd trivial hC
    | go held =>
      simp only [KeepsOther, not_forall] at hC
      obtain ⟨hti, j, hj, htj, hno⟩ := hC
      obtain ⟨c₁, hn₁, hloc, hgone₁, hsame₁⟩ := exists_commit h₀ h held hti
      have htj₁ : Taking p (req j) (c₁.loc j) := by
        rw [hloc j hj]
        exact htj
      obtain ⟨c₂, hn₂, -, hgone₂, hsame₂⟩ := exists_commit h₀ (.step h trivial hn₁) held htj₁
      have hexec : (system req).exec c [.proc i (.go held), .proc j (.go held)] = some c₂ := by
        simp only [Sys.exec, hn₁, hn₂, Option.bind_some]
      refine ⟨j, held, c₂, hexec, fun o ho => ?_⟩
      -- nobody is an administrator afterwards who was not before, and the two targets are not
      by_cases hoj : o = (req j).openid
      · exact hgone₂ (hoj ▸ ho)
      · have ho₁ : EffectiveAdmin c₁.db p o := (hsame₂ o hoj).mp ho
        by_cases hoi : o = (req i).openid
        · exact hgone₁ (hoi ▸ ho₁)
        · exact hno ⟨o, hoi, hoj, (hsame₁ o hoi).mp ho₁⟩

/-! ### A race -/

omit [DecidableEq ι] in
/-- `root` and `alice` are administrators. -/
def sampleConfig : Config Bool Store Local where
  db := run (@step .sample 5) {} (sampleSetup.take 3 ++
    [.changeRole
      { platform := "qqbot", openid := "alice", role := "admin", operatorOpenid := "root" }])
  loc _ := .start

omit [DecidableEq ι] in
/-- `root` revokes the command permission of `alice`, and `alice` demotes `root`. -/
def sampleRequests : Bool → Request
  | true => .setPermissions
      { platform := "qqbot", openid := "alice", permissions := ["command"], granted := false,
        operatorOpenid := "root" } (by decide)
  | false => .changeRole
      { platform := "qqbot", openid := "root", role := "user", operatorOpenid := "alice" } .user rfl

omit [DecidableEq ι] in
theorem admins_of_races_sample : KeepsAdmins sampleRequests "qqbot" sampleConfig :=
  admins_of_races (fun _ => rfl) ⟨"root", by decide⟩

omit [DecidableEq ι] in
/-- Each of two administrators takes administration away from the other. -/
theorem none_left :
    ¬ ∀ (req : Bool → Request) (c₀ : Config Bool Store Local), (∀ i, c₀.loc i = .start) →
      (∃ o, EffectiveAdmin c₀.db "qqbot" o) → ∀ c, (system req).Reachable c₀ c →
        ∃ o, EffectiveAdmin c.db "qqbot" o := by
  intro hall
  have hrun : ∃ c, (system sampleRequests).Reachable sampleConfig c ∧
      activeCommandAdminCount c.db "qqbot" = 0 :=
    Sys.exists_reachable
      [.proc true (.go true), .proc false (.go true), .proc true (.go true), .proc false (.go true),
        .proc true (.go true), .proc false (.go true)] (by decide)
  obtain ⟨c, hc, hcount⟩ := hrun
  obtain ⟨o, ho⟩ := hall sampleRequests sampleConfig (fun _ => rfl) ⟨"root", by decide⟩ c hc
  exact count_eq_zero.mp hcount o ho

end EventServer.Services.AdminRaces
