import EventServer.Lib.UnitOfWork
import EventServer.Bootstrap

/-! # Configured administrators in a session without autoflush

`bootstrap` in a session of `SessionLocal`: `session.get` finds what is stored and loaded, but not
the rows that have been added since (`autoflush=False`), so an administrator who is listed twice is
added twice if he is not stored. `run_eq_bootstrap` says that the session leaves what
`Bootstrap.bootstrap` says it does, and `bootstrap_total_iff` for which lists and stores the
start-up goes through. -/

namespace EventServer.BootstrapSession

open EventServer.Db EventServer.Lib EventServer.Python EventServer.Bootstrap

/-- `Settings.parse_csv`. -/
def parseCsv [Runtime] (value : String) : List String :=
  ((value.toList.splitOn ',').map fun item => Runtime.strStrip (String.ofList item)).filter (· ≠ "")

/-! ### The session -/

/-- The rows of a session: those of the two tables it adds to, and the others. -/
structure Session where
  store : Store
  instances : ProviderInstances
  users : UnitOfWork User.key
  userPermissions : UnitOfWork UserPermission.key

theorem retire_eventKey (a : Args) (row : EventType) : (a.retire row).eventKey = row.eventKey := rfl

theorem disable_id (row : ProviderInstance) :
    (disable row).providerInstanceId = row.providerInstanceId := rfl

/-- The session after the legacy event types and provider instances have been retired. -/
def Session.start (s : Store) (instances : ProviderInstances) (a : Args) : Session where
  store :=
    { s with
      eventTypes := s.eventTypes.modifyIf (fun row => row.eventKey ∈ legacyEventKeys) a.retire
        (retire_eventKey a) (retire_eventKey a) }
  instances := instances.modifyIf (fun row => row.providerKey ∈ legacyProviderKeys) disable
    disable_id disable_id
  users := { stored := s.users }
  userPermissions := { stored := s.userPermissions }

/-- The body of the loop over the administrators. -/
def Session.admin (x : Session) (openid : String) : Session :=
  { x with
    users := x.users.getOrAdd (adminUser openid) ("qqbot", openid)
    userPermissions := [PermissionKey.chat, .command].foldl
      (fun w key => w.getOrAdd (adminPermission openid key) ("qqbot", openid, key))
        x.userPermissions }

/-- `session.commit()`. -/
def Session.commit (x : Session) : Except Raised (Store × ProviderInstances) :=
  match x.users.flush, x.userPermissions.flush with
  | some users, some userPermissions =>
    .ok ({ x.store with users := users, userPermissions := userPermissions }, x.instances)
  | _, _ => .error .integrityError

/-- `bootstrap`, in a session that does not flush what it adds before it commits. -/
def run (s : Store) (instances : ProviderInstances) (a : Args) :
    Except Raised (Store × ProviderInstances) :=
  (a.adminOpenids.foldl Session.admin (.start s instances a)).commit

/-! ### The rows it asks for -/

/-- The users the loop asks for. -/
def userKeys (openids : List String) : List (String × String) := openids.map fun o => ("qqbot", o)

/-- The permissions the loop asks for. -/
def permissionKeys (openids : List String) : List (String × String × PermissionKey) :=
  openids.flatMap fun o => [("qqbot", o, .chat), ("qqbot", o, .command)]

theorem foldl_admin (x : Session) (openids : List String) : openids.foldl Session.admin x =
    { x with
      users := x.users.getOrAddAll (fun k => adminUser k.2) (userKeys openids)
      userPermissions := x.userPermissions.getOrAddAll (fun k => adminPermission k.2.1 k.2.2)
        (permissionKeys openids) } := by
  induction openids generalizing x with
  | nil => rfl
  | cons openid openids ih =>
    rw [List.foldl_cons, ih]
    rfl

theorem mem_userKeys {openids : List String} {p o : String} :
    (p, o) ∈ userKeys openids ↔ p = "qqbot" ∧ o ∈ openids := by
  unfold userKeys
  constructor
  · intro h
    obtain ⟨o', ho, he⟩ := List.mem_map.mp h
    cases he
    exact ⟨rfl, ho⟩
  · rintro ⟨rfl, ho⟩
    exact List.mem_map.mpr ⟨o, ho, rfl⟩

theorem mem_permissionKeys {openids : List String} {p o : String} {key : PermissionKey} :
    (p, o, key) ∈ permissionKeys openids ↔ p = "qqbot" ∧ o ∈ openids := by
  unfold permissionKeys
  constructor
  · intro h
    obtain ⟨o', ho, he⟩ := List.mem_flatMap.mp h
    simp only [List.mem_cons, Prod.mk.injEq, List.not_mem_nil, or_false] at he
    rcases he with ⟨rfl, rfl, -⟩ | ⟨rfl, rfl, -⟩ <;> exact ⟨rfl, ho⟩
  · rintro ⟨rfl, ho⟩
    refine List.mem_flatMap.mpr ⟨o, ho, ?_⟩
    cases key <;> simp

theorem count_userKeys (openids : List String) (o : String) :
    (userKeys openids).count ("qqbot", o) = openids.count o :=
  List.count_map_of_injective openids (fun o => ("qqbot", o)) (fun _ _ h => (Prod.mk.inj h).2) o

theorem count_permissionKeys (openids : List String) (o : String) (key : PermissionKey) :
    (permissionKeys openids).count ("qqbot", o, key) = openids.count o := by
  induction openids with
  | nil => rfl
  | cons openid openids ih =>
    have hcons : permissionKeys (openid :: openids) =
        [("qqbot", openid, .chat), ("qqbot", openid, .command)] ++ permissionKeys openids := rfl
    have hone : [("qqbot", openid, PermissionKey.chat), ("qqbot", openid, .command)].count
        ("qqbot", o, key) = if openid = o then 1 else 0 := by
      cases key <;> simp [List.count_cons]
    rw [hcons, List.count_append, ih, hone, List.count_cons]
    simp [Nat.add_comm]

theorem keepsKeys_user : UnitOfWork.KeepsKeys User.key fun k => adminUser k.2 where
  stored _ := rfl
  idem _ _ := rfl

theorem keepsKeys_permission :
    UnitOfWork.KeepsKeys UserPermission.key fun k => adminPermission k.2.1 k.2.2 where
  stored _ := rfl
  idem _ _ := rfl

theorem key_newUser {openids : List String} :
    ∀ k ∈ userKeys openids, User.key (adminUser k.2 none) = k := by
  rintro ⟨p, o⟩ hk
  obtain ⟨rfl, -⟩ := mem_userKeys.mp hk
  rfl

theorem key_newPermission {openids : List String} :
    ∀ k ∈ permissionKeys openids, UserPermission.key (adminPermission k.2.1 k.2.2 none) = k := by
  rintro ⟨p, o, key⟩ hk
  obtain ⟨rfl, -⟩ := mem_permissionKeys.mp hk
  rfl

/-! ### The commit -/

section Commit

variable {s : Store} {instances : ProviderInstances} {a : Args}

/-- The users and the permissions after the loop. -/
def adminUsers (s : Store) (openids : List String) : UnitOfWork User.key :=
  UnitOfWork.getOrAddAll (fun k => adminUser k.2) { stored := s.users } (userKeys openids)

def adminPermissions (s : Store) (openids : List String) : UnitOfWork UserPermission.key :=
  UnitOfWork.getOrAddAll (fun k => adminPermission k.2.1 k.2.2) { stored := s.userPermissions }
    (permissionKeys openids)

theorem run_eq_ok {r : Store × ProviderInstances} : run s instances a = .ok r ↔
    ∃ users userPermissions, (adminUsers s a.adminOpenids).flush = some users ∧
      (adminPermissions s a.adminOpenids).flush = some userPermissions ∧
        r = ({ (Session.start s instances a).store with
          users := users, userPermissions := userPermissions },
            (Session.start s instances a).instances) := by
  have hcommit : run s instances a =
      match (adminUsers s a.adminOpenids).flush, (adminPermissions s a.adminOpenids).flush with
      | some users, some userPermissions =>
        .ok ({ (Session.start s instances a).store with
          users := users, userPermissions := userPermissions },
            (Session.start s instances a).instances)
      | _, _ => .error .integrityError := by
    unfold run
    rw [foldl_admin]
    rfl
  rw [hcommit]
  cases (adminUsers s a.adminOpenids).flush with
  | none => simp
  | some users =>
    cases (adminPermissions s a.adminOpenids).flush with
    | none => simp
    | some userPermissions => simp [eq_comm]

theorem run_error {e : Raised} (h : run s instances a = .error e) : e = .integrityError := by
  unfold run Session.commit at h
  split at h
  · cases h
  · cases h
    rfl

/-- An administrator is listed twice, and his user or one of his permissions is not stored. -/
def Clashes (s : Store) (openids : List String) : Prop :=
  ∃ o, 1 < openids.count o ∧ missing s o = true

theorem missing_iff {s : Store} {o : String} : missing s o = true ↔
    s.users.get ("qqbot", o) = none ∨ ∃ key, s.userPermissions.get ("qqbot", o, key) = none := by
  unfold missing
  rw [Bool.or_eq_true, Option.isNone_iff_eq_none, List.any_eq_true]
  refine or_congr_right ⟨?_, ?_⟩
  · rintro ⟨key, -, h⟩
    exact ⟨key, Option.isNone_iff_eq_none.mp h⟩
  · rintro ⟨key, h⟩
    exact ⟨key, mem_keys key, Option.isNone_iff_eq_none.mpr h⟩

theorem exists_flush_users (openids : List String) : (∃ t, (adminUsers s openids).flush = some t) ↔
    ∀ o, s.users.get ("qqbot", o) = none → openids.count o ≤ 1 := by
  unfold adminUsers
  rw [UnitOfWork.exists_flush keepsKeys_user key_newUser]
  constructor
  · intro h o ho
    rw [← count_userKeys]
    exact h _ ho
  · rintro h ⟨p, o⟩ ho
    by_cases hk : (p, o) ∈ userKeys openids
    · obtain ⟨rfl, -⟩ := mem_userKeys.mp hk
      rw [count_userKeys]
      exact h o ho
    · rw [List.count_eq_zero_of_not_mem hk]
      omega

theorem exists_flush_permissions (openids : List String) :
    (∃ t, (adminPermissions s openids).flush = some t) ↔
      ∀ o key, s.userPermissions.get ("qqbot", o, key) = none → openids.count o ≤ 1 := by
  unfold adminPermissions
  rw [UnitOfWork.exists_flush keepsKeys_permission key_newPermission]
  constructor
  · intro h o key ho
    rw [← count_permissionKeys openids o key]
    exact h _ ho
  · rintro h ⟨p, o, key⟩ ho
    by_cases hk : (p, o, key) ∈ permissionKeys openids
    · obtain ⟨rfl, -⟩ := mem_permissionKeys.mp hk
      rw [count_permissionKeys]
      exact h o key ho
    · rw [List.count_eq_zero_of_not_mem hk]
      omega

/-- **The commit goes through** exactly if no administrator clashes. -/
theorem exists_run_iff : (∃ r, run s instances a = .ok r) ↔ ¬ Clashes s a.adminOpenids := by
  have hboth : (∃ r, run s instances a = .ok r) ↔
      (∃ t, (adminUsers s a.adminOpenids).flush = some t) ∧
        ∃ t, (adminPermissions s a.adminOpenids).flush = some t := by
    constructor
    · rintro ⟨r, hr⟩
      obtain ⟨users, userPermissions, hu, hp, -⟩ := run_eq_ok.mp hr
      exact ⟨⟨users, hu⟩, userPermissions, hp⟩
    · rintro ⟨⟨users, hu⟩, userPermissions, hp⟩
      exact ⟨_, run_eq_ok.mpr ⟨users, userPermissions, hu, hp, rfl⟩⟩
  rw [hboth, exists_flush_users, exists_flush_permissions]
  constructor
  · rintro ⟨hu, hp⟩ ⟨o, hcount, hmissing⟩
    rcases missing_iff.mp hmissing with h | ⟨key, h⟩
    · have hle := hu o h
      omega
    · have hle := hp o key h
      omega
  · intro h
    refine ⟨fun o ho => ?_, fun o key ho => ?_⟩
    · by_contra hlt
      exact h ⟨o, by omega, missing_iff.mpr (Or.inl ho)⟩
    · by_contra hlt
      exact h ⟨o, by omega, missing_iff.mpr (Or.inr ⟨key, ho⟩)⟩

theorem get_users_run {r : Store × ProviderInstances} (h : run s instances a = .ok r)
    (p o : String) :
    r.1.users.get (p, o) = if p = "qqbot" ∧ o ∈ a.adminOpenids then
      some (adminUser o (s.users.get (p, o))) else s.users.get (p, o) := by
  obtain ⟨users, userPermissions, hu, -, rfl⟩ := run_eq_ok.mp h
  refine (UnitOfWork.get_flush keepsKeys_user key_newUser hu (p, o)).trans ?_
  simp only [mem_userKeys]

theorem get_permissions_run {r : Store × ProviderInstances} (h : run s instances a = .ok r)
    (p o : String) (key : PermissionKey) : r.1.userPermissions.get (p, o, key) =
      if p = "qqbot" ∧ o ∈ a.adminOpenids then
        some (adminPermission o key (s.userPermissions.get (p, o, key)))
      else s.userPermissions.get (p, o, key) := by
  obtain ⟨users, userPermissions, -, hp, rfl⟩ := run_eq_ok.mp h
  refine (UnitOfWork.get_flush keepsKeys_permission key_newPermission hp (p, o, key)).trans ?_
  simp only [mem_permissionKeys]

theorem get_eventTypes_run {r : Store × ProviderInstances}
    (h : run s instances a = .ok r) (k : String) :
    r.1.eventTypes.get k =
      (s.eventTypes.get k).map fun row => if k ∈ legacyEventKeys then a.retire row else row := by
  obtain ⟨users, userPermissions, -, -, rfl⟩ := run_eq_ok.mp h
  exact get_retired s a (retire_eventKey a) k

theorem get_instances_run {r : Store × ProviderInstances}
    (h : run s instances a = .ok r) (k : String) :
    r.2.get k = (instances.get k).map fun row =>
      if row.providerKey ∈ legacyProviderKeys then disable row else row := by
  obtain ⟨users, userPermissions, -, -, rfl⟩ := run_eq_ok.mp h
  refine (Table.get_modifyIf (t := instances) (f := disable)
    (p := fun row => row.providerKey ∈ legacyProviderKeys) (fun _ => rfl) fun _ => rfl).trans ?_
  simp only [decide_eq_true_eq]

/-- **The session leaves what the loop over the stored rows would**: it raises where a row would be
added twice, and otherwise commits the same users and permissions. -/
theorem run_eq_bootstrap : (∀ e, run s instances a = .error e ↔
    bootstrap s instances a = .error e) ∧
    ∀ r, run s instances a = .ok r → ∃ r', bootstrap s instances a = .ok r' ∧
      (∀ k, r.1.users.get k = r'.1.users.get k) ∧
      (∀ k, r.1.userPermissions.get k = r'.1.userPermissions.get k) ∧
      r.1.eventTypes = r'.1.eventTypes ∧ r.2 = r'.2 := by
  have hconflicts : a.conflicts s = true ↔ Clashes s a.adminOpenids := by
    unfold Args.conflicts Clashes
    rw [List.any_eq_true]
    constructor
    · rintro ⟨o, -, h⟩
      rw [Bool.and_eq_true, decide_eq_true_eq] at h
      exact ⟨o, h⟩
    · rintro ⟨o, hcount, hmissing⟩
      have hmem : o ∈ a.adminOpenids := List.count_pos_iff.mp (by omega)
      exact ⟨o, hmem, by simp [hcount, hmissing]⟩
  refine ⟨fun e => ?_, fun r hr => ?_⟩
  · unfold bootstrap
    by_cases hc : Clashes s a.adminOpenids
    · rw [if_pos (hconflicts.mpr hc)]
      cases hrun : run s instances a with
      | error e' => rw [run_error hrun]
      | ok r => exact absurd hc (exists_run_iff.mp ⟨r, hrun⟩)
    · rw [if_neg (mt hconflicts.mp hc)]
      obtain ⟨r, hr⟩ : ∃ r, run s instances a = .ok r := exists_run_iff.mpr hc
      simp [hr]
  · have hc : ¬ a.conflicts s = true := by
      rw [hconflicts]
      exact exists_run_iff.mp ⟨r, hr⟩
    unfold bootstrap
    rw [if_neg hc]
    refine ⟨_, rfl, ?_, ?_, ?_, ?_⟩
    · rintro ⟨p, o⟩
      exact (get_users_run hr p o).trans (get_users_writeAdmins s a.adminOpenids p o).symm
    · rintro ⟨p, o, key⟩
      exact (get_permissions_run hr p o key).trans
        (get_permissions_writeAdmins s a.adminOpenids p o key).symm
    · obtain ⟨users, userPermissions, -, -, rfl⟩ := run_eq_ok.mp hr
      rfl
    · obtain ⟨users, userPermissions, -, -, rfl⟩ := run_eq_ok.mp hr
      rfl

end Commit

/-! ### The promises -/

/-- What the start-up with the administrators `openids` has to leave. -/
structure Initialized (openids : List String) (s : Store) (instances : ProviderInstances)
    (r : Store × ProviderInstances) : Prop where
  admins : ∀ o ∈ openids, ∃ u, r.1.users.get ("qqbot", o) = some u ∧
    u.accountStatus = .active ∧ u.role = .admin
  permissions : ∀ o ∈ openids, ∀ key, ∃ p,
    r.1.userPermissions.get ("qqbot", o, key) = some p ∧ p.granted = true
  retired : ∀ key ∈ legacyEventKeys, ∀ row, r.1.eventTypes.get key = some row → row.enabled = false
  disabled : ∀ row ∈ r.2, row.providerKey ∈ legacyProviderKeys → row.enabled = false
  /-- Every other row is as it was. -/
  users : ∀ p o, ¬ (p = "qqbot" ∧ o ∈ openids) → r.1.users.get (p, o) = s.users.get (p, o)
  userPermissions : ∀ p o key, ¬ (p = "qqbot" ∧ o ∈ openids) →
    r.1.userPermissions.get (p, o, key) = s.userPermissions.get (p, o, key)
  eventTypes : ∀ key ∉ legacyEventKeys, r.1.eventTypes.get key = s.eventTypes.get key
  instances : ∀ k, (∀ row, instances.get k = some row → row.providerKey ∉ legacyProviderKeys) →
    r.2.get k = instances.get k
  others : r.1.eventAliases = s.eventAliases ∧ r.1.eventOccurrences = s.eventOccurrences ∧
    r.1.subscriptions = s.subscriptions ∧ r.1.deliveries = s.deliveries ∧
    r.1.pairingCodes = s.pairingCodes ∧ r.1.auditLogs = s.auditLogs

/-- The same rows in every table. -/
structure SameRows (r r' : Store × ProviderInstances) : Prop where
  users : ∀ k, r'.1.users.get k = r.1.users.get k
  userPermissions : ∀ k, r'.1.userPermissions.get k = r.1.userPermissions.get k
  eventTypes : ∀ k, r'.1.eventTypes.get k = r.1.eventTypes.get k
  instances : ∀ k, r'.2.get k = r.2.get k
  others : r'.1.eventAliases = r.1.eventAliases ∧ r'.1.eventOccurrences = r.1.eventOccurrences ∧
    r'.1.subscriptions = r.1.subscriptions ∧ r'.1.deliveries = r.1.deliveries ∧
    r'.1.pairingCodes = r.1.pairingCodes ∧ r'.1.auditLogs = r.1.auditLogs

section Promises

variable {s : Store} {instances : ProviderInstances} {a : Args} {r : Store × ProviderInstances}

theorem others_run (h : run s instances a = .ok r) :
    r.1.eventAliases = s.eventAliases ∧ r.1.eventOccurrences = s.eventOccurrences ∧
      r.1.subscriptions = s.subscriptions ∧ r.1.deliveries = s.deliveries ∧
      r.1.pairingCodes = s.pairingCodes ∧ r.1.auditLogs = s.auditLogs := by
  obtain ⟨users, userPermissions, -, -, rfl⟩ := run_eq_ok.mp h
  exact ⟨rfl, rfl, rfl, rfl, rfl, rfl⟩

theorem initialized_run (h : run s instances a = .ok r) :
    Initialized a.adminOpenids s instances r where
  admins o ho := ⟨_, by rw [get_users_run h, if_pos ⟨rfl, ho⟩], rfl, rfl⟩
  permissions o ho key := ⟨_, by rw [get_permissions_run h, if_pos ⟨rfl, ho⟩], rfl⟩
  retired key hkey row hrow := by
    rw [get_eventTypes_run h] at hrow
    obtain ⟨row₀, -, rfl⟩ := Option.map_eq_some_iff.mp hrow
    rw [if_pos hkey]
    rfl
  disabled row hrow hkey := by
    have hget := Table.mem_iff_get.mp hrow
    rw [get_instances_run h] at hget
    obtain ⟨row₀, -, rfl⟩ := Option.map_eq_some_iff.mp hget
    split_ifs at hkey ⊢ with hlegacy
    · rfl
    · exact absurd hkey hlegacy
  users p o hpo := by rw [get_users_run h, if_neg hpo]
  userPermissions p o key hpo := by rw [get_permissions_run h, if_neg hpo]
  eventTypes key hkey := by simp [get_eventTypes_run h, hkey]
  instances k hk := by
    rw [get_instances_run h]
    cases hget : instances.get k with
    | none => rfl
    | some row => rw [Option.map_some, if_neg (hk row hget)]
  others := others_run h

/-- **Once it has gone through it changes nothing more.** -/
theorem run_again (h : run s instances a = .ok r) (now : String → Time) :
    ∃ r', run r.1 r.2 { a with now := now } = .ok r' ∧ SameRows r r' := by
  have hclash : ¬ Clashes r.1 a.adminOpenids := by
    rintro ⟨o, hcount, hmissing⟩
    have ho : o ∈ a.adminOpenids := List.count_pos_iff.mp (by omega)
    rcases missing_iff.mp hmissing with hu | ⟨key, hp⟩
    · rw [get_users_run h, if_pos ⟨rfl, ho⟩] at hu
      cases hu
    · rw [get_permissions_run h, if_pos ⟨rfl, ho⟩] at hp
      cases hp
  obtain ⟨r', hr'⟩ : ∃ r', run r.1 r.2 { a with now := now } = .ok r' := exists_run_iff.mpr hclash
  refine ⟨r', hr', ?_, ?_, ?_, ?_, others_run hr'⟩
  · rintro ⟨p, o⟩
    rw [get_users_run hr', get_users_run h]
    split_ifs <;> rfl
  · rintro ⟨p, o, key⟩
    rw [get_permissions_run hr', get_permissions_run h]
    split_ifs <;> rfl
  · intro k
    rw [get_eventTypes_run hr', get_eventTypes_run h, Option.map_map]
    refine Option.map_congr fun row _ => ?_
    by_cases hk : k ∈ legacyEventKeys
    · simp [hk, Args.retire]
    · simp [hk]
  · intro k
    rw [get_instances_run hr', get_instances_run h, Option.map_map]
    refine Option.map_congr fun row _ => ?_
    by_cases hk : row.providerKey ∈ legacyProviderKeys
    · simp [hk, disable]
    · simp [hk]

end Promises

variable [Runtime]

/-- **The start-up with the configured administrators is total and idempotent exactly where no one
who is listed twice has a row missing.** -/
theorem bootstrap_total_iff (text : String) (s : Store) (instances : ProviderInstances)
    (now : String → Time) :
    (∃ r, run s instances { adminOpenids := parseCsv text, now := now } = .ok r ∧
        Initialized (parseCsv text) s instances r ∧
        ∀ now', ∃ r', run r.1 r.2 { adminOpenids := parseCsv text, now := now' } = .ok r' ∧
          SameRows r r') ↔
      ¬ ∃ o, 1 < (parseCsv text).count o ∧ missing s o = true := by
  have hiff : (∃ r, run s instances { adminOpenids := parseCsv text, now := now } = .ok r) ↔ _ :=
    exists_run_iff
  constructor
  · rintro ⟨r, hr, -, -⟩
    exact hiff.mp ⟨r, hr⟩
  · intro h
    obtain ⟨r, hr⟩ := hiff.mpr h
    exact ⟨r, hr, initialized_run hr, fun now' => run_again hr now'⟩

omit [Runtime] in
/-- A first administrator who is listed twice keeps the start-up from going through. -/
theorem listed_twice : ¬ ∃ r,
    run {} .empty { adminOpenids := @parseCsv .sample "alice, alice", now := fun _ => 0 } = .ok r ∧
      Initialized (@parseCsv .sample "alice, alice") {} .empty r ∧
      ∀ now', ∃ r',
        run r.1 r.2 { adminOpenids := @parseCsv .sample "alice, alice", now := now' } = .ok r' ∧
          SameRows r r' := by
  rintro ⟨r, hr, -⟩
  refine exists_run_iff.mp ⟨r, hr⟩ ⟨"alice", ?_, rfl⟩
  decide

end EventServer.BootstrapSession
