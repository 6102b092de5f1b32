import EventServer.System

/-! # Management calls are idempotent

A grant, a revocation, a change of role, a subscription or its removal that is made twice leaves the
accounts and subscriptions as when it is made once: the second call writes what is stored, or it
raises, since the first may have taken the authority of the operator away. Two grants, or two
revocations, by one operator to one user add up to the call for all their permissions, in either
order (`management_idempotent`). -/

namespace EventServer.Services.Idempotence

open EventServer.Db EventServer.Lib EventServer.Python EventServer.System
open EventServer.Services.Accounts EventServer.Services.Subscriptions EventServer.Services.Users

/-- A grant, a revocation, a change of role, a subscription or its removal. -/
def manages : Op → Bool
  | .setPermissions _ | .changeRole _ | .subscribe _ | .unsubscribe _ => true
  | _ => false

/-- The stores have the same accounts and subscriptions. -/
structure SameManaged (s s' : Store) : Prop where
  users : s.users = s'.users
  userPermissions : s.userPermissions = s'.userPermissions
  subscriptions : s.subscriptions = s'.subscriptions

/-- The stores have the same rows of accounts and subscriptions, perhaps in another order. -/
structure SameRows (s s' : Store) : Prop where
  users : ∀ k, s.users.get k = s'.users.get k
  userPermissions : ∀ k, s.userPermissions.get k = s'.userPermissions.get k
  subscriptions : ∀ k, s.subscriptions.get k = s'.subscriptions.get k

theorem SameManaged.refl (s : Store) : SameManaged s s := ⟨rfl, rfl, rfl⟩

/-! ### Permissions -/

theorem ensureUser_of_get {s : Store} {p o : String} {user : User}
    (h : s.users.get (p, o) = some user) :
    ensureUser s p o = (user, s) := by
  unfold ensureUser
  rw [h]

/-- Rows that are as the loop would write them are left as they are. -/
theorem writeRows_of_get {f : PermissionKey → Option UserPermission → UserPermission} {p o : String}
    {ks : List PermissionKey} {t : UserPermissions}
    (hkey : ∀ (t : UserPermissions) key,
      UserPermission.key (f key (t.get (p, o, key))) = (p, o, key))
    (h : ∀ key ∈ ks, t.get (p, o, key) = some (f key (t.get (p, o, key)))) :
    writeRows f p o ks t = t := by
  unfold writeRows
  induction ks with
  | nil => rfl
  | cons key ks ih =>
    rw [List.forall_mem_cons] at h
    have hput : t.put (f key (t.get (p, o, key))) = t := by
      refine Table.put_of_get ?_
      rw [hkey]
      exact h.1
    rw [List.foldl_cons, hput]
    exact ih h.2

theorem get_applyPermissions (s : Store) (a : SetPermissions) (p o : String) (key : PermissionKey) :
    (applyPermissions s a).userPermissions.get (p, o, key) =
      if (p = a.platform ∧ o = a.openid) ∧ key ∈ a.keys then
        some (a.row key (s.userPermissions.get (p, o, key)))
      else s.userPermissions.get (p, o, key) := by
  rw [applyPermissions_eq]
  exact get_writeRows (fun t key => row_key t a key) (row_idem a) _ _ _ _ _

theorem exists_user_applyPermissions (s : Store) (a : SetPermissions) :
    ∃ user, (applyPermissions s a).users.get (a.platform, a.openid) = some user := by
  rw [applyPermissions_eq]
  have hget := get_ensureUser s a.platform a.openid (a.platform, a.openid)
  rw [if_pos rfl] at hget
  exact ⟨_, hget⟩

theorem users_applyPermissions {s : Store} {a : SetPermissions}
    (h : ∃ user, s.users.get (a.platform, a.openid) = some user) :
    (applyPermissions s a).users = s.users := by
  obtain ⟨user, huser⟩ := h
  rw [applyPermissions_eq, ensureUser_of_get huser]

theorem applyPermissions_idem (s : Store) (a : SetPermissions) :
    SameManaged (applyPermissions (applyPermissions s a) a) (applyPermissions s a) := by
  refine ⟨users_applyPermissions (exists_user_applyPermissions s a), ?_, ?_⟩
  · rw [applyPermissions_eq (applyPermissions s a)]
    refine writeRows_of_get (fun t key => row_key t a key) fun key hkey => ?_
    rw [get_applyPermissions, if_pos ⟨⟨rfl, rfl⟩, hkey⟩, row_idem]
  · rw [applyPermissions_eq (applyPermissions s a)]

theorem applyRole_idem (s : Store) (a : ChangeRole) (role : Role) :
    SameManaged (applyRole (applyRole s a role) a role) (applyRole s a role) := by
  have hget := get_applyRole s a role (a.platform, a.openid)
  rw [if_pos rfl] at hget
  have hkey : User.key { (ensureUser s a.platform a.openid).1 with role := role } =
      (a.platform, a.openid) := Table.key_of_get hget
  refine ⟨?_, rfl, rfl⟩
  have hensure : (ensureUser (applyRole s a role) a.platform a.openid).1 =
      { (ensureUser s a.platform a.openid).1 with role := role } := by
    rw [ensureUser_of_get hget]
  show (applyRole s a role).users.put
    { (ensureUser (applyRole s a role) a.platform a.openid).1 with role := role } = _
  rw [hensure]
  refine Table.put_of_get ?_
  rw [← hkey] at hget
  exact hget

/-! ### Subscriptions -/

theorem unsubscribe_erases {s : Store} {a : Unsubscribe} {r : Store × Bool}
    (h : unsubscribe s a = .ok r) : r.1 = { s with
      subscriptions := s.subscriptions.erase (a.platform, a.openid,
        canonicalKey s a.eventKey) } := by
  unfold unsubscribe at h
  split_ifs at h
  simp only at h
  cases hget : s.subscriptions.get (a.platform, a.openid, canonicalKey s a.eventKey) with
  | none =>
    rw [hget] at h
    cases h
    rw [Table.erase_of_get_eq_none hget]
  | some sub =>
    rw [hget] at h
    cases h
    rfl

theorem unsubscribe_idem {s : Store} {a : Unsubscribe} {r r' : Store × Bool}
    (h : unsubscribe s a = .ok r) (h' : unsubscribe r.1 a = .ok r') : SameManaged r'.1 r.1 := by
  have hagain := unsubscribe_erases h'
  rw [unsubscribe_erases h] at hagain ⊢
  rw [hagain]
  exact ⟨rfl, rfl, Table.erase_erase _ _⟩

variable [Runtime]

theorem subscribe_idem {s : Store} {a : Subscribe} {r r' : Store × Subscribed}
    (h : subscribe s a = .ok r) (h' : subscribe r.1 a = .ok r') : SameManaged r'.1 r.1 := by
  obtain ⟨event, requested, -, hevent, hrequested, hstore, hkey, hkeys⟩ := subscribe_ok h
  obtain ⟨event', requested', -, hevent', hrequested', hstore', hitem, -⟩ := subscribe_stored h'
  have hresolve : resolveEvent r.1 a.eventKey = resolveEvent s a.eventKey := by
    rw [hstore]
    rfl
  rw [hresolve, hevent] at hevent'
  cases hevent'
  rw [hrequested] at hrequested'
  cases hrequested'
  have hget : r.1.subscriptions.get (a.platform, a.openid, event.eventKey) = some r.2.item := by
    rw [hstore, ← hkey]
    exact Table.get_put.trans (if_pos rfl)
  have hsame : r'.2.item = r.2.item := by
    rw [hitem, hget, ← hkeys]
    rfl
  rw [hstore', hsame]
  refine ⟨rfl, rfl, Table.put_of_get ?_⟩
  rw [hkey]
  exact hget

/-! ### Calls that are made twice -/

omit [Runtime] in
/-- A call that changes nothing when it is made again after it has returned. -/
theorem committed_idem {α : Type} {f : Store → Except Raised (Store × α)} {s : Store}
    (h : ∀ r r', f s = .ok r → f r.1 = .ok r' → SameManaged r'.1 r.1) :
    SameManaged (committed (committed s (f s)) (f (committed s (f s)))) (committed s (f s)) := by
  cases hr : f s with
  | error e =>
    have hstays : committed s (Except.error e : Except Raised (Store × α)) = s := rfl
    rw [hstays, hr]
    exact SameManaged.refl s
  | ok r =>
    have hnext : committed s (Except.ok r) = r.1 := rfl
    rw [hnext]
    cases hr' : f r.1 with
    | error e => exact SameManaged.refl r.1
    | ok r' => exact h r r' hr hr'

/-- **Every management call is idempotent.** -/
theorem step_idem (n : ℕ) (s : Store) {op : Op} (h : manages op = true) :
    SameManaged (step n (step n s op) op) (step n s op) := by
  cases op with
  | setPermissions a =>
    refine committed_idem (f := fun s => setPermissions s a) fun r r' hr hr' => ?_
    have hfirst := (setPermissions_ok hr).2.2
    have hsecond := (setPermissions_ok hr').2.2
    rw [hsecond, hfirst]
    exact applyPermissions_idem s a
  | changeRole a =>
    refine committed_idem (f := fun s => changeRole s a) fun r r' hr hr' => ?_
    obtain ⟨role, hrole, -, hfirst⟩ := changeRole_ok hr
    obtain ⟨role', hrole', -, hsecond⟩ := changeRole_ok hr'
    cases hrole.symm.trans hrole'
    rw [hsecond, hfirst]
    exact applyRole_idem s a role
  | subscribe a =>
    exact committed_idem (f := fun s => subscribe s a) fun r r' hr hr' => subscribe_idem hr hr'
  | unsubscribe a =>
    exact committed_idem (f := fun s => unsubscribe s a) fun r r' hr hr' => unsubscribe_idem hr hr'
  | createPairingCode | approvePairingCode | bootstrapFirstAdmin | register | publish | claim | ack
  | fail | setAccountStatus => cases h

/-! ### Two grants -/

omit [Runtime] in
/-- The calls are of one operator on one user, and both grants or both revocations. -/
structure SameCall (a b : SetPermissions) : Prop where
  platform : a.platform = b.platform
  openid : a.openid = b.openid
  granted : a.granted = b.granted
  operatorOpenid : a.operatorOpenid = b.operatorOpenid

omit [Runtime] in
theorem SameCall.row {a b : SetPermissions} (h : SameCall a b) : a.row = b.row := by
  funext key loaded
  unfold SetPermissions.row
  rw [h.platform, h.openid, h.granted, h.operatorOpenid]

omit [Runtime] in
theorem mem_keys_of_union {a b u : SetPermissions}
    (h : ∀ p, p ∈ u.permissions ↔ p ∈ a.permissions ∨ p ∈ b.permissions) (key : PermissionKey) :
    key ∈ u.keys ↔ key ∈ a.keys ∨ key ∈ b.keys := by
  unfold SetPermissions.keys
  simp only [List.mem_filterMap, h, or_and_right, exists_or]

omit [Runtime] in
/-- **Two calls, one after the other, are the call for all their permissions.** -/
theorem applyPermissions_union {s : Store} {a b u : SetPermissions} (hab : SameCall a b)
    (hau : SameCall a u) (hunion : ∀ p, p ∈ u.permissions ↔ p ∈ a.permissions ∨ p ∈ b.permissions) :
    SameRows (applyPermissions (applyPermissions s a) b) (applyPermissions s u) := by
  refine ⟨fun k => ?_, ?_, fun k => ?_⟩
  · have hstored := exists_user_applyPermissions s a
    rw [hab.platform, hab.openid] at hstored
    rw [users_applyPermissions hstored, applyPermissions_eq, applyPermissions_eq, hau.platform,
      hau.openid]
  · rintro ⟨p, o, key⟩
    simp only [get_applyPermissions, mem_keys_of_union hunion, ← hab.row, ← hau.row, ← hab.platform,
      ← hab.openid, ← hau.platform, ← hau.openid]
    by_cases htarget : p = a.platform ∧ o = a.openid
    · by_cases ha : key ∈ a.keys
      · by_cases hb : key ∈ b.keys <;> simp [htarget, ha, hb, row_idem]
      · by_cases hb : key ∈ b.keys <;> simp [htarget, ha, hb]
    · simp [htarget]
  · rw [applyPermissions_eq, applyPermissions_eq, applyPermissions_eq]

omit [Runtime] in
theorem SameRows.symm {s s' : Store} (h : SameRows s s') : SameRows s' s :=
  ⟨fun k => (h.users k).symm, fun k => (h.userPermissions k).symm,
    fun k => (h.subscriptions k).symm⟩

omit [Runtime] in
theorem SameRows.trans {s₁ s₂ s₃ : Store} (h : SameRows s₁ s₂) (h' : SameRows s₂ s₃) :
    SameRows s₁ s₃ :=
  ⟨fun k => (h.users k).trans (h'.users k),
    fun k => (h.userPermissions k).trans (h'.userPermissions k),
    fun k => (h.subscriptions k).trans (h'.subscriptions k)⟩

omit [Runtime] in
theorem SameCall.symm {a b : SetPermissions} (h : SameCall a b) : SameCall b a :=
  ⟨h.platform.symm, h.openid.symm, h.granted.symm, h.operatorOpenid.symm⟩

omit [Runtime] in
theorem SameCall.trans {a b c : SetPermissions} (h : SameCall a b) (h' : SameCall b c) :
    SameCall a c :=
  ⟨h.platform.trans h'.platform, h.openid.trans h'.openid, h.granted.trans h'.granted,
    h.operatorOpenid.trans h'.operatorOpenid⟩

/-- **Management calls are idempotent**, whatever they do to the authority of the operator. Two
grants or two revocations commute, and are the call for the union of their permissions, when none of
the calls raises. -/
theorem management_idempotent (n : ℕ) (s : Store) :
    (∀ op, manages op = true → SameManaged (step n (step n s op) op) (step n s op)) ∧
      ∀ (a b u : SetPermissions) (ra rab rb rba ru : Store × PermissionSnapshot),
        SameCall a b → SameCall a u →
        (∀ p, p ∈ u.permissions ↔ p ∈ a.permissions ∨ p ∈ b.permissions) →
        setPermissions s a = .ok ra → setPermissions ra.1 b = .ok rab →
        setPermissions s b = .ok rb → setPermissions rb.1 a = .ok rba →
        setPermissions s u = .ok ru →
        SameRows rab.1 rba.1 ∧ SameRows rab.1 ru.1 := by
  refine ⟨fun op h => step_idem n s h, ?_⟩
  intro a b u ra rab rb rba ru hab hau hunion ha hab' hb hba' hu
  have hfirst : SameRows rab.1 ru.1 := by
    rw [(setPermissions_ok hab').2.2, (setPermissions_ok ha).2.2, (setPermissions_ok hu).2.2]
    exact applyPermissions_union hab hau hunion
  have hsecond : SameRows rba.1 ru.1 := by
    rw [(setPermissions_ok hba').2.2, (setPermissions_ok hb).2.2, (setPermissions_ok hu).2.2]
    exact applyPermissions_union hab.symm (hab.symm.trans hau) fun p => (hunion p).trans Or.comm
  exact ⟨hfirst.trans hsecond.symm, hfirst⟩

/-! ### A sample -/

omit [Runtime] in
/-- `root` and `alice` are the administrators. -/
def sampleStore : Store where
  users := (Table.empty.put { platform := "qqbot", openid := "root", role := .admin }).put
    { platform := "qqbot", openid := "alice", role := .admin }
  userPermissions := (Table.empty.put
      { platform := "qqbot", openid := "root", permissionKey := .command, granted := true }).put
    { platform := "qqbot", openid := "alice", permissionKey := .command, granted := true }

omit [Runtime] in
/-- `root` gives up the permissions of the list. -/
def sampleRevoke (permissions : List String) : SetPermissions :=
  { platform := "qqbot", openid := "root", permissions := permissions, granted := false,
    operatorOpenid := "root" }

omit [Runtime] in
/-- `alice` is granted the permissions of the list. -/
def sampleGrant (permissions : List String) : SetPermissions :=
  { platform := "qqbot", openid := "alice", permissions := permissions, granted := true,
    operatorOpenid := "root" }

omit [Runtime] in
/-- The call that takes the own command away can be repeated, and the order of two grants is the
same. -/
theorem management_idempotent_sample :
    let _ := Runtime.sample
    SameManaged (step 5 (step 5 sampleStore (.setPermissions (sampleRevoke ["command"])))
        (.setPermissions (sampleRevoke ["command"])))
      (step 5 sampleStore (.setPermissions (sampleRevoke ["command"]))) ∧
      ∃ ra rab rb rba ru : Store × PermissionSnapshot,
        setPermissions sampleStore (sampleGrant ["chat"]) = .ok ra ∧
        setPermissions ra.1 (sampleGrant ["command"]) = .ok rab ∧
        setPermissions sampleStore (sampleGrant ["command"]) = .ok rb ∧
        setPermissions rb.1 (sampleGrant ["chat"]) = .ok rba ∧
        setPermissions sampleStore (sampleGrant ["chat", "command"]) = .ok ru ∧
        SameRows rab.1 rba.1 ∧ SameRows rab.1 ru.1 := by
  let _ := Runtime.sample
  obtain ⟨hidem, hcomm⟩ := management_idempotent 5 sampleStore
  refine ⟨hidem _ rfl, _, _, _, _, _, rfl, rfl, rfl, rfl, rfl, ?_⟩
  exact hcomm (sampleGrant ["chat"]) (sampleGrant ["command"]) (sampleGrant ["chat", "command"])
    _ _ _ _ _ ⟨rfl, rfl, rfl, rfl⟩ ⟨rfl, rfl, rfl, rfl⟩ (by simp [sampleGrant]) rfl rfl rfl rfl rfl

end EventServer.Services.Idempotence
