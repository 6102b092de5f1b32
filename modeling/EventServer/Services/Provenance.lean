import EventServer.System

/-! # Where authority comes from

The rows of `users` and `user_permissions` are changed by three requests only, and each of them asks
for an operator who is an effective administrator of its platform at that moment; it changes the
rows of its target and of nobody else (`provenance_step`). An approval's target is the user its code
was created for: a stored code keeps the user it was issued to (`issued_step`). The bootstrap of the
first administrator and changes in the database itself are not requests of this kind. -/

namespace EventServer.Services.Provenance

open EventServer.Db EventServer.Lib EventServer.Python EventServer.System
open EventServer.Services.Users EventServer.Services.Pairing EventServer.Services.Accounts
open EventServer.Services.Subscriptions EventServer.CatalogAdmin EventServer.Core.Publication

/-- A request of a client: neither the bootstrap nor a change in the database itself. -/
def fromClient : Op → Bool
  | .bootstrapFirstAdmin .. | .setAccountStatus .. => false
  | _ => true

/-- The platform and the operator of a request that changes accounts. -/
def operator? : Op → Option (String × String)
  | .setPermissions a => some (a.platform, a.operatorOpenid)
  | .changeRole a => some (a.platform, a.operatorOpenid)
  | .approvePairingCode _ a => some (a.platform, a.operatorOpenid)
  | _ => none

/-- The rows of everyone but the user `o` of the platform `p` are the same. -/
structure OnlyUser (s s' : Store) (p o : String) : Prop where
  users : ∀ k, k ≠ (p, o) → s'.users.get k = s.users.get k
  userPermissions : ∀ p' o' key, (p', o') ≠ (p, o) →
    s'.userPermissions.get (p', o', key) = s.userPermissions.get (p', o', key)

/-- The permissions that were asked for are granted, the others are as before. -/
def GrantsOnly (s s' : Store) (p o : String) (permissions : List String) : Prop :=
  ∀ key, if ∃ name ∈ permissions, PermissionKey.ofString? name = some key then
      ∃ r, s'.userPermissions.get (p, o, key) = some r ∧ r.granted = true
    else s'.userPermissions.get (p, o, key) = s.userPermissions.get (p, o, key)

variable [Runtime]

/-- The step was made by a request whose operator is an effective administrator of the platform, and
changed the rows of its one target. -/
inductive Authorized (n : ℕ) (s : Store) : Op → Prop
  | setPermissions (a : SetPermissions) (ho : EffectiveAdmin s a.platform a.operatorOpenid)
    (ht : OnlyUser s (step n s (.setPermissions a)) a.platform a.openid) :
    Authorized n s (.setPermissions a)
  | changeRole (a : ChangeRole) (ho : EffectiveAdmin s a.platform a.operatorOpenid)
    (ht : OnlyUser s (step n s (.changeRole a)) a.platform a.openid) :
    Authorized n s (.changeRole a)
  | approvePairingCode (now : Time) (a : Approve) (row : PairingCode)
    (ho : EffectiveAdmin s a.platform a.operatorOpenid)
    (hrow : s.pairingCodes.get (pairingCodeHash a.code) = some row) (hp : row.platform = a.platform)
    (hnew : row.consumedAt = none) (hnow : now < row.expiresAt)
    (ht : OnlyUser s (step n s (.approvePairingCode now a)) row.platform row.openid)
    (hu : (step n s (.approvePairingCode now a)).users.get (row.platform, row.openid) =
      some ((s.users.get (row.platform, row.openid)).getD
        { platform := row.platform, openid := row.openid }))
    (hg : GrantsOnly s (step n s (.approvePairingCode now a)) row.platform row.openid
      a.permissions) :
    Authorized n s (.approvePairingCode now a)

/-! ### What the three requests write -/

omit [Runtime] in
theorem onlyUser_applyPermissions (s : Store) (a : SetPermissions) :
    OnlyUser s (applyPermissions s a) a.platform a.openid := by
  rw [applyPermissions_eq]
  constructor
  · intro k hk
    exact (get_ensureUser s a.platform a.openid k).trans (if_neg hk)
  · intro p' o' key hne
    have hne' : ¬ (p' = a.platform ∧ o' = a.openid) := fun h => hne (by rw [h.1, h.2])
    refine (get_writeRows (fun t key => row_key t a key) (row_idem a) a.keys s.userPermissions
      p' o' key).trans (if_neg fun h => hne' h.1)

omit [Runtime] in
theorem onlyUser_applyRole (s : Store) (a : ChangeRole) (role : Role) :
    OnlyUser s (applyRole s a role) a.platform a.openid := by
  constructor
  · intro k hk
    exact (get_applyRole s a role k).trans (if_neg hk)
  · intro p' o' key _
    rfl

omit [Runtime] in
theorem mem_keys {a : SetPermissions} {key : PermissionKey} :
    key ∈ a.keys ↔ ∃ name ∈ a.permissions, PermissionKey.ofString? name = some key :=
  List.mem_filterMap

omit [Runtime] in
theorem grantsOnly_applyPermissions (s : Store) {a : SetPermissions} (hg : a.granted = true) :
    GrantsOnly s (applyPermissions s a) a.platform a.openid a.permissions := by
  intro key
  have hget : (applyPermissions s a).userPermissions.get (a.platform, a.openid, key) =
      if key ∈ a.keys then some (a.row key (s.userPermissions.get (a.platform, a.openid, key)))
      else s.userPermissions.get (a.platform, a.openid, key) := by
    rw [applyPermissions_eq]
    have h := get_writeRows (fun t key => row_key t a key) (row_idem a) a.keys s.userPermissions
      a.platform a.openid key
    simpa only [and_self, true_and] using h
  rw [hget]
  by_cases hm : key ∈ a.keys
  · rw [if_pos (mem_keys.mp hm), if_pos hm]
    exact ⟨_, rfl, hg⟩
  · rw [if_neg (fun h => hm (mem_keys.mpr h)), if_neg hm]

/-- **Every request of a client leaves the accounts alone or is authorized.** -/
theorem provenance_step {n : ℕ} (s : Store) {op : Op} (hop : fromClient op = true) :
    SameAccounts s (step n s op) ∨ Authorized n s op := by
  cases op with
  | setPermissions a =>
    cases hr : setPermissions s a with
    | error e =>
      left
      simp only [step, committed, hr]
      exact SameAccounts.refl s
    | ok r =>
      obtain ⟨-, ho, hr1⟩ := setPermissions_ok hr
      right
      refine .setPermissions a ho ?_
      simp only [step, committed, hr, hr1]
      exact onlyUser_applyPermissions s a
  | changeRole a =>
    cases hr : changeRole s a with
    | error e =>
      left
      simp only [step, committed, hr]
      exact SameAccounts.refl s
    | ok r =>
      obtain ⟨role, -, ho, hr1⟩ := changeRole_ok hr
      right
      refine .changeRole a ho ?_
      simp only [step, committed, hr, hr1]
      exact onlyUser_applyRole s a role
  | approvePairingCode now a =>
    cases hr : approvePairingCode s now a with
    | error e =>
      left
      simp only [step, committed, hr]
      exact SameAccounts.refl s
    | ok r =>
      obtain ⟨row, snapshot, hcheck, hset, hr1⟩ := approvePairingCode_ok hr
      obtain ⟨hrow, hp, hnew, hnow⟩ := approve_check_ok hcheck
      obtain ⟨-, ho, -⟩ := setPermissions_ok hset
      -- the accounts are those after the grant; only the code differs
      have hs : SameAccounts (applyPermissions s (a.grant row))
          (step n s (.approvePairingCode now a)) := by
        simp only [step, committed, hr, hr1]
        exact ⟨rfl, rfl⟩
      have ht : OnlyUser s (applyPermissions s (a.grant row)) a.platform row.openid :=
        onlyUser_applyPermissions s (a.grant row)
      have hg : GrantsOnly s (applyPermissions s (a.grant row)) a.platform row.openid
          a.permissions := grantsOnly_applyPermissions s rfl
      have hu : (applyPermissions s (a.grant row)).users.get (a.platform, row.openid) =
          some ((s.users.get (a.platform, row.openid)).getD
            { platform := a.platform, openid := row.openid }) := by
        rw [applyPermissions_eq, ← ensureUser_fst]
        exact (get_ensureUser s a.platform row.openid _).trans (if_pos rfl)
      right
      rw [← hp] at ht hg hu
      refine .approvePairingCode now a row ho hrow hp hnew hnow ⟨?_, ?_⟩ ?_ ?_
      · rw [hs.users]; exact ht.users
      · rw [hs.userPermissions]; exact ht.userPermissions
      · rw [hs.users]; exact hu
      · unfold GrantsOnly
        rw [hs.userPermissions]
        exact hg
  | createPairingCode now platform openid code ttl =>
    left
    refine committed_cases (SameAccounts.refl s) fun r hr => ?_
    obtain ⟨codes, -, h', -⟩ := createPairingCode_ok hr
    rw [h']
    exact ⟨rfl, rfl⟩
  | bootstrapFirstAdmin | setAccountStatus => cases hop
  | subscribe | unsubscribe | register | publish | claim | ack | fail =>
    exact Or.inl (sameAccounts_step s rfl)

theorem Authorized.operator {n : ℕ} {s : Store} {op : Op} (h : Authorized n s op) :
    ∃ po, operator? op = some po ∧ EffectiveAdmin s po.1 po.2 := by
  cases h with
  | setPermissions a ho => exact ⟨_, rfl, ho⟩
  | changeRole a ho => exact ⟨_, rfl, ho⟩
  | approvePairingCode now a row ho => exact ⟨_, rfl, ho⟩

/-! ### The user a code was issued to -/

omit [Runtime] in
/-- Two rows of one code: it was issued to the same user with the same expiry. -/
structure SameCode (row row' : PairingCode) : Prop where
  codeHash : row'.codeHash = row.codeHash
  platform : row'.platform = row.platform
  openid : row'.openid = row.openid
  expiresAt : row'.expiresAt = row.expiresAt

/-- The code of the row was created by one of the requests for the user it names, or is one that was
stored at the start. -/
inductive Issued (s : Store) (ops : List Op) (row : PairingCode) : Prop
  | stored (row₀ : PairingCode) (h : row₀ ∈ s.pairingCodes) (hs : SameCode row₀ row)
  | created (now : Time) (code : String) (ttl : ℤ)
    (h : .createPairingCode now row.platform row.openid code ttl ∈ ops)
    (hhash : row.codeHash = pairingCodeHash code) (hexp : row.expiresAt = now + minutes ttl)

omit [Runtime] in
theorem SameCode.refl (row : PairingCode) : SameCode row row := ⟨rfl, rfl, rfl, rfl⟩

omit [Runtime] in
theorem SameCode.trans {r₁ r₂ r₃ : PairingCode} (h : SameCode r₁ r₂) (h' : SameCode r₂ r₃) :
    SameCode r₁ r₃ :=
  ⟨h'.codeHash.trans h.codeHash, h'.platform.trans h.platform, h'.openid.trans h.openid,
    h'.expiresAt.trans h.expiresAt⟩

omit [Runtime] in
theorem sameCode_consume (row : PairingCode) (approvedBy : String) (now : Time) :
    SameCode row (PairingCode.consume row approvedBy now) := ⟨rfl, rfl, rfl, rfl⟩

omit [Runtime] in
theorem sameCode_of_consume {t : PairingCodes} {row r : PairingCode}
    {approvedBy : String} {now : Time} (hrow : row ∈ t)
    (hr : r ∈ t.put (PairingCode.consume row approvedBy now)) :
    ∃ r₀ ∈ t, SameCode r₀ r := by
  rcases Table.mem_put.mp hr with rfl | ⟨hr, -⟩
  · exact ⟨row, hrow, sameCode_consume row approvedBy now⟩
  · exact ⟨r, hr, SameCode.refl r⟩

/-- **A code that is stored after a request** was stored before, or the request created it. -/
theorem issued_step (n : ℕ) (s : Store) (op : Op) {row : PairingCode}
    (h : row ∈ (step n s op).pairingCodes) : Issued s [op] row := by
  have hsame : (step n s op).pairingCodes = s.pairingCodes → Issued s [op] row := fun he =>
    .stored row (he ▸ h) (SameCode.refl row)
  cases op with
  | createPairingCode now platform openid code ttl =>
    cases hr : createPairingCode s now platform openid code ttl with
    | error e => exact hsame (by simp only [step, committed, hr])
    | ok r =>
      obtain ⟨codes, hinsert, h', hhash, hplatform, hopenid, hexpires⟩ := createPairingCode_ok hr
      have hrows := (Table.insert?_eq_some.mp hinsert).2.2
      simp only [step, committed, hr, h'] at h
      rw [← Table.mem_rows, hrows, List.mem_append, List.mem_singleton] at h
      rcases h with h | rfl
      · exact .stored row h (SameCode.refl row)
      · subst hplatform hopenid
        exact .created now code ttl (List.mem_singleton.mpr rfl) hhash hexpires
  | approvePairingCode now a =>
    cases hr : approvePairingCode s now a with
    | error e => exact hsame (by simp only [step, committed, hr])
    | ok r =>
      obtain ⟨found, -, hcheck, -, hr1⟩ := approvePairingCode_ok hr
      simp only [step, committed, hr, hr1] at h
      obtain ⟨r₀, hr₀, hsc⟩ := sameCode_of_consume (Table.mem_of_get (approve_check_ok hcheck).1) h
      exact .stored r₀ hr₀ hsc
  | bootstrapFirstAdmin now a =>
    cases hr : bootstrapFirstAdmin s now a with
    | error e => exact hsame (by simp only [step, committed, hr])
    | ok r =>
      obtain ⟨found, hcheck, hr1⟩ := bootstrapFirstAdmin_ok hr
      simp only [step, committed, hr, hr1] at h
      obtain ⟨r₀, hr₀, hsc⟩ := sameCode_of_consume
        (Table.mem_of_get (bootstrap_check_ok hcheck).1) h
      exact .stored r₀ hr₀ hsc
  | setPermissions | changeRole | subscribe | unsubscribe | register | publish | claim | ack | fail
  | setAccountStatus => exact hsame (pairingCodes_step n s rfl)

theorem issued_run (n : ℕ) (s : Store) (ops : List Op) {row : PairingCode}
    (h : row ∈ (run (step n) s ops).pairingCodes) : Issued s ops row := by
  induction ops using List.reverseRecOn generalizing row with
  | nil => exact .stored row h (SameCode.refl row)
  | append_singleton ops op ih =>
    rw [run_concat] at h
    cases issued_step n _ op h with
    | stored row₀ hrow₀ hs =>
      cases ih hrow₀ with
      | stored row₁ hrow₁ hs₁ => exact .stored row₁ hrow₁ (hs₁.trans hs)
      | created now code ttl hm hhash hexp =>
        refine .created now code ttl ?_ (hs.codeHash.trans hhash) (hs.expiresAt.trans hexp)
        rw [hs.platform, hs.openid]
        exact List.mem_append_left _ hm
    | created now code ttl hm hhash hexp =>
      exact .created now code ttl (List.mem_append_right _ hm) hhash hexp

/-! ### Over a run -/

/-- **Authority comes from administrators.** Along every run of requests of clients, from any store,
every step leaves `users` and `user_permissions` alone or is a call of `set_permissions`,
`change_role` or `approve_pairing_code` whose operator is at that moment an effective administrator
of the platform; it changes the rows of its target only, and an approval those of the user its code
was issued to, by granting what was asked for. Without a call by an effective administrator both
tables stay as they are. -/
theorem authority_provenance (n : ℕ) (s : Store) (ops : List Op)
    (hops : ∀ op ∈ ops, fromClient op = true) :
    Along (step n) (fun s op => SameAccounts s (step n s op) ∨ Authorized n s op) s ops ∧
    (∀ pre post, ops = pre ++ post → ∀ row ∈ (run (step n) s pre).pairingCodes, Issued s pre row) ∧
    (Along (step n) (fun s op => ∀ po ∈ operator? op, ¬ EffectiveAdmin s po.1 po.2) s ops →
      SameAccounts s (run (step n) s ops)) := by
  have hsteps : Along (step n) (fun s op => SameAccounts s (step n s op) ∨
      Authorized n s op) s ops := by
    rintro pre op post rfl
    exact provenance_step _ (hops op (by simp))
  refine ⟨hsteps, fun pre _ _ row h => issued_run n s pre h, fun hnone => ?_⟩
  have hsame : Along (step n) (fun s op => SameAccounts s (step n s op)) s ops := by
    intro pre op post he
    rcases hsteps pre op post he with h | h
    · exact h
    · obtain ⟨po, hpo, ho⟩ := h.operator
      exact absurd ho (hnone pre op post he po hpo)
  exact run_invariant (I := fun s' => SameAccounts s s') (fun s' op h h' => h.trans h')
    (SameAccounts.refl s) hsame

omit [Runtime] in
/-- The store of a platform whose first administrator is `root`. -/
def sampleStore : Store := run (@step .sample 5) {} (sampleSetup.take 2)

omit [Runtime] in
/-- `root` approves a code that was created for `bob`. -/
def sampleApproval : List Op :=
  [.createPairingCode (seconds 2) "qqbot" "bob" "BCDEFGHJ" 10,
    .approvePairingCode (seconds 3) { code := "BCDEFGHJ", permissions := ["chat"],
                                      operatorOpenid := "root" }]

omit [Runtime] in
/-- `bob` makes himself an administrator. -/
def sampleEscalation : List Op :=
  [.changeRole { platform := "qqbot", openid := "bob", role := "admin", operatorOpenid := "bob" }]

omit [Runtime] in
/-- The approval is authorized, and `bob` alone changes nothing. -/
theorem authority_provenance_sample :
    Along (@step .sample 5)
      (fun s op => SameAccounts s (@step .sample 5 s op) ∨ @Authorized .sample 5 s op)
      sampleStore sampleApproval ∧
    SameAccounts sampleStore (run (@step .sample 5) sampleStore sampleEscalation) := by
  let _ := Runtime.sample
  exact ⟨(authority_provenance 5 sampleStore sampleApproval (by decide)).1,
    (authority_provenance 5 sampleStore sampleEscalation (by decide)).2.2 (by decide)⟩

end EventServer.Services.Provenance
