import EventServer.System

/-! # The guard of the last administrator

`set_permissions` and `change_role` refuse a change exactly if it would leave the platform without
an effective administrator (`revoke_guard`, `demote_guard`). The operator is one, so only a change
to the operator can do that, and then only if the count is one. Hence no run of requests removes the
last one (`admins_step`). -/

namespace EventServer.Services.LastAdmin

open EventServer.Db EventServer.Lib EventServer.Python EventServer.System
open EventServer.Services.Users EventServer.Services.Pairing EventServer.Services.Accounts

/-! ### Revoking -/

theorem effectiveAdmin_ensureUser {s : Store} {p o p' o' : String} :
    EffectiveAdmin (ensureUser s p o).2 p' o' ↔ EffectiveAdmin s p' o' := by
  unfold EffectiveAdmin
  rw [activeAdmin_ensureUser, hasCommand_ensureUser]

theorem effectiveAdmin_applyPermissions {s : Store} {a : SetPermissions} {p o : String} :
    EffectiveAdmin (applyPermissions s a) p o ↔ ActiveAdmin s p o ∧
      if (p = a.platform ∧ o = a.openid) ∧ "command" ∈ a.permissions then a.granted = true
      else HasCommand s p o := by
  unfold EffectiveAdmin
  rw [activeAdmin_applyPermissions, hasCommand_applyPermissions]

/-- The guard of `set_permissions`: `command` is taken from an effective administrator, and the
count is one. -/
theorem removesLast_iff {s : Store} {a : SetPermissions} {count : ℕ} :
    a.removesLast (ensureUser s a.platform a.openid).1
        (s.userPermissions.get (a.platform, a.openid, .command)) count = true ↔
      a.granted = false ∧ "command" ∈ a.permissions ∧ EffectiveAdmin s a.platform a.openid ∧
        count = 1 := by
  have hA : ActiveAdmin s a.platform a.openid ↔ (ensureUser s a.platform a.openid).1.role = .admin ∧
      (ensureUser s a.platform a.openid).1.accountStatus = .active := by
    unfold ActiveAdmin
    rw [ensureUser_fst]
    cases s.users.get (a.platform, a.openid) <;> simp [and_comm]
  unfold SetPermissions.removesLast EffectiveAdmin
  rw [hA, ← command_iff]
  cases s.userPermissions.get (a.platform, a.openid, .command) with
  | none => simp
  | some row =>
    simp only [Bool.and_eq_true, Bool.not_eq_true', decide_eq_true_eq, Option.map_some,
      Option.getD_some]
    tauto

/-- **The guard is exact**: it applies if the change would leave no effective administrator. -/
theorem revoke_guard {s : Store} {a : SetPermissions}
    (ho : EffectiveAdmin s a.platform a.operatorOpenid) :
    a.removesLast (ensureUser s a.platform a.openid).1
        (s.userPermissions.get (a.platform, a.openid, .command))
        (activeCommandAdminCount (ensureUser s a.platform a.openid).2 a.platform) = true ↔
      ∀ o, ¬ EffectiveAdmin (applyPermissions s a) a.platform o := by
  rw [removesLast_iff]
  constructor
  · rintro ⟨hg, hc, ht, hcount⟩ o hafter
    obtain ⟨hA, hcom⟩ := effectiveAdmin_applyPermissions.mp hafter
    split_ifs at hcom with h
    · rw [hg] at hcom; cases hcom
    · -- `o` was an effective administrator before, so `o` is the target
      have heq : o = a.openid := eq_of_count_eq_one hcount
        (effectiveAdmin_ensureUser.mpr ⟨hA, hcom⟩) (effectiveAdmin_ensureUser.mpr ht)
      exact h ⟨⟨rfl, heq⟩, hc⟩
  · intro hzero
    have hop : ((a.platform = a.platform ∧ a.operatorOpenid = a.openid) ∧
        "command" ∈ a.permissions) ∧
        ¬ a.granted = true := by
      by_contra hn
      refine hzero a.operatorOpenid (effectiveAdmin_applyPermissions.mpr ⟨ho.1, ?_⟩)
      split_ifs with h
      · by_contra hg
        exact hn ⟨h, hg⟩
      · exact ho.2
    obtain ⟨⟨⟨-, heq⟩, hc⟩, hg⟩ := hop
    rw [heq] at ho
    refine ⟨by simpa using hg, hc, ho, ?_⟩
    by_contra hcount
    obtain ⟨o', hne, ho'⟩ := exists_other hcount (effectiveAdmin_ensureUser.mpr ho)
    have ho' := effectiveAdmin_ensureUser.mp ho'
    refine hzero o' (effectiveAdmin_applyPermissions.mpr ⟨ho'.1, ?_⟩)
    rw [if_neg (fun h => hne h.1.2)]
    exact ho'.2

/-! ### Demoting -/

theorem effectiveAdmin_applyRole_of_ne {s : Store} {a : ChangeRole} {role : Role} {o : String}
    (hne : o ≠ a.openid) :
    EffectiveAdmin (applyRole s a role) a.platform o ↔ EffectiveAdmin s a.platform o := by
  unfold EffectiveAdmin
  rw [activeAdmin_applyRole_of_ne (fun h => hne h.2), hasCommand_applyRole]

/-- The guard of `change_role`: an effective administrator is demoted, and the count is one. -/
theorem demotesLast_iff {s : Store} {a : ChangeRole} {role : Role} {count : ℕ} :
    ((s.users.get (a.platform, a.openid)).map fun t => ChangeRole.removesLast t role
        ((s.userPermissions.get (a.platform, a.openid, .command)).map (·.granted))
        count).getD false = true ↔
      role = .user ∧ EffectiveAdmin s a.platform a.openid ∧ count = 1 := by
  have hc : (s.userPermissions.get (a.platform, a.openid, .command)).map (·.granted) = some true ↔
      HasCommand s a.platform a.openid := by
    unfold HasCommand
    rw [Option.map_eq_some_iff]
  unfold EffectiveAdmin ActiveAdmin
  cases s.users.get (a.platform, a.openid) with
  | none => simp
  | some t =>
    simp only [Option.map_some, Option.getD_some, ChangeRole.removesLast, Bool.and_eq_true,
      decide_eq_true_eq, hc, Option.some.injEq, exists_eq_left']
    tauto

theorem demote_guard {s : Store} {a : ChangeRole} {role : Role}
    (ho : EffectiveAdmin s a.platform a.operatorOpenid) :
    ((s.users.get (a.platform, a.openid)).map fun t => ChangeRole.removesLast t role
        ((s.userPermissions.get (a.platform, a.openid, .command)).map (·.granted))
        (activeCommandAdminCount s a.platform)).getD false = true ↔
      ∀ o, ¬ EffectiveAdmin (applyRole s a role) a.platform o := by
  rw [demotesLast_iff]
  constructor
  · rintro ⟨rfl, ht, hcount⟩ o hafter
    by_cases heq : o = a.openid
    · subst heq
      have := (activeAdmin_applyRole.mp hafter.1).1
      cases this
    · exact heq (eq_of_count_eq_one hcount ((effectiveAdmin_applyRole_of_ne heq).mp hafter) ht)
  · intro hzero
    have heq : a.operatorOpenid = a.openid := by
      by_contra hne
      exact hzero _ ((effectiveAdmin_applyRole_of_ne hne).mpr ho)
    rw [heq] at ho
    have hrole : role = .user := by
      cases role with
      | user => rfl
      | admin =>
        obtain ⟨u, hu, ha, -⟩ := ho.1
        refine absurd ⟨activeAdmin_applyRole.mpr ⟨rfl, by rw [hu]; exact ha⟩, ?_⟩ (hzero a.openid)
        exact hasCommand_applyRole.mpr ho.2
    refine ⟨hrole, ho, ?_⟩
    by_contra hcount
    obtain ⟨o', hne, ho'⟩ := exists_other hcount ho
    exact hzero o' ((effectiveAdmin_applyRole_of_ne hne).mpr ho')

variable [Runtime]

/-! ### Over a run -/

omit [Runtime] in
/-- Accounts are blocked in the database, past the guards. -/
def blocks : Op → Bool
  | .setAccountStatus _ _ .blocked => true
  | _ => false

theorem admins_of_setPermissions {s : Store} {a : SetPermissions} {r : Store × PermissionSnapshot}
    (h : setPermissions s a = .ok r) : ∃ o, EffectiveAdmin (applyPermissions s a) a.platform o := by
  obtain ⟨⟨hv, hne⟩, ho, -⟩ := setPermissions_ok h
  by_contra hzero
  have hg := (revoke_guard ho).mpr (not_exists.mp hzero)
  rw [setPermissions_eq hv hne ho, if_pos hg] at h
  cases h

omit [Runtime] in
theorem admins_of_changeRole {s : Store} {a : ChangeRole} {role : Role}
    {r : Store × PermissionSnapshot} (hrole : Role.ofString? a.role = some role)
    (h : changeRole s a = .ok r) : ∃ o, EffectiveAdmin (applyRole s a role) a.platform o := by
  obtain ⟨_, -, ho, -⟩ := changeRole_ok h
  by_contra hzero
  have hg := (demote_guard ho).mpr (not_exists.mp hzero)
  rw [changeRole_eq hrole ho, if_pos hg] at h
  cases h

/-- **No request removes the last administrator.** -/
theorem admins_step {n : ℕ} {s : Store} {op : Op} {p : String} (hb : blocks op = false)
    (h : ∃ o, EffectiveAdmin s p o) : ∃ o, EffectiveAdmin (step n s op) p o := by
  obtain ⟨o, ho⟩ := h
  cases account_cases n s op with
  | same hs => exact ⟨o, hs.effectiveAdmin.mpr ho⟩
  | permissions a r hr _ hs =>
    by_cases hp : p = a.platform
    · subst hp
      obtain ⟨o', ho'⟩ := admins_of_setPermissions hr
      exact ⟨o', hs.effectiveAdmin.mpr ho'⟩
    · refine ⟨o, hs.effectiveAdmin.mpr (effectiveAdmin_applyPermissions.mpr ⟨ho.1, ?_⟩)⟩
      rw [if_neg (fun h => hp h.1.1)]
      exact ho.2
  | role a role r hr hrole hs =>
    by_cases hp : p = a.platform
    · subst hp
      obtain ⟨o', ho'⟩ := admins_of_changeRole hrole hr
      exact ⟨o', hs.effectiveAdmin.mpr ho'⟩
    · refine ⟨o, hs.effectiveAdmin.mpr ⟨?_, hasCommand_applyRole.mpr ho.2⟩⟩
      exact (activeAdmin_applyRole_of_ne (fun h => hp h.1)).mpr ho.1
  | promote a openid hs =>
    refine ⟨o, hs.effectiveAdmin.mpr ⟨?_, ?_⟩⟩
    · exact activeAdmin_promote.mpr (Or.inr ho.1)
    · exact hasCommand_promote.mpr (Or.inr ho.2)
  | status platform openid status he =>
    subst he
    refine ⟨o, ?_, ho.2⟩
    obtain ⟨u, hu, ha, hr⟩ := ho.1
    refine ⟨_, (get_writeAccountStatus s platform openid status (p, o)).trans (by rw [hu]; rfl), ?_⟩
    cases status with
    | blocked => cases hb
    | active => split_ifs <;> exact ⟨by first | rfl | exact ha, hr⟩

/-- **The guard of the last administrator is exact.** A call of `set_permissions` or `change_role`
with valid arguments by an effective administrator is refused with a `LastAdminError` if and only if
the change would leave no effective administrator, and is carried out otherwise; and along every run
of requests a platform that has effective administrators keeps some. -/
theorem last_admin_guard (n : ℕ) :
    (∀ (s : Store) (a : SetPermissions), a.invalid = [] → a.permissions ≠ [] →
      EffectiveAdmin s a.platform a.operatorOpenid →
      ((∃ m, setPermissions s a = .error (.lastAdminError m)) ↔
        ∀ o, ¬ EffectiveAdmin (applyPermissions s a) a.platform o) ∧
      ((∃ o, EffectiveAdmin (applyPermissions s a) a.platform o) →
        ∃ snapshot, setPermissions s a = .ok (applyPermissions s a, snapshot))) ∧
    (∀ (s : Store) (a : ChangeRole) (role : Role), Role.ofString? a.role = some role →
      EffectiveAdmin s a.platform a.operatorOpenid →
      ((∃ m, changeRole s a = .error (.lastAdminError m)) ↔
        ∀ o, ¬ EffectiveAdmin (applyRole s a role) a.platform o) ∧
      ((∃ o, EffectiveAdmin (applyRole s a role) a.platform o) →
        ∃ snapshot, changeRole s a = .ok (applyRole s a role, snapshot))) ∧
    ∀ (s : Store) (p : String) (ops : List Op), (∀ op ∈ ops, blocks op = false) →
      0 < activeCommandAdminCount s p → 0 < activeCommandAdminCount (run (step n) s ops) p := by
  refine ⟨fun s a hv hne ho => ?_, fun s a role hrole ho => ?_, fun s p ops hb h => ?_⟩
  · rw [setPermissions_eq hv hne ho]
    by_cases hz : ∀ o, ¬ EffectiveAdmin (applyPermissions s a) a.platform o
    · rw [if_pos ((revoke_guard ho).mpr hz)]
      refine ⟨⟨fun _ => hz, fun _ => ⟨_, rfl⟩⟩, fun ⟨o, h⟩ => absurd h (hz o)⟩
    · rw [if_neg (fun h => hz ((revoke_guard ho).mp h))]
      refine ⟨⟨fun ⟨m, h⟩ => (by cases h), fun h => absurd h hz⟩, fun _ => ⟨_, rfl⟩⟩
  · rw [changeRole_eq hrole ho]
    by_cases hz : ∀ o, ¬ EffectiveAdmin (applyRole s a role) a.platform o
    · rw [if_pos ((demote_guard ho).mpr hz)]
      refine ⟨⟨fun _ => hz, fun _ => ⟨_, rfl⟩⟩, fun ⟨o, h⟩ => absurd h (hz o)⟩
    · rw [if_neg (fun h => hz ((demote_guard ho).mp h))]
      refine ⟨⟨fun ⟨m, h⟩ => (by cases h), fun h => absurd h hz⟩, fun _ => ⟨_, rfl⟩⟩
  · have hpos : ∀ s : Store, 0 < activeCommandAdminCount s p ↔ ∃ o, EffectiveAdmin s p o := by
      intro s
      rw [Nat.pos_iff_ne_zero, ne_eq, count_eq_zero, not_forall]
      simp
    rw [hpos] at h ⊢
    refine run_invariant (C := fun _ op => blocks op = false)
      (I := fun s => ∃ o, EffectiveAdmin s p o) (fun s op h hb => admins_step hb h) h ?_
    rintro pre op post rfl
    exact hb op (by simp)

/-- `root` gives up `command`. -/
def sampleResignation : SetPermissions where
  platform := "qqbot"
  openid := "root"
  permissions := ["command"]
  granted := false
  operatorOpenid := "root"

omit [Runtime] in
/-- The only administrator cannot give up `command`; the run up to there has kept one. -/
theorem last_admin_guard_sample :
    (∃ m, @setPermissions .sample (run (@step .sample 5) {} sampleSetup) sampleResignation =
      .error (.lastAdminError m)) ∧
    0 < activeCommandAdminCount (run (@step .sample 5) {} sampleSetup) "qqbot" := by
  let _ := Runtime.sample
  obtain ⟨hset, -, hrun⟩ := last_admin_guard 5
  constructor
  · refine (hset _ sampleResignation (by decide) (by decide) (by decide)).1.mpr fun o ho => ?_
    -- `root` is the only one who was an administrator before
    have hone : activeCommandAdminCount (run (step 5) {} sampleSetup) "qqbot" = 1 := by decide
    have hroot : EffectiveAdmin (run (step 5) {} sampleSetup) "qqbot" "root" := by decide
    obtain ⟨hA, hcom⟩ := effectiveAdmin_applyPermissions.mp ho
    split_ifs at hcom with h
    · cases hcom
    · exact h ⟨⟨rfl, eq_of_count_eq_one hone ⟨hA, hcom⟩ hroot⟩, by decide⟩
  · have hsplit : sampleSetup = sampleSetup.take 2 ++ sampleSetup.drop 2 := rfl
    rw [hsplit, run_append]
    exact hrun _ "qqbot" _ (by decide) (by decide)

end EventServer.Services.LastAdmin
