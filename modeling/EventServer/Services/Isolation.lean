import EventServer.Lib.Agreement
import EventServer.System
import Mathlib.Data.Prod.Lex
import Mathlib.Logic.Equiv.List

/-! # Platforms do not see each other

The requests that carry a platform, with their answers, in two stores that agree on the rows of this
platform and on the catalog and differ in everything else: both answer alike and still agree, and
the rows of other platforms stay as they are (`platform_isolation`). A pairing code is stored under
its digest only, without the platform; so the codes that are created must not collide with those of
other platforms. -/

namespace EventServer.Services.Isolation

open EventServer.Db EventServer.Lib EventServer.Python EventServer.Services.Users
open EventServer.Services.Pairing EventServer.Services.Accounts EventServer.Services.Subscriptions
open EventServer.Deliveries.Outbox

/-! ### Requests and answers -/

inductive Request
  | permissionSnapshot (platform openid : String)
  | listSubscriptions (platform openid : String)
  | setPermissions (a : SetPermissions)
  | changeRole (a : ChangeRole)
  | createPairingCode (now : Time) (platform openid code : String) (ttlMinutes : ℤ)
  | approvePairingCode (now : Time) (a : Approve)
  | bootstrapFirstAdmin (now : Time) (a : Bootstrap)
  | subscribe (a : Subscribe)
  | unsubscribe (a : Unsubscribe)
  | claim (a : Claim)

def Request.platform : Request → String
  | .permissionSnapshot platform _ => platform
  | .listSubscriptions platform _ => platform
  | .setPermissions a => a.platform
  | .changeRole a => a.platform
  | .createPairingCode _ platform _ _ _ => platform
  | .approvePairingCode _ a => a.platform
  | .bootstrapFirstAdmin _ a => a.platform
  | .subscribe a => a.platform
  | .unsubscribe a => a.platform
  | .claim a => a.platform

/-- The request as one that the server carries out on the store; queries do nothing to it. -/
def Request.op? : Request → Option System.Op
  | .permissionSnapshot .. | .listSubscriptions .. => none
  | .setPermissions a => some (.setPermissions a)
  | .changeRole a => some (.changeRole a)
  | .createPairingCode now platform openid code ttl =>
    some (.createPairingCode now platform openid code ttl)
  | .approvePairingCode now a => some (.approvePairingCode now a)
  | .bootstrapFirstAdmin now a => some (.bootstrapFirstAdmin now a)
  | .subscribe a => some (.subscribe a)
  | .unsubscribe a => some (.unsubscribe a)
  | .claim a => some (.claim a)

inductive Answer
  | snapshot (snapshot : PermissionSnapshot)
  | subscriptions (items : List Subscription)
  | code (row : PairingCode)
  | subscribed (result : Subscribed)
  | unsubscribed (removed : Bool)
  | claimed (deliveries : List ClaimedDelivery)

/-- The store after a transaction and what the caller is told. -/
def transaction {α : Type} (s : Store) (r : Except Raised (Store × α)) (answer : α → Answer) :
    Store × Except Raised Answer :=
  (System.committed s r, r.map fun x => answer x.2)

variable [Runtime]

def serve (s : Store) : Request → Store × Except Raised Answer
  | .permissionSnapshot platform openid =>
    (s, .ok (.snapshot (Users.permissionSnapshot s platform openid)))
  | .listSubscriptions platform openid =>
    (s, .ok (.subscriptions (Subscriptions.listSubscriptions s platform openid)))
  | .setPermissions a => transaction s (Users.setPermissions s a) .snapshot
  | .changeRole a => transaction s (Users.changeRole s a) .snapshot
  | .createPairingCode now platform openid code ttl =>
    transaction s (Pairing.createPairingCode s now platform openid code ttl) .code
  | .approvePairingCode now a => transaction s (Pairing.approvePairingCode s now a) .snapshot
  | .bootstrapFirstAdmin now a => transaction s (Pairing.bootstrapFirstAdmin s now a) .snapshot
  | .subscribe a => transaction s (Subscriptions.subscribe s a) .subscribed
  | .unsubscribe a => transaction s (Subscriptions.unsubscribe s a) .unsubscribed
  | .claim a =>
    let r := Deliveries.Outbox.claim s.deliveries a
    ({ s with deliveries := r.1 }, .ok (.claimed r.2))

/-- The store after a request. -/
def next (s : Store) (r : Request) : Store := (serve s r).1

/-- The answers to requests that are made one after the other. -/
def answers (s : Store) : List Request → List (Except Raised Answer)
  | [] => []
  | r :: rs => (serve s r).2 :: answers (next s r) rs

theorem next_eq (n : ℕ) (s : Store) (r : Request) :
    next s r = match r.op? with
      | some op => System.step n s op
      | none => s := by
  cases r <;> rfl

/-! ### Rows of platforms -/

/-- The stores hold the same rows of the platforms in `P`. -/
structure SameRows (P : String → Prop) (s s' : Store) : Prop where
  users : s.users.AgreeOn (fun r => P r.platform) s'.users
  userPermissions : s.userPermissions.AgreeOn (fun r => P r.platform) s'.userPermissions
  subscriptions : s.subscriptions.AgreeOn (fun r => P r.platform) s'.subscriptions
  pairingCodes : s.pairingCodes.AgreeOn (fun r => P r.platform) s'.pairingCodes
  deliveries : s.deliveries.AgreeOn (fun r => P r.platform) s'.deliveries

/-- The stores agree on the platform `p` and on the catalog. -/
structure Agree (p : String) (s s' : Store) : Prop extends SameRows (· = p) s s' where
  eventTypes : s.eventTypes = s'.eventTypes
  eventAliases : s.eventAliases = s'.eventAliases

section Rows

variable {P : String → Prop} {s s' : Store}

omit [Runtime] in
theorem SameRows.refl (s : Store) : SameRows P s s :=
  ⟨.refl _, .refl _, .refl _, .refl _, .refl _⟩

omit [Runtime] in
theorem SameRows.trans {s₁ s₂ s₃ : Store} (h : SameRows P s₁ s₂) (h' : SameRows P s₂ s₃) :
    SameRows P s₁ s₃ :=
  ⟨h.users.trans h'.users, h.userPermissions.trans h'.userPermissions,
    h.subscriptions.trans h'.subscriptions, h.pairingCodes.trans h'.pairingCodes,
    h.deliveries.trans h'.deliveries⟩

omit [Runtime] in
theorem agreeOn_users {t t' : Users} : t.AgreeOn (fun r => P r.platform) t' ↔
    ∀ k : String × String, P k.1 → t.get k = t'.get k :=
  Table.agreeOn_iff_get (Q := fun k : String × String => P k.1) fun _ => Iff.rfl

omit [Runtime] in
theorem agreeOn_permissions {t t' : UserPermissions} : t.AgreeOn (fun r => P r.platform) t' ↔
    ∀ k : String × String × PermissionKey, P k.1 → t.get k = t'.get k :=
  Table.agreeOn_iff_get (Q := fun k : String × String × PermissionKey => P k.1) fun _ => Iff.rfl

omit [Runtime] in
theorem agreeOn_subscriptions {t t' : Subscriptions} : t.AgreeOn (fun r => P r.platform) t' ↔
    ∀ k : String × String × String, P k.1 → t.get k = t'.get k :=
  Table.agreeOn_iff_get (Q := fun k : String × String × String => P k.1) fun _ => Iff.rfl

/-! ### Writing to a platform -/

omit [Runtime] in
theorem SameRows.ensureUser_fst (h : SameRows P s s') {platform : String} (hp : P platform)
    (openid : String) : (ensureUser s platform openid).1 = (ensureUser s' platform openid).1 := by
  rw [Accounts.ensureUser_fst, Accounts.ensureUser_fst,
    agreeOn_users.mp h.users (platform, openid) hp]

omit [Runtime] in
theorem sameRows_ensureUser (h : SameRows P s s') (platform openid : String) :
    SameRows P (ensureUser s platform openid).2 (ensureUser s' platform openid).2 := by
  have husers : (ensureUser s platform openid).2.users.AgreeOn (fun r => P r.platform)
      (ensureUser s' platform openid).2.users := by
    rw [agreeOn_users]
    intro k hk
    rw [get_ensureUser, get_ensureUser, agreeOn_users.mp h.users k hk]
    split_ifs with he
    · subst he
      rw [h.ensureUser_fst hk]
    · rfl
  rw [ensureUser_snd s, ensureUser_snd s']
  exact ⟨husers, h.userPermissions, h.subscriptions, h.pairingCodes, h.deliveries⟩

omit [Runtime] in
theorem sameRows_applyPermissions (h : SameRows P s s') (a : SetPermissions) :
    SameRows P (applyPermissions s a) (applyPermissions s' a) := by
  have husers := (sameRows_ensureUser h a.platform a.openid).users
  rw [applyPermissions_eq, applyPermissions_eq]
  refine ⟨husers, ?_, h.subscriptions, h.pairingCodes, h.deliveries⟩
  rw [agreeOn_permissions]
  rintro ⟨p, o, key⟩ hp
  simp only [get_writeRows (fun t key => row_key t a key) (row_idem a),
    agreeOn_permissions.mp h.userPermissions _ hp]

omit [Runtime] in
theorem sameRows_applyRole (h : SameRows P s s') (a : ChangeRole) (role : Role) :
    SameRows P (applyRole s a role) (applyRole s' a role) := by
  refine ⟨?_, h.userPermissions, h.subscriptions, h.pairingCodes, h.deliveries⟩
  rw [agreeOn_users]
  intro k hk
  rw [get_applyRole, get_applyRole, agreeOn_users.mp h.users k hk]
  split_ifs with he
  · subst he
    rw [h.ensureUser_fst hk]
  · rfl

omit [Runtime] in
theorem permission_idem (a : Bootstrap) (openid : String) (key : PermissionKey)
    (r : Option UserPermission) :
    a.permission openid key (some (a.permission openid key r)) = a.permission openid key r := by
  cases r <;> rfl

omit [Runtime] in
theorem promote_permissions (s : Store) (a : Bootstrap) (openid : String) :
    (Bootstrap.promote s a openid).userPermissions =
      writeRows (a.permission openid) a.platform openid [.chat, .command] s.userPermissions := rfl

omit [Runtime] in
theorem sameRows_promote (h : SameRows P s s') (a : Bootstrap) (openid : String) :
    SameRows P (Bootstrap.promote s a openid) (Bootstrap.promote s' a openid) := by
  refine ⟨?_, ?_, h.subscriptions, h.pairingCodes, h.deliveries⟩
  · rw [agreeOn_users]
    intro k hk
    rw [get_promote, get_promote, agreeOn_users.mp h.users k hk]
    split_ifs with he
    · subst he
      rw [h.ensureUser_fst hk]
    · rfl
  · rw [agreeOn_permissions]
    rintro ⟨p, o, key⟩ hp
    simp only [promote_permissions, get_writeRows (fun t key => permission_key t a openid key)
      (permission_idem a openid), agreeOn_permissions.mp h.userPermissions _ hp]

/-! ### Writing to another platform -/

omit [Runtime] in
theorem sameRows_applyPermissions_other (s : Store) {a : SetPermissions} (ha : ¬ P a.platform) :
    SameRows P s (applyPermissions s a) := by
  rw [applyPermissions_eq]
  refine ⟨?_, ?_, .refl _, .refl _, .refl _⟩
  · rw [agreeOn_users]
    intro k hk
    have hne : k ≠ (a.platform, a.openid) := by
      rintro rfl
      exact ha hk
    rw [get_ensureUser, if_neg hne]
  · rw [agreeOn_permissions]
    rintro ⟨p, o, key⟩ hp
    have hne : ¬ ((p = a.platform ∧ o = a.openid) ∧ key ∈ a.keys) := by
      rintro ⟨⟨rfl, -⟩, -⟩
      exact ha hp
    rw [get_writeRows (fun t key => row_key t a key) (row_idem a), if_neg hne]

omit [Runtime] in
theorem sameRows_applyRole_other (s : Store) {a : ChangeRole} (ha : ¬ P a.platform) (role : Role) :
    SameRows P s (applyRole s a role) := by
  refine ⟨?_, .refl _, .refl _, .refl _, .refl _⟩
  rw [agreeOn_users]
  intro k hk
  have hne : k ≠ (a.platform, a.openid) := by
    rintro rfl
    exact ha hk
  rw [get_applyRole, if_neg hne]

omit [Runtime] in
theorem sameRows_promote_other (s : Store) {a : Bootstrap} (ha : ¬ P a.platform) (openid : String) :
    SameRows P s (Bootstrap.promote s a openid) := by
  refine ⟨?_, ?_, .refl _, .refl _, .refl _⟩
  · rw [agreeOn_users]
    intro k hk
    have hne : k ≠ (a.platform, openid) := by
      rintro rfl
      exact ha hk
    rw [get_promote, if_neg hne]
  · rw [agreeOn_permissions]
    rintro ⟨p, o, key⟩ hp
    have hne : ¬ ((p = a.platform ∧ o = openid) ∧ key ∈ [PermissionKey.chat, .command]) := by
      rintro ⟨⟨rfl, -⟩, -⟩
      exact ha hp
    rw [promote_permissions, get_writeRows (fun t key => permission_key t a openid key)
      (permission_idem a openid), if_neg hne]

end Rows

/-! ### Reading from a platform -/

section Reading

variable {p : String} {s s' : Store}

omit [Runtime] in
theorem Agree.user_eq (h : Agree p s s') (openid : String) :
    s.users.get (p, openid) = s'.users.get (p, openid) :=
  (agreeOn_users (P := (· = p))).mp h.users (p, openid) rfl

omit [Runtime] in
theorem Agree.permission_eq (h : Agree p s s') (openid : String) (key : PermissionKey) :
    s.userPermissions.get (p, openid, key) = s'.userPermissions.get (p, openid, key) :=
  (agreeOn_permissions (P := (· = p))).mp h.userPermissions (p, openid, key) rfl

omit [Runtime] in
theorem Agree.subscription_eq (h : Agree p s s') (openid eventKey : String) :
    s.subscriptions.get (p, openid, eventKey) = s'.subscriptions.get (p, openid, eventKey) :=
  (agreeOn_subscriptions (P := (· = p))).mp h.subscriptions (p, openid, eventKey) rfl

omit [Runtime] in
theorem Agree.permissionSnapshot_eq (h : Agree p s s') (openid : String) :
    Users.permissionSnapshot s p openid = Users.permissionSnapshot s' p openid := by
  unfold Users.permissionSnapshot
  simp only [permissionValue_rows, h.user_eq, h.permission_eq]

omit [Runtime] in
theorem Agree.requireAdmin_eq (h : Agree p s s') (openid : String) :
    requireAdmin s p openid = requireAdmin s' p openid := by
  unfold requireAdmin
  rw [h.permissionSnapshot_eq]

omit [Runtime] in
theorem Agree.effectiveAdmin_iff (h : Agree p s s') (openid : String) :
    EffectiveAdmin s p openid ↔ EffectiveAdmin s' p openid := by
  rw [← isAdmin_iff, ← isAdmin_iff, h.permissionSnapshot_eq]

omit [Runtime] in
theorem Agree.activeCommandAdminCount_eq (h : Agree p s s') :
    activeCommandAdminCount s p = activeCommandAdminCount s' p := by
  rw [Accounts.activeCommandAdminCount_eq, Accounts.activeCommandAdminCount_eq]
  simp only [h.effectiveAdmin_iff]
  exact (h.users.perm_filter fun r hr => by simpa using (of_decide_eq_true hr).1).length_eq

omit [Runtime] in
theorem Agree.activeCommand_eq (h : Agree p s s') (openid : String) :
    activeCommand s p openid = activeCommand s' p openid := by
  unfold activeCommand
  rw [h.permissionSnapshot_eq]

omit [Runtime] in
theorem Agree.resolveEvent_eq (h : Agree p s s') (eventKey : String) :
    resolveEvent s eventKey = resolveEvent s' eventKey := by
  unfold resolveEvent
  rw [h.eventTypes, h.eventAliases]

omit [Runtime] in
theorem Agree.listSubscriptions_eq (h : Agree p s s') (openid : String) :
    Subscriptions.listSubscriptions s p openid = Subscriptions.listSubscriptions s' p openid := by
  unfold Subscriptions.listSubscriptions
  refine insertionSort_eq_of_perm (fun _ _ => String.le_total _ _) (fun _ _ _ => String.le_trans)
    (fun a ha b hb hab hba => ?_)
    (h.subscriptions.perm_filter fun r hr => (of_decide_eq_true hr).1)
  simp only [List.mem_filter, decide_eq_true_eq] at ha hb
  refine Table.key_inj ha.1 hb.1 ?_
  show (a.platform, a.openid, a.eventKey) = (b.platform, b.openid, b.eventKey)
  rw [ha.2.1, ha.2.2, hb.2.1, hb.2.2, String.le_antisymm hab hba]

omit [Runtime] in
/-- What a claim orders the rows by. -/
def rank (a : Claim) (d : Delivery) : Time ×ₗ Time ×ₗ ℕ :=
  toLex (d.nextAttemptAt, toLex (d.createdAt, a.tie d.deliveryId))

omit [Runtime] in
theorem before_iff {a : Claim} {d d' : Delivery} : a.before d d' = true ↔ rank a d ≤ rank a d' := by
  simp [Claim.before, rank, Prod.Lex.toLex_le_toLex]

omit [Runtime] in
theorem Agree.claimStatement_eq (h : Agree p s s') {a : Claim} (ha : a.platform = p)
    (htie : Function.Injective a.tie) :
    claimStatement a s.deliveries.rows = claimStatement a s'.deliveries.rows := by
  unfold claimStatement
  congr 1
  simp only [before_iff]
  refine insertionSort_eq_of_perm (fun _ _ => le_total _ _) (fun _ _ _ => le_trans)
    (fun d hd d' hd' hb hb' => ?_) (h.deliveries.perm_filter fun r hr => ?_)
  · have hrank : rank a d = rank a d' := le_antisymm hb hb'
    simp only [rank, toLex_inj, Prod.mk.injEq] at hrank
    rw [List.mem_filter] at hd hd'
    exact Table.key_inj hd.1 hd'.1 (htie hrank.2.2)
  · simp only [Bool.and_eq_true, decide_eq_true_eq] at hr
    exact hr.1.trans ha

omit [Runtime] in
/-- A code is found in both stores if it is one of the platform. -/
theorem Agree.code_eq (h : Agree p s s') (hash : String) :
    (s.pairingCodes.get hash).filter (·.platform = p) =
      (s'.pairingCodes.get hash).filter (·.platform = p) := by
  ext row
  simp only [Option.filter_eq_some_iff, decide_eq_true_eq, Table.get_eq_some]
  constructor
  · rintro ⟨⟨hm, hk⟩, hp⟩
    exact ⟨⟨(h.pairingCodes row hp).mp hm, hk⟩, hp⟩
  · rintro ⟨⟨hm, hk⟩, hp⟩
    exact ⟨⟨(h.pairingCodes row hp).mpr hm, hk⟩, hp⟩

omit [Runtime] in
theorem approve_check_filter (a : Approve) (row : Option PairingCode) (now : Time) :
    a.check row now = a.check (row.filter (·.platform = a.platform)) now := by
  cases row with
  | none => rfl
  | some row =>
    by_cases hp : row.platform = a.platform <;> simp [Approve.check, Option.filter, hp]

omit [Runtime] in
theorem bootstrap_check_filter (a : Bootstrap) (row : Option PairingCode) (now : Time) :
    a.check row now = a.check (row.filter (·.platform = a.platform)) now := by
  cases row with
  | none => rfl
  | some row =>
    by_cases hp : row.platform = a.platform <;> simp [Bootstrap.check, Option.filter, hp]

end Reading

/-! ### Requests in both stores -/

/-- Both transactions raise the same error, or both return the same and their stores agree. -/
inductive Matched {α : Type} (p : String) :
    Except Raised (Store × α) → Except Raised (Store × α) → Prop
  | error (e : Raised) : Matched p (.error e) (.error e)
  | ok {t t' : Store} (x : α) (h : Agree p t t') : Matched p (.ok (t, x)) (.ok (t', x))

section Matching

variable {p : String} {s s' : Store}

omit [Runtime] in
theorem Matched.transaction {α : Type} {r r' : Except Raised (Store × α)} (hm : Matched p r r')
    (h : Agree p s s') (answer : α → Answer) :
    (transaction s r answer).2 = (transaction s' r' answer).2 ∧
      Agree p (transaction s r answer).1 (transaction s' r' answer).1 := by
  cases hm with
  | error e => exact ⟨rfl, h⟩
  | ok x ht => exact ⟨rfl, ht⟩

theorem matched_setPermissions (h : Agree p s s') {a : SetPermissions} (ha : a.platform = p) :
    Matched p (Users.setPermissions s a) (Users.setPermissions s' a) := by
  subst ha
  by_cases hv : a.invalid ≠ [] ∨ a.permissions = []
  · unfold Users.setPermissions
    rw [if_pos hv, if_pos hv]
    exact .error _
  · rw [not_or, not_not] at hv
    by_cases ho : EffectiveAdmin s a.platform a.operatorOpenid
    · have hensured : Agree a.platform (ensureUser s a.platform a.openid).2
          (ensureUser s' a.platform a.openid).2 := by
        refine ⟨sameRows_ensureUser h.toSameRows _ _, ?_, ?_⟩
        · rw [ensureUser_snd s, ensureUser_snd s']
          exact h.eventTypes
        · rw [ensureUser_snd s, ensureUser_snd s']
          exact h.eventAliases
      have happlied : Agree a.platform (applyPermissions s a) (applyPermissions s' a) := by
        refine ⟨sameRows_applyPermissions h.toSameRows a, ?_, ?_⟩
        · rw [applyPermissions_eq, applyPermissions_eq]
          exact h.eventTypes
        · rw [applyPermissions_eq, applyPermissions_eq]
          exact h.eventAliases
      rw [setPermissions_eq hv.1 hv.2 ho,
        setPermissions_eq hv.1 hv.2 ((h.effectiveAdmin_iff _).mp ho),
        h.ensureUser_fst rfl, h.permission_eq, hensured.activeCommandAdminCount_eq,
        happlied.permissionSnapshot_eq]
      split_ifs
      · exact .error _
      · exact .ok _ happlied
    · unfold Users.setPermissions
      rw [if_neg (by simp [hv]), if_neg (by simp [hv]), ← h.requireAdmin_eq]
      cases hr : requireAdmin s a.platform a.operatorOpenid with
      | error e => exact .error e
      | ok u => exact absurd (requireAdmin_eq_ok.mp hr) ho

omit [Runtime] in
theorem matched_changeRole (h : Agree p s s') {a : ChangeRole} (ha : a.platform = p) :
    Matched p (Users.changeRole s a) (Users.changeRole s' a) := by
  subst ha
  unfold Users.changeRole
  cases hv : Role.ofString? a.role with
  | none => exact .error _
  | some role =>
    have happlied : Agree a.platform (applyRole s a role) (applyRole s' a role) :=
      ⟨sameRows_applyRole h.toSameRows a role, h.eventTypes, h.eventAliases⟩
    simp only [h.requireAdmin_eq, h.user_eq, h.permission_eq, h.activeCommandAdminCount_eq]
    cases requireAdmin s' a.platform a.operatorOpenid with
    | error e => exact .error e
    | ok u =>
      simp only [happlied.permissionSnapshot_eq]
      split_ifs
      · exact .error _
      · exact .ok _ happlied

/-- The code is, if it is stored, one of the platform `p`. -/
def OwnCode (p : String) (s : Store) (code : String) : Prop :=
  ∀ row ∈ s.pairingCodes, row.codeHash = pairingCodeHash code → row.platform = p

theorem matched_createPairingCode (h : Agree p s s') {now : Time} {openid code : String} {ttl : ℤ}
    (hc : OwnCode p s code) (hc' : OwnCode p s' code) :
    Matched p (Pairing.createPairingCode s now p openid code ttl)
      (Pairing.createPairingCode s' now p openid code ttl) := by
  have hinsert := h.pairingCodes.insert? (r :=
    { codeHash := pairingCodeHash code, platform := p, openid,
      expiresAt := now + minutes ttl }) hc hc'
  unfold Pairing.createPairingCode
  simp only
  rcases hinsert with ⟨hi, hi'⟩ | ⟨u, u', hi, hi', hu⟩
  · rw [hi, hi']
    exact .error _
  · rw [hi, hi']
    exact .ok _ { h with pairingCodes := hu }

theorem matched_approvePairingCode (h : Agree p s s') {now : Time} {a : Approve}
    (ha : a.platform = p) :
    Matched p (Pairing.approvePairingCode s now a) (Pairing.approvePairingCode s' now a) := by
  subst ha
  unfold Pairing.approvePairingCode
  rw [h.requireAdmin_eq, approve_check_filter, h.code_eq, ← approve_check_filter]
  cases requireAdmin s' a.platform a.operatorOpenid with
  | error e => exact .error e
  | ok u =>
    cases a.check (s'.pairingCodes.get (pairingCodeHash a.code)) now with
    | error e => exact .error e
    | ok row =>
      have hm := matched_setPermissions h (a := a.grant row) rfl
      simp only
      generalize Users.setPermissions s (a.grant row) = r at hm ⊢
      generalize Users.setPermissions s' (a.grant row) = r' at hm ⊢
      cases hm with
      | error e => exact .error e
      | ok x ht => exact .ok _ { ht with pairingCodes := ht.pairingCodes.put _ }

theorem matched_bootstrapFirstAdmin (h : Agree p s s') {now : Time} {a : Bootstrap}
    (ha : a.platform = p) :
    Matched p (Pairing.bootstrapFirstAdmin s now a) (Pairing.bootstrapFirstAdmin s' now a) := by
  subst ha
  unfold Pairing.bootstrapFirstAdmin
  rw [h.activeCommandAdminCount_eq, bootstrap_check_filter, h.code_eq, ← bootstrap_check_filter]
  split_ifs
  · exact .error _
  · exact .error _
  · cases a.check (s'.pairingCodes.get (pairingCodeHash a.normalizedCode)) now with
    | error e => exact .error e
    | ok row =>
      simp only [h.user_eq]
      split_ifs
      · exact .error _
      · have hrows := sameRows_promote h.toSameRows a row.openid
        have hstores : Agree a.platform
            { Bootstrap.promote s a row.openid with
              pairingCodes := s.pairingCodes.put (PairingCode.consume row "bootstrap" now)
              auditLogs := s.auditLogs ++ [a.audit row.openid] }
            { Bootstrap.promote s' a row.openid with
              pairingCodes := s'.pairingCodes.put (PairingCode.consume row "bootstrap" now)
              auditLogs := s'.auditLogs ++ [a.audit row.openid] } :=
          ⟨{ hrows with pairingCodes := h.pairingCodes.put _ }, h.eventTypes, h.eventAliases⟩
        have hsnapshot := hstores.permissionSnapshot_eq row.openid
        refine hsnapshot ▸ Matched.ok _ hstores

theorem matched_subscribe (h : Agree p s s') {a : Subscribe} (ha : a.platform = p) :
    Matched p (Subscriptions.subscribe s a) (Subscriptions.subscribe s' a) := by
  subst ha
  unfold Subscriptions.subscribe
  rw [h.activeCommand_eq, h.resolveEvent_eq]
  split_ifs
  · cases resolveEvent s' a.eventKey with
    | error e => exact .error e
    | ok event =>
      simp only
      cases requestedMatchKeys event a.matchKeys with
      | error e => exact .error e
      | ok requested =>
        simp only [h.subscription_eq]
        cases s'.subscriptions.get (a.platform, a.openid, event.eventKey) with
        | none => exact .ok _ { h with subscriptions := h.subscriptions.put _ }
        | some existing => exact .ok _ { h with subscriptions := h.subscriptions.put _ }
  · exact .error _

omit [Runtime] in
theorem matched_unsubscribe (h : Agree p s s') {a : Unsubscribe} (ha : a.platform = p) :
    Matched p (Subscriptions.unsubscribe s a) (Subscriptions.unsubscribe s' a) := by
  subst ha
  have hkey : canonicalKey s a.eventKey = canonicalKey s' a.eventKey := by
    unfold canonicalKey
    rw [h.resolveEvent_eq]
  unfold Subscriptions.unsubscribe
  rw [h.activeCommand_eq]
  split_ifs
  · simp only [hkey, h.subscription_eq]
    cases s'.subscriptions.get (a.platform, a.openid, canonicalKey s' a.eventKey) with
    | none => exact .ok _ h
    | some existing => exact .ok _ { h with subscriptions := h.subscriptions.erase _ }
  · exact .error _

theorem agree_claim (h : Agree p s s') {a : Claim} (ha : a.platform = p)
    (htie : Function.Injective a.tie) :
    (claim s.deliveries a).2 = (claim s'.deliveries a).2 ∧
      Agree p { s with deliveries := (claim s.deliveries a).1 }
        { s' with deliveries := (claim s'.deliveries a).1 } := by
  unfold Deliveries.Outbox.claim
  simp only [h.claimStatement_eq ha htie]
  exact ⟨trivial, { h with
    deliveries := h.deliveries.modifyIf a.lease_key a.lease_target fun _ hd => hd }⟩

end Matching

/-! ### Whole runs -/

/-- A request for the platform `p`: a code it creates is in the store for no other platform, and the
database has an order for the rows that a claim leaves tied. -/
structure Isolated (p : String) (s : Store) (r : Request) : Prop where
  platform : r.platform = p
  code : ∀ now platform openid code ttl,
    r = .createPairingCode now platform openid code ttl → OwnCode p s code
  tie : ∀ a, r = .claim a → Function.Injective a.tie

variable {p : String} {s s' : Store}

theorem agree_serve (h : Agree p s s') {r : Request} (hr : Isolated p s r) (hr' : Isolated p s' r) :
    (serve s r).2 = (serve s' r).2 ∧ Agree p (next s r) (next s' r) := by
  obtain ⟨hp, hcode, htie⟩ := hr
  cases r with
  | permissionSnapshot platform openid =>
    obtain rfl : platform = p := hp
    simp only [serve, next, h.permissionSnapshot_eq]
    exact ⟨trivial, h⟩
  | listSubscriptions platform openid =>
    obtain rfl : platform = p := hp
    simp only [serve, next, h.listSubscriptions_eq]
    exact ⟨trivial, h⟩
  | setPermissions a => exact (matched_setPermissions h hp).transaction h _
  | changeRole a => exact (matched_changeRole h hp).transaction h _
  | createPairingCode now platform openid code ttl =>
    obtain rfl : platform = p := hp
    exact (matched_createPairingCode h (hcode _ _ _ _ _ rfl)
      (hr'.code _ _ _ _ _ rfl)).transaction h _
  | approvePairingCode now a => exact (matched_approvePairingCode h hp).transaction h _
  | bootstrapFirstAdmin now a => exact (matched_bootstrapFirstAdmin h hp).transaction h _
  | subscribe a => exact (matched_subscribe h hp).transaction h _
  | unsubscribe a => exact (matched_unsubscribe h hp).transaction h _
  | claim a =>
    obtain ⟨hclaimed, hstores⟩ := agree_claim h hp (htie a rfl)
    simp only [serve, next, hclaimed]
    exact ⟨trivial, hstores⟩

omit [Runtime] in
theorem agreeOn_consume {t : PairingCodes} {hash : String} {row : PairingCode}
    (h : t.get hash = some row) (hp : row.platform = p) (approvedBy : String) (now : Time) :
    t.AgreeOn (fun r => r.platform ≠ p) (t.put (PairingCode.consume row approvedBy now)) := by
  refine Table.agreeOn_put (not_not.mpr hp) fun x hx hk => ?_
  rw [Table.key_inj hx (Table.mem_of_get h) hk]
  exact not_not.mpr hp

theorem agreeOn_claim (t : Deliveries) {a : Claim} (hp : a.platform = p) :
    t.AgreeOn (fun d => d.platform ≠ p) (claim t a).1 := by
  refine Table.agreeOn_modifyIf a.lease_key a.lease_target (fun _ hd => hd) fun d hd hsel => ?_
  obtain ⟨d', hd', hid⟩ := List.mem_map.mp (of_decide_eq_true hsel)
  obtain ⟨hmem, hplatform, -⟩ := Deliveries.Steps.mem_claimStatement hd'
  rw [← Table.key_inj hmem hd hid]
  exact not_not.mpr (hplatform.trans hp)

theorem sameRows_next {r : Request} (hr : r.platform = p) : SameRows (· ≠ p) s (next s r) := by
  have hrefl : SameRows (· ≠ p) s s := .refl s
  cases r with
  | permissionSnapshot platform openid => exact hrefl
  | listSubscriptions platform openid => exact hrefl
  | setPermissions a =>
    refine System.committed_cases hrefl fun x hx => ?_
    rw [(setPermissions_ok hx).2.2]
    exact sameRows_applyPermissions_other s (not_not.mpr hr)
  | changeRole a =>
    refine System.committed_cases hrefl fun x hx => ?_
    obtain ⟨role, -, -, hs⟩ := changeRole_ok hx
    rw [hs]
    exact sameRows_applyRole_other s (not_not.mpr hr) role
  | createPairingCode now platform openid code ttl =>
    refine System.committed_cases hrefl fun x hx => ?_
    obtain ⟨codes, hinsert, hs, -, hp, -⟩ := createPairingCode_ok hx
    rw [hs]
    exact { hrefl with
      pairingCodes := Table.agreeOn_of_insert? hinsert (not_not.mpr (hp.trans hr)) }
  | approvePairingCode now a =>
    refine System.committed_cases hrefl fun x hx => ?_
    obtain ⟨row, snapshot, hcheck, -, hs⟩ := approvePairingCode_ok hx
    obtain ⟨hrow, hp, -, -⟩ := approve_check_ok hcheck
    have hrows : SameRows (· ≠ p) s (applyPermissions s (a.grant row)) :=
      sameRows_applyPermissions_other s (not_not.mpr hr)
    rw [hs]
    exact { hrows with
      pairingCodes := agreeOn_consume hrow (hp.trans hr) _ now }
  | bootstrapFirstAdmin now a =>
    refine System.committed_cases hrefl fun x hx => ?_
    obtain ⟨row, hcheck, hs⟩ := bootstrapFirstAdmin_ok hx
    obtain ⟨hrow, hp, -, -⟩ := bootstrap_check_ok hcheck
    have hrows : SameRows (· ≠ p) s (Bootstrap.promote s a row.openid) :=
      sameRows_promote_other s (not_not.mpr hr) row.openid
    rw [hs]
    exact { hrows with
      pairingCodes := agreeOn_consume hrow (hp.trans hr) _ now }
  | subscribe a =>
    refine System.committed_cases hrefl fun x hx => ?_
    obtain ⟨event, requested, -, -, -, hs, hkey, -⟩ := System.subscribe_ok hx
    have hp : x.2.item.platform = p := (congrArg Prod.fst hkey).trans hr
    rw [hs]
    exact { hrefl with
      subscriptions := Table.agreeOn_put (not_not.mpr hp)
        fun row _ hk => not_not.mpr ((congrArg Prod.fst hk).trans hp) }
  | unsubscribe a =>
    refine System.committed_cases hrefl fun x hx => ?_
    rcases System.unsubscribe_ok hx with hs | ⟨eventKey, hs⟩
    · rw [hs]
      exact hrefl
    · rw [hs]
      exact { hrefl with
        subscriptions := Table.agreeOn_erase
          fun row _ hk => not_not.mpr ((congrArg Prod.fst hk).trans hr) }
  | claim a =>
    exact { hrefl with deliveries := agreeOn_claim s.deliveries hr }

/-- The codes of other platforms stay apart from those that are still to be created. -/
theorem Isolated.next {r r' : Request} (h : Isolated p s r) (hr' : r'.platform = p) :
    Isolated p (next s r') r where
  platform := h.platform
  code now platform openid code ttl he row hrow hk := by
    by_contra hne
    have hold : row ∈ s.pairingCodes := ((sameRows_next hr').pairingCodes row hne).mpr hrow
    exact hne (h.code now platform openid code ttl he row hold hk)
  tie := h.tie

/-- **Platforms are isolated.** Requests for the platform `p` are answered alike by two stores that
agree on `p` and on the catalog; afterwards the stores still agree, and neither has changed a row of
another platform. -/
theorem platform_isolation (h : Agree p s s') {rs : List Request}
    (hrs : ∀ r ∈ rs, Isolated p s r ∧ Isolated p s' r) :
    answers s rs = answers s' rs ∧ Agree p (run next s rs) (run next s' rs) ∧
      SameRows (· ≠ p) s (run next s rs) ∧ SameRows (· ≠ p) s' (run next s' rs) := by
  induction rs generalizing s s' with
  | nil => exact ⟨rfl, h, .refl s, .refl s'⟩
  | cons r rs ih =>
    obtain ⟨⟨hr, hr'⟩, htail⟩ := List.forall_mem_cons.mp hrs
    obtain ⟨hanswer, hnext⟩ := agree_serve h hr hr'
    obtain ⟨hanswers, hagree, hrows, hrows'⟩ := ih hnext fun r' hmem =>
      ⟨(htail r' hmem).1.next hr.platform, (htail r' hmem).2.next hr.platform⟩
    refine ⟨?_, hagree, (sameRows_next hr.platform).trans hrows,
      (sameRows_next hr.platform).trans hrows'⟩
    rw [answers, answers, hanswer, hanswers]

/-! ### A sample -/

omit [Runtime] in
/-- A store with a user of another platform, for whom a code has been created. -/
def sampleOther : Store where
  users := Table.empty.put { platform := "tg", openid := "bob" }
  pairingCodes := Table.empty.put
    { codeHash := "023b316f7e3ff40be7e87c1331fdd6ddea6f5831dd0f60ebb78d9c78946a2593",
      platform := "tg", openid := "bob", expiresAt := minutes 10 }

omit [Runtime] in
/-- An order of the ids. -/
def sampleTie (id : String) : ℕ := Encodable.encode (id.toList.map Char.toNat)

omit [Runtime] in
/-- `root` becomes the first administrator, and a worker asks for deliveries. -/
def sampleRequests : List Request :=
  [.createPairingCode 0 "qqbot" "root" "ABCDEFGH" 10,
    .bootstrapFirstAdmin (seconds 1) { code := "abcdefgh" },
    .permissionSnapshot "qqbot" "root",
    .claim
      { workerId := "w", platform := "qqbot", limit := 5, leaseSeconds := 30, now := seconds 2,
        tie := sampleTie, token := id }]

omit [Runtime] in
theorem sampleTie_injective : Function.Injective sampleTie := by
  refine Encodable.encode_injective.comp (Function.Injective.comp ?_ fun _ _ =>
    String.toList_inj.mp)
  exact List.map_injective_iff.mpr fun c c' h => Char.ext (UInt32.toNat_inj.mp h)

omit [Runtime] in
theorem agree_sampleOther : Agree "qqbot" {} sampleOther where
  users := Table.agreeOn_put (by decide) fun _ h => by cases h
  userPermissions := .refl _
  subscriptions := .refl _
  pairingCodes := Table.agreeOn_put (by decide) fun _ h => by cases h
  deliveries := .refl _
  eventTypes := rfl
  eventAliases := rfl

omit [Runtime] in
/-- The empty store and the other one answer alike. -/
theorem platform_isolation_sample :
    @answers .sample {} sampleRequests = @answers .sample sampleOther sampleRequests ∧
      Agree "qqbot" (run (@next .sample) {} sampleRequests)
        (run (@next .sample) sampleOther sampleRequests) ∧
      SameRows (· ≠ "qqbot") {} (run (@next .sample) {} sampleRequests) ∧
      SameRows (· ≠ "qqbot") sampleOther (run (@next .sample) sampleOther sampleRequests) := by
  let _ := Runtime.sample
  have hcode : OwnCode "qqbot" {} "ABCDEFGH" := fun _ h => by cases h
  have hcode' : OwnCode "qqbot" sampleOther "ABCDEFGH" := by
    intro row hrow hk
    have hall : ∀ row ∈ sampleOther.pairingCodes.rows,
        row.codeHash ≠ pairingCodeHash "ABCDEFGH" := by decide
    exact absurd hk (hall row hrow)
  have hisolated : ∀ s : Store, OwnCode "qqbot" s "ABCDEFGH" →
      ∀ r ∈ sampleRequests, Isolated "qqbot" s r := by
    intro s hs r hr
    refine ⟨?_, ?_, ?_⟩
    · revert r
      decide
    · rintro now platform openid code ttl rfl
      simp only [sampleRequests, List.mem_cons, Request.createPairingCode.injEq, reduceCtorEq,
        List.not_mem_nil, or_false] at hr
      rw [hr.2.2.2.1]
      exact hs
    · rintro a rfl
      simp only [sampleRequests, List.mem_cons, Request.claim.injEq, reduceCtorEq,
        List.not_mem_nil, or_false, false_or] at hr
      rw [hr]
      exact sampleTie_injective
  exact platform_isolation agree_sampleOther fun r hr =>
    ⟨hisolated _ hcode r hr, hisolated _ hcode' r hr⟩

end EventServer.Services.Isolation
