import EventServer.Services.CodeRaces

/-! # Concurrent runs of the first-administrator bootstrap

`bootstrap_first_admin_with_engine` on MySQL. A run has a connection of its own: it asks for the
named lock, counts the administrators, locks and checks the code, flushes what it writes, commits,
and releases the named lock. Any statement can raise, on a connection that stays usable or because
the connection is lost; the server then ends the transaction and frees the locks of the connection.
A transaction is stored as a whole by a `COMMIT` that does not raise; a rollback does not raise on a
usable connection.

At most one run succeeds on a platform and no other changes anything. The named lock is free when a
run returns, unless the commit right after the lock was granted has raised on a usable connection:
that commit precedes the `try` whose `finally` releases the lock (`first_admin_once`). -/

namespace EventServer.Services.BootstrapRaces

open EventServer.Db EventServer.Lib EventServer.Python EventServer.System
open EventServer.Services.Users EventServer.Services.Pairing EventServer.Services.Accounts
open EventServer.Services.CodeRaces (KeepsCodes)

variable [Runtime]

/-! ### What is written -/

/-- The rows of a flush. -/
structure Writes where
  user : User
  permissions : List UserPermission
  code : PairingCode
  audit : AuditLog

omit [Runtime] in
/-- The store after the commit of the flushed rows. -/
def Writes.apply (w : Writes) (s : Store) : Store :=
  { s with
    users := s.users.put w.user
    userPermissions := w.permissions.foldl (fun t r => t.put r) s.userPermissions
    pairingCodes := s.pairingCodes.put w.code
    auditLogs := s.auditLogs ++ [w.audit] }

omit [Runtime] in
/-- `bootstrap_first_admin` from the locked code `row` to its last flush. -/
def flush (s : Store) (a : Bootstrap) (row : PairingCode) (now : Time) : Except Raised Writes :=
  if (s.users.get (a.platform, row.openid)).map (·.accountStatus) = some .blocked then
    .error (.firstAdminBootstrapError "the pairing target is blocked")
  else .ok
    { user := { (ensureUser s a.platform row.openid).1 with
                accountStatus := .active, role := .admin }
      permissions := [PermissionKey.chat, PermissionKey.command].map fun key =>
        a.permission row.openid key (s.userPermissions.get (a.platform, row.openid, key))
      code := PairingCode.consume row "bootstrap" now
      audit := a.audit row.openid }

/-! ### The runs -/

/-- Why a run has failed: `FirstAdminBootstrapBusyError`, what the service raised, or a
statement. -/
inductive Failure where
  | busy
  | service (e : Raised)
  | sqlAlchemyError

abbrev Outcome := Except Failure PermissionSnapshot

/-- The committed rows, which run holds the named lock, which run has locked which code, the
clock. -/
structure Db (ι : Type) where
  store : Store
  named : Option ι
  locks : String → Option ι
  now : Time

/-- Where a run stands. -/
inductive Local where
  | start
  /-- `GET_LOCK` has returned 1. -/
  | granted
  /-- `GET_LOCK` has returned something else. -/
  | denied
  /-- Inside the `try`. -/
  | acquired
  | counted
  | locked (row : PairingCode) (now : Time)
  | flushed (w : Writes) (snapshot : PermissionSnapshot)
  /-- The transaction has ended, the `finally` comes next. -/
  | ended (o : Outcome)
  /-- `RELEASE_LOCK` has returned. -/
  | released (o : Outcome)
  | returned (o : Outcome)

/-- How a statement ends. -/
inductive Choice where
  | go
  | timeout
  | raise
  | disconnect

/-- Time passes, or other requests change the store. -/
inductive Env where
  | tick (d : ℕ)
  | others (s : Store)

omit [Runtime] in
instance (s s' : Store) : Decidable (SameAccounts s s') :=
  decidable_of_iff (s'.users.rows = s.users.rows ∧ s'.userPermissions.rows = s.userPermissions.rows)
    ⟨fun h => ⟨Table.ext_rows h.1, Table.ext_rows h.2⟩,
      fun h => ⟨congrArg Table.rows h.users, congrArg Table.rows h.userPermissions⟩⟩

omit [Runtime] in
/-- What an exception leads to: before the `try` it leaves the function, inside it ends the
transaction, and `_release_lock` does not let it through. -/
def Local.raised : Local → Local
  | .start | .granted | .denied => .returned (.error .sqlAlchemyError)
  | .acquired | .counted | .locked _ _ | .flushed _ _ => .ended (.error .sqlAlchemyError)
  | .ended o | .released o | .returned o => .returned o

variable {ι : Type} [DecidableEq ι]

omit [Runtime] in
/-- The transaction of run `i` has ended. -/
def Db.unlock (db : Db ι) (i : ι) : Db ι := { db with locks := releaseRows db.locks i }

omit [Runtime] in
/-- `RELEASE_LOCK` of run `i`. -/
def Db.release (db : Db ι) (i : ι) : Db ι :=
  { db with named := if db.named = some i then none else db.named }

omit [Runtime] in
/-- The connection of run `i` is gone. -/
def Db.disconnect (db : Db ι) (i : ι) : Db ι := (db.unlock i).release i

/-- The statements of a run, if they do not raise. -/
def execute (a : Bootstrap) (i : ι) (db : Db ι) : Local → Option (Db ι × Local)
  | .start => if db.named = none then some ({ db with named := some i }, .granted) else none
  | .granted => some (db, .acquired)
  | .denied => some (db, .returned (.error .busy))
  | .acquired =>
    if activeCommandAdminCount db.store a.platform ≠ 0 then
      some (db.unlock i, .ended (.error (.service
        (.firstAdminBootstrapError "an active administrator already exists"))))
    else if a.normalizedCode.length ≠ 8 ∨ a.normalizedCode.toList.any (· ∉ alphabet) then
      some (db.unlock i, .ended (.error (.service invalidCode)))
    else some (db, .counted)
  | .counted =>
    if db.locks (pairingCodeHash a.normalizedCode) = none then
      match a.check (db.store.pairingCodes.get (pairingCodeHash a.normalizedCode)) db.now with
      | .error e => some (db.unlock i, .ended (.error (.service e)))
      | .ok row =>
        some ({ db with locks := lockRows db.locks i [row.codeHash] }, .locked row db.now)
    else none
  | .locked row now =>
    match flush db.store a row now with
    | .error e => some (db.unlock i, .ended (.error (.service e)))
    | .ok w => some (db, .flushed w (permissionSnapshot (w.apply db.store) a.platform row.openid))
  | .flushed w snapshot =>
    some ({ db.unlock i with store := w.apply db.store }, .ended (.ok snapshot))
  | .ended o => some (db.release i, .released o)
  | .released o => some (db, .returned o)
  | .returned _ => none

/-- The moves of run `i`. -/
def move (req : ι → Bootstrap) (i : ι) : Choice → Db ι → Local → Option (Db ι × Local)
  | _, _, .returned _ => none
  | .go, db, l => execute (req i) i db l
  | .timeout, db, .start => some (db, .denied)
  | .timeout, _, _ => none
  -- `connection.invalidate()`
  | .raise, db, .ended o => some (db.disconnect i, .returned o)
  | .raise, db, .released o => some (db.disconnect i, .returned o)
  | .raise, db, l => some (db.unlock i, l.raised)
  | .disconnect, db, l => some (db.disconnect i, l.raised)

/-- Any number of runs, next to requests that change neither accounts nor stored codes. -/
def system (req : ι → Bootstrap) : Sys ι Choice Env (Db ι) Local where
  move := move req
  env
    | .tick d, db => some { db with now := db.now + d }
    | .others s, db =>
      if SameAccounts db.store s ∧ KeepsCodes db.store s then some { db with store := s } else none

/-! ### What a run writes -/

section Writes

omit [Runtime] [DecidableEq ι]

variable {s s' : Store} {a : Bootstrap} {row : PairingCode} {now : Time} {w : Writes}

theorem apply_flush (h : flush s a row now = .ok w) : w.apply s =
    { Bootstrap.promote s a row.openid with
      pairingCodes := s.pairingCodes.put (PairingCode.consume row "bootstrap" now)
      auditLogs := s.auditLogs ++ [a.audit row.openid] } := by
  unfold flush at h
  split_ifs at h
  cases h
  -- the `command` row is read before the `chat` row is written, which does not touch it
  have hcommand : (s.userPermissions.put (a.permission row.openid .chat
      (s.userPermissions.get (a.platform, row.openid, .chat)))).get
        (a.platform, row.openid, .command) =
      s.userPermissions.get (a.platform, row.openid, .command) := by
    rw [Table.get_put, permission_key]
    simp
  unfold Writes.apply Bootstrap.promote
  simp only [List.map_cons, List.map_nil, List.foldl_cons, List.foldl_nil, hcommand]

theorem effectiveAdmin_apply (h : flush s a row now = .ok w) {p o : String} :
    EffectiveAdmin (w.apply s) p o ↔ (p = a.platform ∧ o = row.openid) ∨ EffectiveAdmin s p o := by
  have hsame : EffectiveAdmin (w.apply s) p o ↔
      EffectiveAdmin (Bootstrap.promote s a row.openid) p o := by
    rw [apply_flush h]
    exact Iff.rfl
  rw [hsame]
  unfold EffectiveAdmin
  rw [activeAdmin_promote, hasCommand_promote, or_and_left]

theorem count_apply (h : flush s a row now = .ok w) {p : String} :
    activeCommandAdminCount (w.apply s) p ≠ 0 ↔
      p = a.platform ∨ activeCommandAdminCount s p ≠ 0 := by
  rw [ne_eq, ne_eq, count_eq_zero, count_eq_zero, not_forall_not, not_forall_not]
  simp only [effectiveAdmin_apply h, exists_or, exists_and_left, exists_eq, and_true]

theorem count_of_sameAccounts (h : SameAccounts s s') (p : String) :
    activeCommandAdminCount s' p = activeCommandAdminCount s p := by
  unfold activeCommandAdminCount
  rw [h.users, h.userPermissions]

theorem flush_of_sameAccounts (h : SameAccounts s s') : flush s' a row now = flush s a row now := by
  unfold flush
  rw [ensureUser_fst, ensureUser_fst, h.users, h.userPermissions]

theorem get_code_apply (h : flush s a row now = .ok w) {k : String} (hk : k ≠ row.codeHash) :
    (w.apply s).pairingCodes.get k = s.pairingCodes.get k := by
  rw [apply_flush h]
  have hkey : PairingCode.codeHash (PairingCode.consume row "bootstrap" now) = row.codeHash := rfl
  show (s.pairingCodes.put _).get k = _
  rw [Table.get_put, hkey, if_neg hk]

theorem get_user_apply (h : flush s a row now = .ok w) {p o : String} (hp : p ≠ a.platform) :
    (w.apply s).users.get (p, o) = s.users.get (p, o) := by
  rw [apply_flush h]
  show (Bootstrap.promote s a row.openid).users.get (p, o) = _
  rw [get_promote, if_neg]
  simp [hp]

theorem get_permission_apply (h : flush s a row now = .ok w) {p o : String} {key : PermissionKey}
    (hp : p ≠ a.platform) :
    (w.apply s).userPermissions.get (p, o, key) = s.userPermissions.get (p, o, key) := by
  rw [apply_flush h]
  show (Bootstrap.promote s a row.openid).userPermissions.get (p, o, key) = _
  unfold Bootstrap.promote
  simp only [List.foldl_cons, List.foldl_nil, Table.get_put, permission_key, Prod.mk.injEq,
    reduceCtorEq, and_false, if_false, hp, false_and]

end Writes

/-! ### One at a time -/

omit [Runtime] in
/-- The outcome `o` and the stored rows are those of a call of the service. -/
structure Answers (db db' : Db ι) (o : Outcome) (r : Except Raised (Store × PermissionSnapshot)) :
    Prop where
  ok : ∀ x, r = .ok x → db'.store = x.1 ∧ o = .ok x.2
  error : ∀ e, r = .error e → db'.store = db.store ∧ o = .error (.service e)
  unlocked : db'.named = none

theorem solo_ended (req : ι → Bootstrap) {i : ι} (db : Db ι) (h : db.named = some i) (o : Outcome) :
    (system req).solo i db (.ended o) [.go, .go] = some ({ db with named := none },
      .returned o) := by
  simp [Sys.solo, system, move, execute, Db.release, h]

theorem answers_error {req : ι → Bootstrap} {i : ι} (db db₁ : Db ι)
    (hs : db₁.store = db.store) {e : Raised}
    (h : bootstrapFirstAdmin db.store db.now (req i) = .error e) :
    Answers db { db₁.unlock i with named := none } (.error (.service e))
      (bootstrapFirstAdmin db.store db.now (req i)) := by
  rw [h]
  refine ⟨?_, ?_, rfl⟩
  · intro x hx
    cases hx
  · intro e' he
    cases he
    exact ⟨hs, rfl⟩

theorem solo_counted (req : ι → Bootstrap) (i : ι) (db : Db ι) (hnamed : db.named = some i)
    (hlocks : ∀ k, db.locks k = none)
    (hcount : ¬ activeCommandAdminCount db.store (req i).platform ≠ 0)
    (hcode : ¬ ((req i).normalizedCode.length ≠ 8 ∨
      (req i).normalizedCode.toList.any (· ∉ alphabet))) :
    ∃ chs db' o, (system req).solo i db .counted chs = some (db', .returned o) ∧
      Answers db db' o (bootstrapFirstAdmin db.store db.now (req i)) := by
  have hmove : (system req).move i .go db .counted = execute (req i) i db .counted := rfl
  cases hcheck : (req i).check
      (db.store.pairingCodes.get (pairingCodeHash (req i).normalizedCode)) db.now with
  | error e =>
    have hr : bootstrapFirstAdmin db.store db.now (req i) = .error e := by
      simp only [bootstrapFirstAdmin, if_neg hcount, if_neg hcode, hcheck]
    refine ⟨.go :: [.go, .go], { db.unlock i with named := none }, .error (.service e), ?_, ?_⟩
    · simp only [Sys.solo, hmove, execute, hlocks, if_true, hcheck, Option.bind_some]
      exact solo_ended req (db.unlock i) hnamed _
    · exact answers_error db db rfl hr
  | ok row =>
    let locked : Db ι := { db with locks := lockRows db.locks i [row.codeHash] }
    have hlocked : ∀ chs, (system req).solo i db .counted (.go :: chs) =
        (system req).solo i locked (.locked row db.now) chs := by
      intro chs
      simp only [Sys.solo, hmove, execute, hlocks, if_true, hcheck, Option.bind_some, locked]
    have hmove' : (system req).move i .go locked (.locked row db.now) =
      execute (req i) i locked (.locked row db.now) := rfl
    by_cases hblocked :
        (db.store.users.get ((req i).platform, row.openid)).map (·.accountStatus) = some .blocked
    · have hflush : flush locked.store (req i) row db.now =
          .error (.firstAdminBootstrapError "the pairing target is blocked") := if_pos hblocked
      have hr : bootstrapFirstAdmin db.store db.now (req i) =
          .error (.firstAdminBootstrapError "the pairing target is blocked") := by
        simp only [bootstrapFirstAdmin, if_neg hcount, if_neg hcode, hcheck, if_pos hblocked]
      refine ⟨.go :: .go :: [.go, .go], { locked.unlock i with named := none }, .error (.service
        (.firstAdminBootstrapError "the pairing target is blocked")), ?_, ?_⟩
      · rw [hlocked, Sys.solo, hmove', execute, hflush]
        exact solo_ended req (locked.unlock i) hnamed _
      · exact answers_error db locked rfl hr
    · obtain ⟨w, hflush⟩ : ∃ w, flush locked.store (req i) row db.now = .ok w :=
        ⟨_, if_neg hblocked⟩
      have hr : bootstrapFirstAdmin db.store db.now (req i) = .ok (w.apply db.store,
          permissionSnapshot (w.apply db.store) (req i).platform row.openid) := by
        rw [apply_flush hflush]
        simp only [bootstrapFirstAdmin, if_neg hcount, if_neg hcode, hcheck, if_neg hblocked]
        rfl
      refine ⟨.go :: .go :: .go :: [.go, .go],
        { locked.unlock i with store := w.apply db.store, named := none },
        .ok (permissionSnapshot (w.apply db.store) (req i).platform row.openid), ?_, ?_⟩
      · rw [hlocked, Sys.solo, hmove', execute, hflush]
        exact solo_ended req { locked.unlock i with store := w.apply db.store } hnamed _
      · rw [hr]
        refine ⟨?_, ?_, rfl⟩
        · intro x hx
          cases hx
          exact ⟨rfl, rfl⟩
        · intro e he
          cases he

/-- **A run that meets no other is the call of the service.** -/
theorem bootstrap_alone (req : ι → Bootstrap) (i : ι) (db : Db ι) (hnamed : db.named = none)
    (hlocks : ∀ k, db.locks k = none) :
    ∃ chs db' o, (system req).solo i db .start chs = some (db', .returned o) ∧
      Answers db db' o (bootstrapFirstAdmin db.store db.now (req i)) := by
  let held : Db ι := { db with named := some i }
  have hstart : ∀ chs, (system req).solo i db .start (.go :: .go :: chs) =
      (system req).solo i held .acquired chs := by
    intro chs
    simp [Sys.solo, system, move, execute, hnamed, held]
  have hmove : (system req).move i .go held .acquired = execute (req i) i held .acquired := rfl
  by_cases hcount : activeCommandAdminCount db.store (req i).platform ≠ 0
  · refine ⟨.go :: .go :: .go :: [.go, .go], { held.unlock i with named := none }, .error (.service
      (.firstAdminBootstrapError "an active administrator already exists")), ?_, ?_⟩
    · rw [hstart, Sys.solo, hmove, execute, if_pos hcount, Option.bind_some]
      exact solo_ended req (held.unlock i) rfl _
    · exact answers_error db held rfl (if_pos hcount)
  by_cases hcode : (req i).normalizedCode.length ≠ 8 ∨
      (req i).normalizedCode.toList.any (· ∉ alphabet)
  · refine ⟨.go :: .go :: .go :: [.go, .go], { held.unlock i with named := none },
      .error (.service invalidCode), ?_, ?_⟩
    · rw [hstart, Sys.solo, hmove, execute, if_neg hcount, if_pos hcode, Option.bind_some]
      exact solo_ended req (held.unlock i) rfl _
    · exact answers_error db held rfl (by rw [bootstrapFirstAdmin, if_neg hcount, if_pos hcode])
  obtain ⟨chs, db', o, hsolo, ha⟩ := solo_counted req i held rfl hlocks hcount hcode
  refine ⟨.go :: .go :: .go :: chs, db', o, ?_, ⟨ha.ok, ha.error, ha.unlocked⟩⟩
  rw [hstart, Sys.solo, hmove, execute, if_neg hcount, if_neg hcode, Option.bind_some]
  exact hsolo

/-! ### What a run relies on -/

omit [Runtime] [DecidableEq ι] in
/-- The run has succeeded: its transaction is committed. -/
def Local.succeeded : Local → Bool
  | .ended o | .released o | .returned o => o.isOk
  | _ => false

omit [Runtime] [DecidableEq ι] in
/-- The transaction of the run is open, or about to begin. -/
def Local.inside : Local → Bool
  | .acquired | .counted | .locked _ _ | .flushed _ _ => true
  | _ => false

omit [DecidableEq ι] in
/-- Run `i` has locked its code `row`. -/
structure HoldsCode (a : Bootstrap) (i : ι) (db : Db ι) (row : PairingCode) : Prop where
  codeHash : row.codeHash = pairingCodeHash a.normalizedCode
  locked : db.locks row.codeHash = some i
  stored : db.store.pairingCodes.get row.codeHash = some row

omit [DecidableEq ι] in
/-- What run `i` can rely on: it holds the named lock, and what it has found still holds. -/
def Holds (a : Bootstrap) (i : ι) (db : Db ι) : Local → Prop
  | .start | .denied | .released _ => db.named ≠ some i
  | .granted | .acquired => db.named = some i
  | .counted => db.named = some i ∧ activeCommandAdminCount db.store a.platform = 0
  | .locked row _ => db.named = some i ∧ activeCommandAdminCount db.store a.platform = 0 ∧
      HoldsCode a i db row
  | .flushed w _ => db.named = some i ∧ activeCommandAdminCount db.store a.platform = 0 ∧
      ∃ row now, HoldsCode a i db row ∧ flush db.store a row now = .ok w
  | .ended _ | .returned _ => True

/-- The ways a run can move. -/
inductive Moved (a : Bootstrap) (i : ι) (db : Db ι) : Choice → Local → Db ι → Local → Prop
  | acquire (hfree : db.named = none) :
    Moved a i db .go .start { db with named := some i } .granted
  | deny : Moved a i db .timeout .start db .denied
  | enter : Moved a i db .go .granted db .acquired
  | busy : Moved a i db .go .denied db (.returned (.error .busy))
  | count (hcount : activeCommandAdminCount db.store a.platform = 0) :
    Moved a i db .go .acquired db .counted
  | lock (row : PairingCode) (hfree : db.locks row.codeHash = none)
    (hk : row.codeHash = pairingCodeHash a.normalizedCode)
    (hrow : db.store.pairingCodes.get row.codeHash = some row) :
    Moved a i db .go .counted { db with locks := lockRows db.locks i [row.codeHash] }
      (.locked row db.now)
  | flush (row : PairingCode) (now : Time) (w : Writes) (hw : flush db.store a row now = .ok w) :
    Moved a i db .go (.locked row now) db
      (.flushed w (permissionSnapshot (w.apply db.store) a.platform row.openid))
  | commit (w : Writes) (snapshot : PermissionSnapshot) :
    Moved a i db .go (.flushed w snapshot) { db.unlock i with store := w.apply db.store }
      (.ended (.ok snapshot))
  | fail (ch : Choice) (l : Local) (e : Failure) (hl : l.inside = true) :
    Moved a i db ch l (db.unlock i) (.ended (.error e))
  | release (o : Outcome) : Moved a i db .go (.ended o) (db.release i) (.released o)
  | finish (o : Outcome) : Moved a i db .go (.released o) db (.returned o)
  | leave (l : Local) (hl : l = .start ∨ l = .granted ∨ l = .denied) :
    Moved a i db .raise l (db.unlock i) (.returned (.error .sqlAlchemyError))
  | invalidate (l : Local) (o : Outcome) (hl : l = .ended o ∨ l = .released o) :
    Moved a i db .raise l (db.disconnect i) (.returned o)
  | lost (l : Local) : Moved a i db .disconnect l (db.disconnect i) l.raised

theorem move_cases {req : ι → Bootstrap} {i : ι} {ch : Choice} {db db' : Db ι} {l l' : Local}
    (h : move req i ch db l = some (db', l')) : Moved (req i) i db ch l db' l' := by
  cases ch with
  | go =>
    cases l with
    | start =>
      simp only [move, execute] at h
      split_ifs at h with hfree
      cases h
      exact .acquire hfree
    | granted => cases h; exact .enter
    | denied => cases h; exact .busy
    | acquired =>
      simp only [move, execute] at h
      split_ifs at h with hcount hcode
      · cases h; exact .fail _ _ _ rfl
      · cases h; exact .fail _ _ _ rfl
      · cases h; exact .count (not_not.mp hcount)
    | counted =>
      simp only [move, execute] at h
      split_ifs at h with hfree
      cases hc : (req i).check (db.store.pairingCodes.get (pairingCodeHash (req i).normalizedCode))
          db.now with
      | error e => simp only [hc] at h; cases h; exact .fail _ _ _ rfl
      | ok row =>
        simp only [hc] at h
        cases h
        have hrow := (bootstrap_check_ok hc).1
        have hk : row.codeHash = _ := Table.key_of_get hrow
        exact .lock row (by rw [hk]; exact hfree) hk (by rw [hk]; exact hrow)
    | locked row now =>
      simp only [move, execute] at h
      cases hw : flush db.store (req i) row now with
      | error e => simp only [hw] at h; cases h; exact .fail _ _ _ rfl
      | ok w => simp only [hw] at h; cases h; exact .flush row now w hw
    | flushed w snapshot => cases h; exact .commit w snapshot
    | ended o => cases h; exact .release o
    | released o => cases h; exact .finish o
    | returned o => cases h
  | timeout =>
    cases l with
    | start => cases h; exact .deny
    | granted | denied | acquired | counted | locked | flushed | ended | released | returned =>
      cases h
  | raise =>
    cases l with
    | start => cases h; exact .leave _ (Or.inl rfl)
    | granted => cases h; exact .leave _ (Or.inr (Or.inl rfl))
    | denied => cases h; exact .leave _ (Or.inr (Or.inr rfl))
    | acquired | counted | locked | flushed => cases h; exact .fail _ _ _ rfl
    | ended o => cases h; exact .invalidate _ o (Or.inl rfl)
    | released o => cases h; exact .invalidate _ o (Or.inr rfl)
    | returned o => cases h
  | disconnect =>
    cases l with
    | returned o => cases h
    | start | granted | denied | acquired | counted | locked | flushed | ended | released =>
      cases h; exact .lost _

section Moves

variable {a b : Bootstrap} {i j : ι} {db db' : Db ι} {ch : Choice} {l l' : Local}

omit [Runtime] [DecidableEq ι] in
theorem succeeded_raised (l : Local) : l.raised.succeeded = l.succeeded := by
  cases l <;> rfl

omit [Runtime] [DecidableEq ι] in
theorem not_succeeded_of_inside (h : l.inside = true) : l.succeeded = false := by
  cases l with
  | acquired | counted | locked | flushed => rfl
  | start | granted | denied | ended | released | returned => cases h

omit [Runtime] in
theorem named_release (hj : j ≠ i) : (db.release i).named = some j ↔ db.named = some j := by
  unfold Db.release
  split_ifs with h
  · rw [h]
    simp [hj.symm]
  · exact Iff.rfl

omit [Runtime] in
theorem named_release_own : (db.release i).named ≠ some i := by
  unfold Db.release
  split_ifs with h
  · simp
  · exact h

/-- What a step of run `i` does to the database: it stores something only when it commits, which is
when it succeeds, and it leaves the locks of the others alone. -/
structure Frame (i : ι) (db : Db ι) (l : Local) (db' : Db ι) (l' : Local) : Prop where
  store : (db'.store = db.store ∧ l'.succeeded = l.succeeded) ∨ ∃ w snapshot,
    db'.store = w.apply db.store ∧ l = .flushed w snapshot ∧ l' = .ended (.ok snapshot)
  named : ∀ j, j ≠ i → (db'.named = some j ↔ db.named = some j)
  locks : ∀ j, j ≠ i → ∀ k, db.locks k = some j → db'.locks k = some j

theorem frame (h : Moved a i db ch l db' l') : Frame i db l db' l' := by
  have hunlock : ∀ j, j ≠ i → ∀ k, db.locks k = some j → releaseRows db.locks i k = some j :=
    fun j hj k hk => releaseRows_other hk hj
  have hnamed : ∀ j, j ≠ i → ((db.release i).named = some j ↔ db.named = some j) :=
    fun j hj => named_release hj
  cases h with
  | acquire hfree =>
    refine ⟨Or.inl ⟨rfl, rfl⟩, fun j hj => ?_, fun _ _ _ hk => hk⟩
    rw [hfree]
    simp [hj.symm]
  | lock row hfree hk hrow =>
    refine ⟨Or.inl ⟨rfl, rfl⟩, fun _ _ => Iff.rfl, fun j hj k hlock => lockRows_other ?_ hlock⟩
    simpa using hfree
  | commit w snapshot =>
    exact ⟨Or.inr ⟨w, snapshot, rfl, rfl, rfl⟩, fun _ _ => Iff.rfl, hunlock⟩
  | fail ch l e hl =>
    exact ⟨Or.inl ⟨rfl, (not_succeeded_of_inside hl).symm⟩, fun _ _ => Iff.rfl, hunlock⟩
  | leave l hl =>
    refine ⟨Or.inl ⟨rfl, ?_⟩, fun _ _ => Iff.rfl, hunlock⟩
    rcases hl with rfl | rfl | rfl <;> rfl
  | invalidate l o hl =>
    refine ⟨Or.inl ⟨rfl, ?_⟩, hnamed, hunlock⟩
    rcases hl with rfl | rfl <;> rfl
  | lost l => exact ⟨Or.inl ⟨rfl, succeeded_raised l⟩, hnamed, hunlock⟩
  | release o => exact ⟨Or.inl ⟨rfl, rfl⟩, hnamed, fun _ _ _ hk => hk⟩
  | deny | enter | busy | count | flush | finish =>
    exact ⟨Or.inl ⟨rfl, rfl⟩, fun _ _ => Iff.rfl, fun _ _ _ hk => hk⟩

theorem holds_own (h : Moved a i db ch l db' l') (hl : Holds a i db l) : Holds a i db' l' := by
  cases h with
  | acquire hfree => exact rfl
  | deny => exact hl
  | enter => exact hl
  | busy | commit | fail | leave | invalidate | finish => trivial
  | count hcount => exact ⟨hl, hcount⟩
  | lock row hfree hk hrow =>
    exact ⟨hl.1, hl.2, hk, lockRows_of_mem List.mem_cons_self, hrow⟩
  | flush row now w hw => exact ⟨hl.1, hl.2.1, row, now, hl.2.2, hw⟩
  | release o => exact named_release_own
  | lost l =>
    cases l with
    | start | granted | denied | acquired | counted | locked | flushed | ended
    | released | returned =>
      trivial

/-- A run that returns does not hold the named lock, unless its commit of the grant has raised. -/
theorem returned_own {o : Outcome} (h : Moved a i db ch l db' (.returned o)) (hl : Holds a i db l)
    (hC : ch = .raise → l ≠ .granted) : db'.named ≠ some i := by
  generalize hl' : Local.returned o = l' at h
  cases h with
  | busy => exact hl
  | finish => exact hl
  | invalidate | lost => exact named_release_own
  | leave l hl'' =>
    rcases hl'' with rfl | rfl | rfl
    · exact hl
    · exact absurd rfl (hC rfl)
    · exact hl
  | acquire | deny | enter | count | lock | flush | commit | fail | release => cases hl'

omit [DecidableEq ι] in
/-- A run that commits holds the named lock, has counted no administrator and promotes the user of
its code. -/
structure Commits (a : Bootstrap) (i : ι) (db db' : Db ι) : Prop where
  named : db.named = some i
  count : activeCommandAdminCount db.store a.platform = 0
  writes : ∃ row now w, row.codeHash = pairingCodeHash a.normalizedCode ∧
    flush db.store a row now = .ok w ∧ db'.store = w.apply db.store

omit [DecidableEq ι] in
theorem store_cases (hframe : Frame i db l db' l') (hl : Holds a i db l) :
    (db'.store = db.store ∧ l'.succeeded = l.succeeded) ∨
      (l.succeeded = false ∧ l'.succeeded = true ∧ Commits a i db db') := by
  rcases hframe.store with hs | ⟨w, snapshot, hs, rfl, rfl⟩
  · exact Or.inl hs
  · obtain ⟨hn, hc, row, now, hrow, hw⟩ := hl
    exact Or.inr ⟨rfl, rfl, hn, hc, row, now, w, hrow.codeHash, hw, hs⟩

omit [DecidableEq ι] in
/-- While run `j` holds the named lock nothing is stored by others. -/
theorem store_of_named (hframe : Frame i db l db' l') (hl : Holds a i db l) (hj : j ≠ i)
    (hn : db.named = some j) : db'.store = db.store := by
  rcases store_cases hframe hl with ⟨hs, -⟩ | ⟨-, -, hc⟩
  · exact hs
  · have hown := hc.named
    rw [hn, Option.some_inj] at hown
    exact absurd hown hj

theorem holds_others (h : Moved a i db ch l db' l') (hl : Holds a i db l) (hj : j ≠ i) {lj : Local}
    (hlj : Holds b j db lj) : Holds b j db' lj := by
  have hframe := frame h
  have hnamed := hframe.named j hj
  have hcode : ∀ row, db.named = some j → HoldsCode b j db row → HoldsCode b j db' row := by
    rintro row hn ⟨hk, hlock, hrow⟩
    refine ⟨hk, hframe.locks j hj _ hlock, ?_⟩
    rw [store_of_named hframe hl hj hn]
    exact hrow
  cases lj with
  | start | denied | released => exact fun hn => hlj (hnamed.mp hn)
  | granted | acquired => exact hnamed.mpr hlj
  | counted =>
    refine ⟨hnamed.mpr hlj.1, ?_⟩
    rw [store_of_named hframe hl hj hlj.1]
    exact hlj.2
  | locked row now =>
    refine ⟨hnamed.mpr hlj.1, ?_, hcode row hlj.1 hlj.2.2⟩
    rw [store_of_named hframe hl hj hlj.1]
    exact hlj.2.1
  | flushed w snapshot =>
    obtain ⟨hn, hcount, row, now, hrow, hw⟩ := hlj
    have hstore := store_of_named hframe hl hj hn
    exact ⟨hnamed.mpr hn, by rw [hstore]; exact hcount, row, now, hcode row hn hrow,
      by rw [hstore]; exact hw⟩
  | ended | returned => trivial

omit [DecidableEq ι] in
theorem holds_env (ha : SameAccounts db.store db'.store) (hs : KeepsCodes db.store db'.store)
    (hnamed : db'.named = db.named) (hlocks : db'.locks = db.locks) {lj : Local}
    (hlj : Holds b j db lj) : Holds b j db' lj := by
  have hcount : activeCommandAdminCount db'.store b.platform =
      activeCommandAdminCount db.store b.platform := count_of_sameAccounts ha b.platform
  have hcode : ∀ row, HoldsCode b j db row → HoldsCode b j db' row := by
    rintro row ⟨hk, hlock, hrow⟩
    exact ⟨hk, by rw [hlocks]; exact hlock, hs row (Table.mem_of_get hrow)⟩
  cases lj with
  | counted => exact ⟨hnamed.trans hlj.1, hcount.trans hlj.2⟩
  | locked row now => exact ⟨hnamed.trans hlj.1, hcount.trans hlj.2.1, hcode row hlj.2.2⟩
  | flushed w snapshot =>
    obtain ⟨hn, hc, row, now, hrow, hw⟩ := hlj
    exact ⟨hnamed.trans hn, hcount.trans hc, row, now, hcode row hrow,
      (flush_of_sameAccounts ha).trans hw⟩
  | start | denied | released => exact fun hn => hlj (hnamed.symm.trans hn)
  | granted | acquired => exact hnamed.trans hlj
  | ended | returned => trivial

end Moves

/-! ### Over any schedule -/

omit [Runtime] [DecidableEq ι] in
/-- The commit right after `GET_LOCK` has returned 1 does not raise on a connection that stays
usable. -/
def CommitsGrant (c : Config ι (Db ι) Local) : Label ι Choice Env → Prop
  | .proc i .raise => c.loc i ≠ .granted
  | _ => True

omit [Runtime] [DecidableEq ι] in
/-- How many statements a run has before it at most. -/
def Local.rank : Local → ℕ
  | .start => 8
  | .granted => 7
  | .denied => 1
  | .acquired => 6
  | .counted => 5
  | .locked _ _ => 4
  | .flushed _ _ => 3
  | .ended _ => 2
  | .released _ => 1
  | .returned _ => 0

theorem rank_moved {a : Bootstrap} {i : ι} {db db' : Db ι} {ch : Choice} {l l' : Local}
    (h : Moved a i db ch l db' l') (hl : ∀ o, l ≠ .returned o) : l'.rank < l.rank := by
  cases h with
  | fail ch l e hl' =>
    cases l with
    | acquired | counted | locked | flushed => simp [Local.rank]
    | start | granted | denied | ended | released | returned => cases hl'
  | leave l hl' => rcases hl' with rfl | rfl | rfl <;> simp [Local.rank]
  | invalidate l o hl' => rcases hl' with rfl | rfl <;> simp [Local.rank]
  | lost l =>
    cases l with
    | returned o => exact absurd rfl (hl o)
    | start | granted | denied | acquired | counted | locked | flushed | ended | released =>
      simp [Local.rank, Local.raised]
  | acquire | deny | enter | busy | count | lock | flush | commit | release | finish =>
    simp [Local.rank]

section Reach

variable {req : ι → Bootstrap} {c₀ c c' : Config ι (Db ι) Local} {l : Label ι Choice Env}
  {C : Config ι (Db ι) Local → Label ι Choice Env → Prop}

theorem env_cases {e : Env} {db db' : Db ι} (h : (system req).env e db = some db') :
    SameAccounts db.store db'.store ∧ KeepsCodes db.store db'.store ∧ db'.named = db.named ∧
      db'.locks = db.locks := by
  cases e with
  | tick d =>
    cases h
    exact ⟨SameAccounts.refl _, fun row hrow => Table.mem_iff_get.mp hrow, rfl, rfl⟩
  | others s =>
    simp only [system] at h
    split_ifs at h with hs
    cases h
    exact ⟨hs.1, hs.2, rfl, rfl⟩

theorem holds_reach (h₀ : ∀ i, c₀.loc i = .start) (hn : c₀.db.named = none)
    (h : (system req).Reach C c₀ c) (i : ι) : Holds (req i) i c.db (c.loc i) := by
  have hstart : ∀ i, Holds (req i) i c₀.db (c₀.loc i) := by
    intro i
    rw [h₀ i]
    show c₀.db.named ≠ some i
    rw [hn]
    simp
  refine (h.interference_free (G := fun _ => True) (A := fun i => Holds (req i) i) trivial hstart
    ?_ ?_ ?_).2 i
  · intro c i ch db l _ _ hA _ hm
    exact ⟨trivial, holds_own (move_cases hm) (hA i)⟩
  · intro c i ch db l _ _ hA _ hm j hj
    exact holds_others (move_cases hm) (hA i) hj (hA j)
  · intro c e db _ _ hA _ he
    refine ⟨trivial, fun j => ?_⟩
    obtain ⟨ha, hs, hnamed, hlocks⟩ := env_cases he
    exact holds_env ha hs hnamed hlocks (hA j)

theorem store_next (h₀ : ∀ i, c₀.loc i = .start) (hn : c₀.db.named = none)
    (h : (system req).Reach C c₀ c) {i : ι} {ch : Choice} {db : Db ι} {l : Local}
    (hm : (system req).move i ch c.db (c.loc i) = some (db, l)) :
    (db.store = c.db.store ∧ l.succeeded = (c.loc i).succeeded) ∨
      ((c.loc i).succeeded = false ∧ l.succeeded = true ∧ Commits (req i) i c.db db) :=
  store_cases (frame (move_cases hm)) (holds_reach h₀ hn h i)

theorem succeeded_reach (h : (system req).Reach C c c') {i : ι} (hi : (c.loc i).succeeded = true) :
    (c'.loc i).succeeded = true := by
  refine h.invariant (I := fun c' => (c'.loc i).succeeded = true) hi ?_
  intro c₁ l c₂ _ hc _ hn
  rcases Sys.next_loc hn i with hl | ⟨ch, -, hm⟩
  · rw [hl]
    exact hc
  · rcases (frame (move_cases hm)).store with ⟨-, hs⟩ | ⟨w, snapshot, -, -, hl⟩
    · rw [hs]
      exact hc
    · rw [hl]
      rfl

/-- What the other requests and the commits that `K` does not concern preserve holds, unless a run
that `K` concerns has succeeded. -/
theorem preserved_unless {P : Store → Prop} {K : ι → Prop} (h₀ : ∀ i, c₀.loc i = .start)
    (hn : c₀.db.named = none) (hP : P c₀.db.store)
    (henv : ∀ s s', SameAccounts s s' → KeepsCodes s s' → P s → P s')
    (hrun : ∀ i s row now w, ¬ K i → row.codeHash = pairingCodeHash (req i).normalizedCode →
      flush s (req i) row now = .ok w → P s → P (w.apply s))
    (h : (system req).Reach C c₀ c) (hK : ∀ i, (c.loc i).succeeded = true → ¬ K i) :
    P c.db.store := by
  have hI : (∃ i, (c.loc i).succeeded = true ∧ K i) ∨ P c.db.store := by
    refine h.invariant (I := fun c => (∃ i, (c.loc i).succeeded = true ∧ K i) ∨ P c.db.store)
      (Or.inr hP) ?_
    rintro c l c' hr (⟨i, hi, hk⟩ | hc) hC hnext
    · exact Or.inl ⟨i, succeeded_reach (.step .refl hC hnext) hi, hk⟩
    cases l with
    | env e =>
      obtain ⟨db, he, rfl⟩ := Sys.next_env.mp hnext
      obtain ⟨ha, hs, -⟩ := env_cases he
      exact Or.inr (henv _ _ ha hs hc)
    | proc i ch =>
      obtain ⟨db, l, hm, rfl⟩ := Sys.next_proc.mp hnext
      rcases store_next h₀ hn hr hm with ⟨hs, -⟩ | ⟨-, hsucc, -, -, row, now, w, hrow, hw, hs⟩
      · refine Or.inr ?_
        show P db.store
        rw [hs]
        exact hc
      · by_cases hk : K i
        · refine Or.inl ⟨i, ?_, hk⟩
          show (Function.update c.loc i l i).succeeded = true
          rw [Function.update_self]
          exact hsucc
        · refine Or.inr ?_
          show P db.store
          rw [hs]
          exact hrun i _ row now w hk hrow hw hc
  rcases hI with ⟨i, hi, hk⟩ | hc
  · exact absurd hk (hK i hi)
  · exact hc

theorem count_of_succeeded (h₀ : ∀ i, c₀.loc i = .start) (hn : c₀.db.named = none)
    (h : (system req).Reach C c₀ c) {i : ι} (hi : (c.loc i).succeeded = true) :
    activeCommandAdminCount c.db.store (req i).platform ≠ 0 := by
  have hstart : (c₀.loc i).succeeded = true →
      activeCommandAdminCount c₀.db.store (req i).platform ≠ 0 := by
    intro hs
    rw [h₀ i] at hs
    cases hs
  refine h.invariant (I := fun c => (c.loc i).succeeded = true →
    activeCommandAdminCount c.db.store (req i).platform ≠ 0) hstart ?_ hi
  intro c l c' hr hc hC hnext hi'
  cases l with
  | env e =>
    obtain ⟨db, he, rfl⟩ := Sys.next_env.mp hnext
    rw [count_of_sameAccounts (env_cases he).1]
    exact hc hi'
  | proc j ch =>
    obtain ⟨db, l, hm, rfl⟩ := Sys.next_proc.mp hnext
    rcases store_next h₀ hn hr hm with ⟨hs, hsucc⟩ | ⟨-, -, -, -, row, now, w, -, hw, hs⟩
    · show activeCommandAdminCount db.store (req i).platform ≠ 0
      rw [hs]
      refine hc ?_
      by_cases hij : i = j
      · subst hij
        simpa [hsucc] using hi'
      · simpa [Function.update_of_ne hij] using hi'
    · show activeCommandAdminCount db.store (req i).platform ≠ 0
      rw [hs, count_apply hw]
      by_cases hij : i = j
      · exact Or.inl (by rw [hij])
      · refine Or.inr (hc ?_)
        simpa [Function.update_of_ne hij] using hi'

/-- **At most one run succeeds on a platform.** -/
theorem once_reach (h₀ : ∀ i, c₀.loc i = .start) (hn : c₀.db.named = none)
    (h : (system req).Reach C c₀ c) : ∀ i j, (c.loc i).succeeded = true →
      (c.loc j).succeeded = true → (req i).platform = (req j).platform → i = j := by
  refine h.unique_entry (fun l => l.succeeded = true) (fun i => (req i).platform)
    (fun db p => activeCommandAdminCount db.store p ≠ 0) ?_ ?_ ?_
  · intro i hi
    rw [h₀ i] at hi
    cases hi
  · intro c i hr hi
    exact count_of_succeeded h₀ hn hr hi
  · intro c i ch db l hr _ hm hold hl
    rcases store_next h₀ hn hr hm with ⟨-, hs⟩ | ⟨-, -, hcommits⟩
    · rw [hs] at hl
      exact absurd hl hold
    · simpa using hcommits.count

/-- **Under the condition the named lock is not held by a run that has returned.** -/
theorem released_reach (h₀ : ∀ i, c₀.loc i = .start) (hn : c₀.db.named = none)
    (h : (system req).Reach CommitsGrant c₀ c) {i : ι} {o : Outcome} (hi : c.loc i = .returned o) :
    c.db.named ≠ some i := by
  have hstart : ∀ o, c₀.loc i = .returned o → c₀.db.named ≠ some i := by
    intro o ho
    rw [h₀ i] at ho
    cases ho
  refine h.invariant (I := fun c => ∀ o, c.loc i = .returned o → c.db.named ≠ some i) hstart ?_ o hi
  intro c l c' hr hc hC hnext o ho
  cases l with
  | env e =>
    obtain ⟨db, he, rfl⟩ := Sys.next_env.mp hnext
    show db.named ≠ some i
    rw [(env_cases he).2.2.1]
    exact hc o ho
  | proc j ch =>
    obtain ⟨db, l, hm, rfl⟩ := Sys.next_proc.mp hnext
    have hmoved := move_cases hm
    by_cases hij : i = j
    · subst hij
      have hh := holds_reach h₀ hn hr i
      have hlo : l = .returned o := by simpa using ho
      subst hlo
      exact returned_own hmoved hh fun hch hg => by
        subst hch
        exact hC hg
    · have hold : c.loc i = .returned o := by simpa [Function.update_of_ne hij] using ho
      intro hnamed
      exact hc o hold (((frame hmoved).named i hij).mp hnamed)

end Reach

/-- What can be said of the runs `req`. -/
structure FirstAdminOnce (req : ι → Bootstrap) (c₀ : Config ι (Db ι) Local) : Prop where
  /-- At most one run succeeds on a platform. -/
  once : ∀ c, (system req).Reachable c₀ c → ∀ i j, (c.loc i).succeeded = true →
    (c.loc j).succeeded = true → (req i).platform = (req j).platform → i = j
  /-- A run that ends with an error has stored nothing with any of its statements. -/
  failed : ∀ c i ch c' c'' e, (system req).Reachable c₀ c →
    (system req).next c (.proc i ch) = some c' → (system req).Reachable c' c'' →
    c''.loc i = .returned (.error e) → c'.db.store = c.db.store
  /-- The accounts of a platform are as they were, unless a run on it has succeeded. -/
  accounts : ∀ c, (system req).Reachable c₀ c → ∀ p,
    (∀ i, (c.loc i).succeeded = true → (req i).platform ≠ p) → ∀ o,
      c.db.store.users.get (p, o) = c₀.db.store.users.get (p, o) ∧
      ∀ key, c.db.store.userPermissions.get (p, o, key) =
        c₀.db.store.userPermissions.get (p, o, key)
  /-- A code is as it was, unless a run with it has succeeded. -/
  codes : ∀ c, (system req).Reachable c₀ c → ∀ k row, c₀.db.store.pairingCodes.get k = some row →
    (∀ i, (c.loc i).succeeded = true → pairingCodeHash (req i).normalizedCode ≠ k) →
      c.db.store.pairingCodes.get k = some row
  /-- Each statement of a run brings it nearer to its return, and it does not get stuck before. -/
  ends : ∀ c i, (∀ o, c.loc i ≠ .returned o) →
    (∃ ch c', (system req).next c (.proc i ch) = some c') ∧
    ∀ ch c', (system req).next c (.proc i ch) = some c' → (c'.loc i).rank < (c.loc i).rank
  /-- Under the condition a run that has returned does not hold the named lock. -/
  released : ∀ c, (system req).Reach CommitsGrant c₀ c → ∀ i o, c.loc i = .returned o →
    c.db.named ≠ some i
  /-- A statement that breaks the condition is the last of a run, which then holds the named
  lock. -/
  leaked : ∀ c l c', (system req).Reachable c₀ c → ¬ CommitsGrant c l →
    (system req).next c l = some c' → ∃ i o, c'.loc i = .returned o ∧ c'.db.named = some i

section Promises

variable {req : ι → Bootstrap} {c₀ c c' : Config ι (Db ι) Local}

theorem failed_run (h₀ : ∀ i, c₀.loc i = .start) (hn : c₀.db.named = none)
    (h : (system req).Reachable c₀ c) {i : ι} {ch : Choice}
    (hnext : (system req).next c (.proc i ch) = some c') {c'' : Config ι (Db ι) Local}
    (h' : (system req).Reachable c' c'') {e : Failure} (he : c''.loc i = .returned (.error e)) :
    c'.db.store = c.db.store := by
  obtain ⟨db, l, hm, rfl⟩ := Sys.next_proc.mp hnext
  rcases store_next h₀ hn h hm with ⟨hs, -⟩ | ⟨-, hsucc, -⟩
  · exact hs
  · have hend : (c''.loc i).succeeded = true := by
      refine succeeded_reach h' ?_
      show (Function.update c.loc i l i).succeeded = true
      rw [Function.update_self]
      exact hsucc
    rw [he] at hend
    cases hend

theorem same_accounts (h₀ : ∀ i, c₀.loc i = .start) (hn : c₀.db.named = none)
    (h : (system req).Reachable c₀ c) {p : String}
    (hp : ∀ i, (c.loc i).succeeded = true → (req i).platform ≠ p) (o : String) :
    c.db.store.users.get (p, o) = c₀.db.store.users.get (p, o) ∧
      ∀ key, c.db.store.userPermissions.get (p, o, key) =
        c₀.db.store.userPermissions.get (p, o, key) := by
  refine preserved_unless (K := fun i => (req i).platform = p)
    (P := fun s => s.users.get (p, o) = c₀.db.store.users.get (p, o) ∧
      ∀ key, s.userPermissions.get (p, o, key) = c₀.db.store.userPermissions.get (p, o, key))
    h₀ hn ⟨rfl, fun _ => rfl⟩ ?_ ?_ h hp
  · rintro s s' ha - ⟨hu, hk⟩
    rw [ha.users, ha.userPermissions]
    exact ⟨hu, hk⟩
  · rintro i s row now w hne - hw ⟨hu, hk⟩
    refine ⟨(get_user_apply hw (Ne.symm hne)).trans hu, fun key => ?_⟩
    exact (get_permission_apply hw (Ne.symm hne)).trans (hk key)

theorem same_code (h₀ : ∀ i, c₀.loc i = .start) (hn : c₀.db.named = none)
    (h : (system req).Reachable c₀ c) {k : String} {row : PairingCode}
    (hrow : c₀.db.store.pairingCodes.get k = some row)
    (hk : ∀ i, (c.loc i).succeeded = true → pairingCodeHash (req i).normalizedCode ≠ k) :
    c.db.store.pairingCodes.get k = some row := by
  refine preserved_unless (K := fun i => pairingCodeHash (req i).normalizedCode = k)
    (P := fun s => s.pairingCodes.get k = some row) h₀ hn hrow ?_ ?_ h hk
  · intro s s' _ hs hget
    have hkey : row.codeHash = k := Table.key_of_get hget
    rw [← hkey]
    exact hs row (Table.mem_of_get hget)
  · intro i s row' now w hne hkey hw hget
    refine (get_code_apply hw ?_).trans hget
    rw [hkey]
    exact Ne.symm hne

theorem exists_move {i : ι} (h : ∀ o, c.loc i ≠ .returned o) :
    ∃ ch c', (system req).next c (.proc i ch) = some c' := by
  refine ⟨.disconnect, ⟨c.db.disconnect i, Function.update c.loc i (c.loc i).raised⟩,
    Sys.next_proc.mpr ⟨_, _, ?_, rfl⟩⟩
  show move req i .disconnect c.db (c.loc i) = _
  cases hl : c.loc i with
  | returned o => exact absurd hl (h o)
  | start | granted | denied | acquired | counted | locked | flushed | ended | released => rfl

theorem leaks (h₀ : ∀ i, c₀.loc i = .start) (hn : c₀.db.named = none)
    (h : (system req).Reachable c₀ c) {i : ι} (hi : c.loc i = .granted)
    (hnext : (system req).next c (.proc i .raise) = some c') :
    ∃ i o, c'.loc i = .returned o ∧ c'.db.named = some i := by
  have hh := holds_reach h₀ hn h i
  rw [hi] at hh
  obtain ⟨db, l, hm, rfl⟩ := Sys.next_proc.mp hnext
  rw [hi] at hm
  cases hm
  exact ⟨i, _, Function.update_self i _ c.loc, hh⟩

end Promises

/-- **First-admin bootstrap happens once**, and the named lock is free when a run returns as long as
no commit of the grant raises on a usable connection. -/
theorem first_admin_once {req : ι → Bootstrap} {c₀ : Config ι (Db ι) Local}
    (h₀ : ∀ i, c₀.loc i = .start) (hn : c₀.db.named = none) : FirstAdminOnce req c₀ where
  once c h := once_reach h₀ hn h
  failed c i ch c' c'' e h hnext h' he := failed_run h₀ hn h hnext h' he
  accounts c h p hp o := same_accounts h₀ hn h hp o
  codes c h k row hrow hk := same_code h₀ hn h hrow hk
  ends c i hi := by
    refine ⟨exists_move hi, fun ch c' hnext => ?_⟩
    obtain ⟨db, l, hm, rfl⟩ := Sys.next_proc.mp hnext
    show (Function.update c.loc i l i).rank < _
    rw [Function.update_self]
    exact rank_moved (move_cases hm) hi
  released c h i o hi := released_reach h₀ hn h hi
  leaked c l c' h hC hnext := by
    cases l with
    | env e => exact absurd trivial hC
    | proc i ch =>
      cases ch with
      | go | timeout | disconnect => exact absurd trivial hC
      | raise => exact leaks h₀ hn h (not_not.mp hC) hnext

/-! ### A commit that is interrupted -/

omit [Runtime] [DecidableEq ι] in
/-- Two runs with the code of `bob`. -/
def sampleRequests : Bool → Bootstrap := fun _ => { code := "HGFEDCBA" }

omit [Runtime] [DecidableEq ι] in
/-- There is no administrator yet, and `bob` has asked for a code. -/
def sampleConfig : Config Bool (Db Bool) Local where
  db :=
    { store := @step .sample 5 {} (.createPairingCode 0 "qqbot" "bob" "HGFEDCBA" 10)
      named := none
      locks := fun _ => none
      now := seconds 20 }
  loc _ := .start

omit [Runtime] [DecidableEq ι] in
theorem first_admin_once_sample : @FirstAdminOnce .sample Bool _ sampleRequests sampleConfig :=
  @first_admin_once .sample Bool _ sampleRequests sampleConfig (fun _ => rfl) rfl

omit [Runtime] [DecidableEq ι] in
/-- The run `true` has returned and holds the named lock. -/
def holdsLock (c : Config Bool (Db Bool) Local) : Bool :=
  match c.loc true with
  | .returned _ => c.db.named = some true
  | _ => false

omit [Runtime] [DecidableEq ι] in
/-- The server interrupts the commit after `GET_LOCK`. -/
theorem named_lock_held :
    ¬ ∀ (req : Bool → Bootstrap) (c₀ : Config Bool (Db Bool) Local), (∀ i, c₀.loc i = .start) →
      c₀.db.named = none → ∀ c, (@system .sample Bool _ req).Reachable c₀ c →
        ∀ i o, c.loc i = .returned o → c.db.named ≠ some i := by
  intro hall
  let _ := Runtime.sample
  have hrun : ∃ c, (system sampleRequests).Reachable sampleConfig c ∧ holdsLock c = true :=
    Sys.exists_reachable [.proc true .go, .proc true .raise] (by decide)
  obtain ⟨c, hc, hheld⟩ := hrun
  unfold holdsLock at hheld
  split at hheld
  · rename_i o ho
    exact hall sampleRequests sampleConfig (fun _ => rfl) rfl c hc true o ho
      (of_decide_eq_true hheld)
  · cases hheld

end EventServer.Services.BootstrapRaces
