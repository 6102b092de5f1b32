import EventServer.Lib.Interleave
import EventServer.Db.Session
import EventServer.System

/-! # Consuming a pairing code in concurrent transactions

`approve_pairing_code` and `bootstrap_first_admin` as transactions at READ COMMITTED: the operator,
or the number of administrators, is checked; the code is read and checked, by an approval with a
plain `SELECT`, by a bootstrap `FOR UPDATE`; then everything is written and committed. Reading `FOR
UPDATE` and writing wait for the lock on the row.

A code that a bootstrap has locked stays as it is. A code that an approval has read does not: it is
used once as long as no transaction commits it while an approval stands between its read and its
write, and that approval can use it again if one does (`code_used_once`). -/

namespace EventServer.Services.CodeRaces

open EventServer.Db EventServer.Lib EventServer.Python EventServer.System
open EventServer.Services.Users EventServer.Services.Pairing EventServer.Services.Accounts

variable [Runtime]

inductive Request where
  | approve (a : Approve)
  | bootstrap (a : Bootstrap)

/-- The primary key of the code. -/
def Request.codeHash : Request → String
  | .approve a => pairingCodeHash a.code
  | .bootstrap a => pairingCodeHash a.normalizedCode

/-! ### What is written -/

omit [Runtime] in
/-- The stored code after the flush of a row that was loaded as `loaded`. -/
def flushCode (loaded changed current : PairingCode) : PairingCode :=
  { current with
    approvedBy := column loaded.approvedBy changed.approvedBy current.approvedBy
    approvedAt := column loaded.approvedAt changed.approvedAt current.approvedAt
    consumedAt := column loaded.consumedAt changed.consumedAt current.consumedAt }

omit [Runtime] in
/-- The `UPDATE` that consumes the code, or `none` if there is no such row any more. -/
def consumeRow (s : Store) (row : PairingCode) (approvedBy : String) (now : Time) : Option Store :=
  (s.pairingCodes.get row.codeHash).map fun current =>
    { s with
      pairingCodes :=
        s.pairingCodes.put (flushCode row (PairingCode.consume row approvedBy now) current) }

/-- An approval of `row` writes the grant and consumes the row. -/
def writeApproval (s : Store) (a : Approve) (row : PairingCode) (now : Time) : Option Store :=
  match setPermissions s (a.grant row) with
  | .error _ => none
  | .ok (s, _) => consumeRow s row a.operatorOpenid now

omit [Runtime] in
/-- A bootstrap with `row` makes its user the first administrator and consumes the row. -/
def writeBootstrap (s : Store) (a : Bootstrap) (row : PairingCode) (now : Time) : Option Store :=
  if (s.users.get (a.platform, row.openid)).map (·.accountStatus) = some .blocked then none
  else
    (consumeRow (Bootstrap.promote s a row.openid) row "bootstrap" now).map fun s =>
      { s with auditLogs := s.auditLogs ++ [a.audit row.openid] }

/-! ### The transactions -/

/-- The committed rows, who has locked which code, and the clock. -/
structure Db (ι : Type) where
  store : Store
  locks : String → Option ι
  now : Time

/-- Where a transaction stands, the row it has read, and when. -/
inductive Local where
  | start
  | begun
  | read (a : Approve) (row : PairingCode) (now : Time)
  | locked (a : Bootstrap) (row : PairingCode) (now : Time)
  | committed
  | aborted

inductive Choice where
  | go
  | rollback

/-- Time passes, or other requests change the store, which leave stored codes alone. -/
inductive Env where
  | tick (d : ℕ)
  | others (s : Store)

omit [Runtime] in
/-- Every stored code is as it was. -/
def KeepsCodes (s s' : Store) : Prop :=
  ∀ row ∈ s.pairingCodes.rows, s'.pairingCodes.get row.codeHash = some row

omit [Runtime] in
instance (s s' : Store) : Decidable (KeepsCodes s s') := by
  unfold KeepsCodes; infer_instance

variable {ι : Type} [DecidableEq ι]

/-- The moves of the transaction that answers `req i`. -/
def move (req : ι → Request) (i : ι) : Choice → Db ι → Local → Option (Db ι × Local)
  | .go, db, .start =>
    match req i with
    | .approve a =>
      if (permissionSnapshot db.store a.platform a.operatorOpenid).isAdmin then some (db, .begun)
      else some (db, .aborted)
    | .bootstrap a =>
      if activeCommandAdminCount db.store a.platform ≠ 0 then some (db, .aborted)
      else if a.normalizedCode.length ≠ 8 ∨ a.normalizedCode.toList.any (· ∉ alphabet) then
        some (db, .aborted)
      else some (db, .begun)
  | .go, db, .begun =>
    match req i with
    | .approve a =>
      match a.check (db.store.pairingCodes.get (pairingCodeHash a.code)) db.now with
      | .error _ => some (db, .aborted)
      | .ok row => some (db, .read a row db.now)
    | .bootstrap a =>
      if db.locks (pairingCodeHash a.normalizedCode) = none then
        match a.check (db.store.pairingCodes.get (pairingCodeHash a.normalizedCode)) db.now with
        | .error _ => some (db, .aborted)
        | .ok row => some ({ db with locks := lockRows db.locks i [row.codeHash] },
            .locked a row db.now)
      else none
  | .go, db, .read a row now =>
    if db.locks row.codeHash = none then
      match writeApproval db.store a row now with
      | none => some (db, .aborted)
      | some s => some ({ db with store := s }, .committed)
    else none
  | .go, db, .locked a row now =>
    let db' := { db with locks := releaseRows db.locks i }
    match writeBootstrap db.store a row now with
    | none => some (db', .aborted)
    | some s => some ({ db' with store := s }, .committed)
  | .rollback, db, .begun => some (db, .aborted)
  | .rollback, db, .read _ _ _ => some (db, .aborted)
  | .rollback, db, .locked _ _ _ => some ({ db with locks := releaseRows db.locks i }, .aborted)
  | _, _, _ => none

/-- Any number of approvals and bootstraps next to other requests. -/
def system (req : ι → Request) : Sys ι Choice Env (Db ι) Local where
  move := move req
  env
    | .tick d, db => some { db with now := db.now + d }
    | .others s, db => if KeepsCodes db.store s then some { db with store := s } else none

/-! ### What a write does to codes -/

section Codes

omit [Runtime] [DecidableEq ι]

/-- The code has been used. -/
def Consumed (s : Store) (k : String) : Prop :=
  ∃ row, s.pairingCodes.get k = some row ∧ row.consumedAt ≠ none

/-- The code `k` is used, all others are as they were. -/
structure Uses (s s' : Store) (k : String) : Prop where
  consumed : Consumed s' k
  others : ∀ k', k' ≠ k → s'.pairingCodes.get k' = s.pairingCodes.get k'

variable {s s' : Store} {row : PairingCode} {approvedBy : String} {now : Time}

theorem consumeRow_uses (hnew : row.consumedAt = none)
    (h : consumeRow s row approvedBy now = some s') : Uses s s' row.codeHash := by
  obtain ⟨current, hcur, rfl⟩ := Option.map_eq_some_iff.mp h
  have hk : PairingCode.codeHash
      (flushCode row (PairingCode.consume row approvedBy now) current) = row.codeHash :=
    (Table.key_of_get hcur : current.codeHash = _)
  have hconsumed :
      (flushCode row (PairingCode.consume row approvedBy now) current).consumedAt = some now := by
    have hne : some now ≠ row.consumedAt := by simp [hnew]
    exact column_of_ne hne current.consumedAt
  constructor
  · refine ⟨flushCode row (PairingCode.consume row approvedBy now) current, ?_, ?_⟩
    · rw [Table.get_put, hk, if_pos rfl]
    · rw [hconsumed]
      simp
  · intro k' hne
    rw [Table.get_put, hk, if_neg hne]

/-- A row that is as it was loaded is stored as it was changed. -/
theorem consumeRow_loaded (h : s.pairingCodes.get row.codeHash = some row) :
    consumeRow s row approvedBy now =
      some { s with
             pairingCodes := s.pairingCodes.put (PairingCode.consume row approvedBy now) } := by
  unfold consumeRow flushCode
  rw [h]
  simp only [Option.map_some, column_self]
  rfl

theorem writeBootstrap_uses {a : Bootstrap} (hnew : row.consumedAt = none)
    (h : writeBootstrap s a row now = some s') : Uses s s' row.codeHash := by
  unfold writeBootstrap at h
  split_ifs at h
  obtain ⟨s₁, hs₁, rfl⟩ := Option.map_eq_some_iff.mp h
  exact ⟨(consumeRow_uses hnew hs₁).consumed, (consumeRow_uses hnew hs₁).others⟩

variable [Runtime]

theorem writeApproval_eq {a : Approve} (now : Time) {x : Store × PermissionSnapshot}
    (h : setPermissions s (a.grant row) = .ok x) :
    x.1.pairingCodes = s.pairingCodes ∧
      writeApproval s a row now = consumeRow x.1 row a.operatorOpenid now := by
  constructor
  · rw [(setPermissions_ok h).2.2, applyPermissions_eq]
  · unfold writeApproval
    rw [h]

theorem writeApproval_uses {a : Approve} (hnew : row.consumedAt = none)
    (h : writeApproval s a row now = some s') : Uses s s' row.codeHash := by
  cases hs : setPermissions s (a.grant row) with
  | error e => simp [writeApproval, hs] at h
  | ok x =>
    obtain ⟨hsame, hw⟩ := writeApproval_eq now hs
    rw [hw] at h
    obtain ⟨hconsumed, hothers⟩ := consumeRow_uses hnew h
    refine ⟨hconsumed, fun k' hne => ?_⟩
    rw [hothers k' hne, hsame]

end Codes

/-! ### One at a time -/

/-- **An approval that meets no other transaction is the call of the service.** -/
theorem approve_alone {req : ι → Request} {i : ι} {a : Approve} {db : Db ι}
    (hreq : req i = .approve a) (hfree : ∀ k, db.locks k = none) {x : Store × PermissionSnapshot}
    (h : approvePairingCode db.store db.now a = .ok x) :
    ∃ l, move req i .go db .start = some (db, .begun) ∧ move req i .go db .begun = some (db, l) ∧
      move req i .go db l = some ({ db with store := x.1 }, .committed) := by
  obtain ⟨row, snapshot, hcheck, hgrant, hx⟩ := approvePairingCode_ok h
  obtain ⟨hrow, -, hnew, -⟩ := approve_check_ok hcheck
  have hk : row.codeHash = pairingCodeHash a.code := Table.key_of_get hrow
  have hadm : (permissionSnapshot db.store a.platform a.operatorOpenid).isAdmin = true :=
    isAdmin_iff.mpr (setPermissions_ok hgrant).2.1
  obtain ⟨hsame, hw⟩ : (applyPermissions db.store (a.grant row)).pairingCodes = _ ∧ _ :=
    writeApproval_eq db.now hgrant
  have hloaded : (applyPermissions db.store (a.grant row)).pairingCodes.get
      row.codeHash = some row := by
    rw [hsame, hk]
    exact hrow
  have hwrite : writeApproval db.store a row db.now = some x.1 := by
    rw [hw, consumeRow_loaded hloaded, hx, ← hsame]
  refine ⟨.read a row db.now, ?_, ?_, ?_⟩
  · simp only [move, hreq, hadm, if_true]
  · simp only [move, hreq, hcheck]
  · simp only [move, hfree, if_true, hwrite]

/-- **A bootstrap that meets no other transaction is the call of the service.** -/
theorem bootstrap_alone {req : ι → Request} {i : ι} {a : Bootstrap} {db : Db ι}
    (hreq : req i = .bootstrap a) (hfree : ∀ k, db.locks k = none) {x : Store × PermissionSnapshot}
    (h : bootstrapFirstAdmin db.store db.now a = .ok x) :
    ∃ db' l db'', move req i .go db .start = some (db, .begun) ∧
      move req i .go db .begun = some (db', l) ∧
      move req i .go db' l = some (db'', .committed) ∧ db''.store = x.1 := by
  unfold bootstrapFirstAdmin at h
  split_ifs at h with hcount hcode
  cases hcheck : a.check (db.store.pairingCodes.get (pairingCodeHash a.normalizedCode)) db.now with
  | error e => simp [hcheck] at h
  | ok row =>
    simp only [hcheck] at h
    split_ifs at h with hblocked
    obtain ⟨hrow, -, hnew, -⟩ := bootstrap_check_ok hcheck
    have hk : row.codeHash = pairingCodeHash a.normalizedCode := Table.key_of_get hrow
    have hloaded : (Bootstrap.promote db.store a row.openid).pairingCodes.get row.codeHash =
        some row := by
      rw [hk]
      exact hrow
    have hwrite : writeBootstrap db.store a row db.now = some x.1 := by
      unfold writeBootstrap
      rw [if_neg hblocked, consumeRow_loaded hloaded]
      cases h
      rfl
    refine ⟨{ db with locks := lockRows db.locks i [row.codeHash] }, .locked a row db.now,
      { db with
        store := x.1
        locks := releaseRows (lockRows db.locks i [row.codeHash]) i }, ?_, ?_, ?_, rfl⟩
    · simp only [move, hreq, if_neg hcount, if_neg hcode]
    · simp only [move, hreq, hfree, if_true, hcheck]
    · simp only [move, hwrite]

/-! ### What a transaction relies on -/

/-- What a transaction has found: a code that was not used, which a bootstrap has locked. A
transaction that has been committed has used its code. -/
def Holds (r : Request) (i : ι) (db : Db ι) : Local → Prop
  | .read _ row _ => row.codeHash = r.codeHash ∧ row.consumedAt = none
  | .locked _ row _ => row.codeHash = r.codeHash ∧ row.consumedAt = none ∧
      db.locks row.codeHash = some i ∧ db.store.pairingCodes.get row.codeHash = some row
  | .committed => Consumed db.store r.codeHash
  | _ => True

omit [Runtime] [DecidableEq ι] in
/-- The code an approval has read is as it was then. -/
def Fresh (db : Db ι) : Local → Prop
  | .read _ row _ => db.store.pairingCodes.get row.codeHash = some row
  | _ => True

/-- The ways a transaction can move. -/
inductive Moved (r : Request) (i : ι) (db : Db ι) : Choice → Local → Db ι → Local → Prop
  | begin : Moved r i db .go .start db .begun
  | read (a : Approve) (row : PairingCode)
    (hrow : db.store.pairingCodes.get r.codeHash = some row) (hnew : row.consumedAt = none) :
    Moved r i db .go .begun db (.read a row db.now)
  | lock (a : Bootstrap) (row : PairingCode) (hfree : db.locks r.codeHash = none)
    (hrow : db.store.pairingCodes.get r.codeHash = some row) (hnew : row.consumedAt = none) :
    Moved r i db .go .begun { db with locks := lockRows db.locks i [row.codeHash] }
      (.locked a row db.now)
  | approve (a : Approve) (row : PairingCode) (now : Time) (s : Store)
    (hfree : db.locks row.codeHash = none) (hw : writeApproval db.store a row now = some s) :
    Moved r i db .go (.read a row now) { db with store := s } .committed
  | bootstrap (a : Bootstrap) (row : PairingCode) (now : Time) (s : Store)
    (hw : writeBootstrap db.store a row now = some s) :
    Moved r i db .go (.locked a row now)
      { db with store := s, locks := releaseRows db.locks i } .committed
  | abort (ch : Choice) (l : Local) : Moved r i db ch l db .aborted
  | release (ch : Choice) (a : Bootstrap) (row : PairingCode) (now : Time) :
    Moved r i db ch (.locked a row now) { db with locks := releaseRows db.locks i } .aborted

theorem move_cases {req : ι → Request} {i : ι} {ch : Choice} {db db' : Db ι} {l l' : Local}
    (h : move req i ch db l = some (db', l')) : Moved (req i) i db ch l db' l' := by
  cases ch with
  | rollback =>
    cases l with
    | begun => cases h; exact .abort _ _
    | read a row now => cases h; exact .abort _ _
    | locked a row now => cases h; exact .release _ a row now
    | start | committed | aborted => cases h
  | go =>
    cases l with
    | start =>
      simp only [move] at h
      split at h
      · split_ifs at h
        · cases h; exact .begin
        · cases h; exact .abort _ _
      · split_ifs at h
        · cases h; exact .abort _ _
        · cases h; exact .abort _ _
        · cases h; exact .begin
    | begun =>
      cases hreq : req i with
      | approve a =>
        simp only [move, hreq] at h
        cases hc : a.check (db.store.pairingCodes.get (pairingCodeHash a.code)) db.now with
        | error e => simp only [hc] at h; cases h; exact .abort _ _
        | ok row =>
          simp only [hc] at h
          cases h
          obtain ⟨hrow, -, hnew, -⟩ := approve_check_ok hc
          exact .read a row hrow hnew
      | bootstrap a =>
        simp only [move, hreq] at h
        split_ifs at h with hfree
        cases hc : a.check (db.store.pairingCodes.get (pairingCodeHash a.normalizedCode))
          db.now with
        | error e => simp only [hc] at h; cases h; exact .abort _ _
        | ok row =>
          simp only [hc] at h
          cases h
          obtain ⟨hrow, -, hnew, -⟩ := bootstrap_check_ok hc
          exact .lock a row hfree hrow hnew
    | read a row now =>
      simp only [move] at h
      split_ifs at h with hfree
      cases hw : writeApproval db.store a row now with
      | none => simp only [hw] at h; cases h; exact .abort _ _
      | some s => simp only [hw] at h; cases h; exact .approve a row now s hfree hw
    | locked a row now =>
      simp only [move] at h
      cases hw : writeBootstrap db.store a row now with
      | none => simp only [hw] at h; cases h; exact .release _ a row now
      | some s => simp only [hw] at h; cases h; exact .bootstrap a row now s hw
    | committed | aborted => cases h

section Moves

variable {r r' : Request} {i j : ι} {db db' : Db ι} {ch : Choice} {l l' : Local} {k : String}

theorem uses_of_moved (h : Moved r i db ch l db' .committed) (hl : Holds r i db l) :
    Uses db.store db'.store r.codeHash := by
  cases h with
  | approve a row now s hfree hw => rw [← hl.1]; exact writeApproval_uses hl.2 hw
  | bootstrap a row now s hw => rw [← hl.1]; exact writeBootstrap_uses hl.2.1 hw

theorem get_of_moved (h : Moved r i db ch l db' l') (hl : Holds r i db l)
    (hk : l' = .committed → k ≠ r.codeHash) :
    db'.store.pairingCodes.get k = db.store.pairingCodes.get k := by
  cases h with
  | approve a row now s hfree hw =>
    exact (uses_of_moved (.approve a row now s hfree hw) hl).others k (hk rfl)
  | bootstrap a row now s hw =>
    exact (uses_of_moved (.bootstrap a row now s hw) hl).others k (hk rfl)
  | begin | read | lock | abort | release => rfl

theorem consumed_of_moved (h : Moved r i db ch l db' l') (hl : Holds r i db l)
    (hc : Consumed db.store k) : Consumed db'.store k := by
  by_cases hk : l' = .committed ∧ k = r.codeHash
  · obtain ⟨rfl, rfl⟩ := hk
    exact (uses_of_moved h hl).consumed
  · unfold Consumed
    rw [get_of_moved h hl fun h1 h2 => hk ⟨h1, h2⟩]
    exact hc

theorem locked_frame (h : Moved r i db ch l db' l') (hl : Holds r i db l) (hj : j ≠ i)
    (hk : db.locks k = some j) :
    db'.locks k = some j ∧ db'.store.pairingCodes.get k = db.store.pairingCodes.get k := by
  constructor
  · cases h with
    | lock a row hfree hrow hnew =>
      have hkr : row.codeHash = r.codeHash := Table.key_of_get hrow
      exact lockRows_other (by simpa [hkr] using hfree) hk
    | bootstrap | release => exact releaseRows_other hk hj
    | begin | read | approve | abort => exact hk
  · refine get_of_moved h hl fun hcom => ?_
    rintro rfl
    subst hcom
    cases h with
    | approve a row now s hfree hw =>
      rw [← hl.1, hfree] at hk
      cases hk
    | bootstrap a row now s hw =>
      rw [← hl.1, hl.2.2.1, Option.some_inj] at hk
      exact hj hk.symm

theorem holds_own (h : Moved r i db ch l db' l') (hl : Holds r i db l) : Holds r i db' l' := by
  cases h with
  | read a row hrow hnew => exact ⟨Table.key_of_get hrow, hnew⟩
  | lock a row hfree hrow hnew =>
    have hk : row.codeHash = r.codeHash := Table.key_of_get hrow
    exact ⟨hk, hnew, lockRows_of_mem List.mem_cons_self, by rw [hk]; exact hrow⟩
  | approve a row now s hfree hw =>
    exact (uses_of_moved (.approve a row now s hfree hw) hl).consumed
  | bootstrap a row now s hw => exact (uses_of_moved (.bootstrap a row now s hw) hl).consumed
  | begin | abort | release => trivial

theorem fresh_own (h : Moved r i db ch l db' l') : Fresh db' l' := by
  cases h with
  | read a row hrow hnew =>
    have hk : row.codeHash = r.codeHash := Table.key_of_get hrow
    show db.store.pairingCodes.get row.codeHash = some row
    rw [hk]
    exact hrow
  | begin | lock | approve | bootstrap | abort | release => trivial

theorem go_of_committed (h : Moved r i db ch l db' .committed) : ch = .go := by
  cases h <;> rfl

theorem holds_others (h : Moved r i db ch l db' l') (hl : Holds r i db l) (hj : j ≠ i) {lj : Local}
    (hlj : Holds r' j db lj) : Holds r' j db' lj := by
  cases lj with
  | read a row now => exact hlj
  | locked a row now =>
    obtain ⟨hk, hnew, hlock, hrow⟩ := hlj
    obtain ⟨hlock', hget⟩ := locked_frame h hl hj hlock
    exact ⟨hk, hnew, hlock', by rw [hget]; exact hrow⟩
  | committed => exact consumed_of_moved h hl hlj
  | start | begun | aborted => trivial

omit [DecidableEq ι] in
theorem holds_env {db : Db ι} {s : Store} (hs : KeepsCodes db.store s)
    {lj : Local} (hlj : Holds r' j db lj) : Holds r' j { db with store := s } lj := by
  have hget : ∀ k row, db.store.pairingCodes.get k = some row →
      s.pairingCodes.get k = some row := by
    intro k row hrow
    have hk : row.codeHash = k := Table.key_of_get hrow
    rw [← hk]
    exact hs row (Table.mem_of_get hrow)
  cases lj with
  | locked a row now => exact ⟨hlj.1, hlj.2.1, hlj.2.2.1, hget _ _ hlj.2.2.2⟩
  | committed =>
    obtain ⟨row, hrow, hc⟩ := hlj
    exact ⟨row, hget _ _ hrow, hc⟩
  | start | begun | read | aborted => exact hlj

end Moves

/-- The requests of the server that are not among these transactions leave stored codes alone. -/
theorem keepsCodes_step (n : ℕ) (s : Store) (op : Op)
    (hop : ∀ now a, op ≠ .approvePairingCode now a)
    (hop' : ∀ now a, op ≠ .bootstrapFirstAdmin now a) : KeepsCodes s (step n s op) := by
  have hsame : ∀ {s' : Store}, s'.pairingCodes = s.pairingCodes → KeepsCodes s s' := by
    intro s' h row hrow
    rw [h]
    exact Table.mem_iff_get.mp hrow
  cases op with
  | createPairingCode now platform openid code ttl =>
    refine committed_cases (hsame rfl) fun r hr => ?_
    obtain ⟨codes, hinsert, h', -⟩ := createPairingCode_ok hr
    intro row hrow
    have hold : s.pairingCodes.get row.codeHash = some row := Table.mem_iff_get.mp hrow
    rw [h', Table.get_of_insert? hinsert]
    split_ifs with hk
    · have hnone : s.pairingCodes.get r.2.codeHash = none := Table.get_eq_none_of_insert? hinsert
      rw [hk] at hold
      cases hnone.symm.trans hold
    · exact hold
  | approvePairingCode now a => exact absurd rfl (hop now a)
  | bootstrapFirstAdmin now a => exact absurd rfl (hop' now a)
  | setPermissions | changeRole | subscribe | unsubscribe | register | publish | claim | ack | fail
  | setAccountStatus => exact hsame (pairingCodes_step n s rfl)

/-! ### Over any schedule -/

/-- No transaction commits a code while an approval of it stands between its read and its write. -/
def NotOvertaken (req : ι → Request) (c : Config ι (Db ι) Local) : Label ι Choice Env → Prop
  | .proc i .go => ∀ c', (system req).next c (.proc i .go) = some c' → c'.loc i = .committed →
      ∀ j, j ≠ i → ∀ a row now, c.loc j = .read a row now → row.codeHash ≠ (req i).codeHash
  | _ => True

section Reach

variable {req : ι → Request} {c₀ c c' : Config ι (Db ι) Local}
  {C : Config ι (Db ι) Local → Label ι Choice Env → Prop}

theorem holds_reach (h₀ : ∀ i, c₀.loc i = .start) (h : (system req).Reach C c₀ c) (i : ι) :
    Holds (req i) i c.db (c.loc i) := by
  have hstart : ∀ i, Holds (req i) i c₀.db (c₀.loc i) := by
    intro i
    rw [h₀ i]
    trivial
  refine (h.interference_free (G := fun _ => True) (A := fun i => Holds (req i) i) trivial hstart
    ?_ ?_ ?_).2 i
  · intro c i ch db l _ _ hA _ hm
    exact ⟨trivial, holds_own (move_cases hm) (hA i)⟩
  · intro c i ch db l _ _ hA _ hm j hj
    exact holds_others (move_cases hm) (hA i) hj (hA j)
  · intro c e db _ _ hA _ he
    refine ⟨trivial, fun j => ?_⟩
    cases e with
    | tick d =>
      cases he
      have hj := hA j
      cases hl : c.loc j <;> rw [hl] at hj <;> exact hj
    | others s =>
      simp only [system] at he
      split_ifs at he with hs
      cases he
      exact holds_env hs (hA j)

/-- **Under the condition the code an approval has read stays as it was.** -/
theorem fresh_reach (h₀ : ∀ i, c₀.loc i = .start) (h : (system req).Reach (NotOvertaken req) c₀ c)
    (i : ι) : Fresh c.db (c.loc i) := by
  have hstart : ∀ i, Fresh c₀.db (c₀.loc i) := by
    intro i
    rw [h₀ i]
    trivial
  refine (h.interference_free (G := fun _ => True) (A := fun _ => Fresh) trivial
    hstart ?_ ?_ ?_).2 i
  · intro c i ch db l _ _ _ _ hm
    exact ⟨trivial, fresh_own (move_cases hm)⟩
  · intro c i ch db l hr _ hA hC hm j hj
    have hmoved := move_cases hm
    have hfresh := hA j
    cases hlj : c.loc j with
    | read a row now =>
      rw [hlj] at hfresh
      have hget : db.store.pairingCodes.get row.codeHash =
          c.db.store.pairingCodes.get row.codeHash := by
        refine get_of_moved hmoved (holds_reach h₀ hr i) fun hcom => ?_
        subst hcom
        obtain rfl := go_of_committed hmoved
        exact hC _ (Sys.next_proc.mpr ⟨db, .committed, hm, rfl⟩) (Function.update_self i _ c.loc) j
          hj a row now hlj
      show db.store.pairingCodes.get row.codeHash = some row
      rw [hget]
      exact hfresh
    | start | begun | locked | committed | aborted => trivial
  · intro c e db _ _ hA _ he
    refine ⟨trivial, fun j => ?_⟩
    have hfresh := hA j
    cases hl : c.loc j with
    | read a row now =>
      rw [hl] at hfresh
      cases e with
      | tick d =>
        cases he
        exact hfresh
      | others s =>
        simp only [system] at he
        split_ifs at he with hs
        cases he
        exact hs row (Table.mem_of_get hfresh)
    | start | begun | locked | committed | aborted => trivial

theorem unused_of_moved {i : ι} {ch : Choice} {db db' : Db ι} {l : Local}
    (h : Moved (req i) i db ch l db' .committed) (hl : Holds (req i) i db l) (hf : Fresh db l) :
    ¬ Consumed db.store (req i).codeHash := by
  rintro ⟨row', hrow', hc⟩
  cases h with
  | approve a row now s hfree hw =>
    have hrow : db.store.pairingCodes.get row.codeHash = some row := hf
    rw [← hl.1, hrow, Option.some_inj] at hrow'
    subst hrow'
    exact hc hl.2
  | bootstrap a row now s hw =>
    obtain ⟨hk, hnew, -, hrow⟩ := hl
    rw [← hk, hrow, Option.some_inj] at hrow'
    subst hrow'
    exact hc hnew

/-- An approval that has read a code can still write it, if the grant is accepted. -/
theorem exists_approval {j : ι} {a : Approve} {row : PairingCode} {now : Time}
    (hj : c.loc j = .read a row now) (hfree : c.db.locks row.codeHash = none)
    (hstored : Consumed c.db.store row.codeHash)
    {x : Store × PermissionSnapshot} (hx : setPermissions c.db.store (a.grant row) = .ok x) :
    ∃ c', (system req).next c (.proc j .go) = some c' ∧ c'.loc j = .committed ∧
      ∀ i, i ≠ j → c'.loc i = c.loc i := by
  obtain ⟨hsame, hw⟩ := writeApproval_eq now hx
  obtain ⟨current, hcur, -⟩ := hstored
  obtain ⟨s, hs⟩ : ∃ s, writeApproval c.db.store a row now = some s := by
    rw [hw]
    unfold consumeRow
    rw [hsame, hcur]
    exact ⟨_, rfl⟩
  refine ⟨⟨{ c.db with store := s }, Function.update c.loc j .committed⟩, ?_,
    Function.update_self j _ c.loc, fun i hi => Function.update_of_ne hi _ _⟩
  refine Sys.next_proc.mpr ⟨_, .committed, ?_, rfl⟩
  show move req j .go c.db (c.loc j) = _
  rw [hj]
  simp only [move, hfree, if_true, hs]

end Reach

/-- What can be said of the requests `req`. -/
structure UsesOnce (req : ι → Request) (c₀ : Config ι (Db ι) Local) : Prop where
  /-- Under the condition at most one transaction on a code is committed. -/
  once : ∀ c, (system req).Reach (NotOvertaken req) c₀ c → ∀ i j, c.loc i = .committed →
    c.loc j = .committed → (req i).codeHash = (req j).codeHash → i = j
  /-- After a commit that breaks the condition the approval it has overtaken can commit as well, if
  its grant is still accepted. -/
  twice : ∀ c l, (system req).Reachable c₀ c → ¬ NotOvertaken req c l →
    ∃ i j a row now c', i ≠ j ∧ (req i).codeHash = (req j).codeHash ∧
      c.loc j = .read a row now ∧ (system req).next c l = some c' ∧ c'.loc i = .committed ∧
      ((∃ x, setPermissions c'.db.store (a.grant row) = .ok x) →
        ∃ c'', (system req).next c' (.proc j .go) = some c'' ∧ c''.loc i = .committed ∧
          c''.loc j = .committed)

section Promises

variable {req : ι → Request} {c₀ c : Config ι (Db ι) Local}

theorem once_reach (h₀ : ∀ i, c₀.loc i = .start) (h : (system req).Reach (NotOvertaken req) c₀ c) :
    ∀ i j, c.loc i = .committed → c.loc j = .committed → (req i).codeHash = (req j).codeHash →
      i = j := by
  refine h.unique (fun l => l = .committed) (fun i => (req i).codeHash)
    (fun db k => Consumed db.store k) ?_ ?_ ?_
  · intro i hi
    rw [h₀ i] at hi
    cases hi
  · intro c i hr hi
    have hh := holds_reach h₀ hr i
    rw [hi] at hh
    exact hh
  · rintro c i ch db l hr - hm rfl
    exact unused_of_moved (move_cases hm) (holds_reach h₀ hr i) (fresh_reach h₀ hr i)

theorem free_of_moved {i : ι} {ch : Choice} {db db' : Db ι} {l : Local}
    (h : Moved (req i) i db ch l db' .committed) (hl : Holds (req i) i db l) :
    db'.locks (req i).codeHash = none := by
  cases h with
  | approve a row now s hfree hw => rw [← hl.1]; exact hfree
  | bootstrap a row now s hw => rw [← hl.1]; exact releaseRows_own hl.2.2.1

theorem exists_second (h₀ : ∀ i, c₀.loc i = .start) (h : (system req).Reachable c₀ c) {i j : ι}
    {c' : Config ι (Db ι) Local} (hn : (system req).next c (.proc i .go) = some c')
    (hi : c'.loc i = .committed) (hij : j ≠ i) {a : Approve} {row : PairingCode} {now : Time}
    (hj : c.loc j = .read a row now) (hk : row.codeHash = (req i).codeHash)
    {x : Store × PermissionSnapshot} (hx : setPermissions c'.db.store (a.grant row) = .ok x) :
    ∃ c'', (system req).next c' (.proc j .go) = some c'' ∧ c''.loc i = .committed ∧
      c''.loc j = .committed := by
  have hused : Consumed c'.db.store row.codeHash := by
    have hh := holds_reach h₀ (Sys.Reach.step h trivial hn) i
    rw [hi] at hh
    rw [hk]
    exact hh
  obtain ⟨db, l', hm, rfl⟩ := Sys.next_proc.mp hn
  have hl' : l' = .committed := by simpa using hi
  subst hl'
  have hfree : db.locks row.codeHash = none := by
    rw [hk]
    exact free_of_moved (move_cases hm) (holds_reach h₀ h i)
  have hlj : Function.update c.loc i .committed j = .read a row now := by
    rw [Function.update_of_ne hij]
    exact hj
  have hnext : ∃ c'', (system req).next _ (.proc j .go) = some c'' ∧ _ :=
    exists_approval hlj hfree hused hx
  obtain ⟨c'', hn', hcj, hrest⟩ := hnext
  exact ⟨c'', hn', by rw [hrest i hij.symm]; exact hi, hcj⟩

end Promises

/-- **A code is used once**, as long as no transaction commits it while an approval of it stands
between its read and its write; and such an approval can be committed as well, if its grant is still
accepted. -/
theorem code_used_once {req : ι → Request} {c₀ : Config ι (Db ι) Local}
    (h₀ : ∀ i, c₀.loc i = .start) : UsesOnce req c₀ where
  once c h := once_reach h₀ h
  twice c l h hC := by
    cases l with
    | env e => exact absurd trivial hC
    | proc i ch =>
      cases ch with
      | rollback => exact absurd trivial hC
      | go =>
        simp only [NotOvertaken, not_forall, not_not] at hC
        obtain ⟨c', hn, hi, j, hj, a, row, now, hlj, hk⟩ := hC
        have hji : (req j).codeHash = row.codeHash := by
          have hh := holds_reach h₀ h j
          rw [hlj] at hh
          exact hh.1.symm
        refine ⟨i, j, a, row, now, c', hj.symm, by rw [hji, hk], hlj, hn, hi, ?_⟩
        rintro ⟨x, hx⟩
        exact exists_second h₀ h hn hi hj hlj hk hx

/-! ### A race -/

omit [Runtime] [DecidableEq ι] in
/-- `root` approves the code of `bob` in two requests. -/
def sampleRequests : Bool → Request := fun _ =>
  .approve { code := "HGFEDCBA", permissions := ["chat"], operatorOpenid := "root" }

omit [Runtime] [DecidableEq ι] in
/-- `root` is an administrator, and `bob` has asked for a code. -/
def sampleConfig : Config Bool (Db Bool) Local where
  db :=
    { store := run (@step .sample 5) {} (sampleSetup.take 2 ++
        [.createPairingCode 0 "qqbot" "bob" "HGFEDCBA" 10])
      locks := fun _ => none
      now := seconds 20 }
  loc _ := .start

omit [Runtime] [DecidableEq ι] in
theorem code_used_once_sample : @UsesOnce .sample Bool _ sampleRequests sampleConfig :=
  @code_used_once .sample Bool _ sampleRequests sampleConfig fun _ => rfl

omit [Runtime] [DecidableEq ι] in
/-- The two approvals have been committed. -/
def bothCommitted (c : Config Bool (Db Bool) Local) : Bool :=
  match c.loc true, c.loc false with
  | .committed, .committed => true
  | _, _ => false

omit [Runtime] [DecidableEq ι] in
/-- Both requests read the code before either has consumed it. -/
theorem code_used_twice :
    ¬ ∀ (req : Bool → Request) (c₀ : Config Bool (Db Bool) Local), (∀ i, c₀.loc i = .start) →
      (∀ k, c₀.db.locks k = none) → ∀ c, (@system .sample Bool _ req).Reachable c₀ c →
        ∀ i j, c.loc i = .committed → c.loc j = .committed →
          @Request.codeHash .sample (req i) = @Request.codeHash .sample (req j) → i = j := by
  intro hall
  let _ := Runtime.sample
  have hrun : ∃ c, (system sampleRequests).Reachable sampleConfig c ∧ bothCommitted c = true :=
    Sys.exists_reachable
      [.proc true .go, .proc false .go, .proc true .go, .proc false .go, .proc true .go,
        .proc false .go] (by decide)
  obtain ⟨c, hc, hboth⟩ := hrun
  have hloc : c.loc true = .committed ∧ c.loc false = .committed := by
    unfold bothCommitted at hboth
    split at hboth
    · rename_i h1 h2
      exact ⟨h1, h2⟩
    · cases hboth
  have heq := hall sampleRequests sampleConfig (fun _ => rfl) (fun _ => rfl) c hc true false
    hloc.1 hloc.2 rfl
  cases heq

end EventServer.Services.CodeRaces
