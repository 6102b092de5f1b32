import EventServer.Lib.Interleave
import EventServer.Db.Session
import EventServer.Deliveries.Steps

/-! # Acknowledgements, failures and claims as concurrent transactions

Each call of the outbox is a transaction of its own, at READ COMMITTED. `ack` and `fail` load the
row with a plain `SELECT` and check it; later the session writes the columns that have changed by
primary key and commits. A claim locks the rows it selects, skipping rows that are locked, then
writes and commits. A write waits for the lock on its row. Time passes between the steps.

Nothing keeps a row as it was between the check of a report and its write. What the check has found
still holds at the write as long as nobody else writes the row in between (`lease_still_held`), and
fails to hold as soon as somebody does (`not_held_after_write`). -/

namespace EventServer.Deliveries.Races

open EventServer.Db EventServer.Lib EventServer.Python
open EventServer.Deliveries.Outbox
open EventServer.Deliveries.Steps (Call sampleDelivery mem_claimStatement leased_eq_ok
  exists_ack exists_fail ack_eq_ok fail_eq_ok status_of_holdsLease tokenHash_of_holdsLease)

/-! ### Reports -/

/-- A call of `ack` or `fail`. -/
inductive Report where
  | ack (a : Ack)
  | fail (a : Fail)

namespace Report

def deliveryId : Report → String
  | ack a => a.deliveryId
  | fail a => a.deliveryId

def leaseToken : Report → String
  | ack a => a.leaseToken
  | fail a => a.leaseToken

/-- The row as the report leaves it, when the clock reads `now`. -/
def apply (n : ℕ) (now : Time) : Report → Delivery → Delivery
  | ack a, d => { a with now := now }.apply d
  | fail a, d => { a with now := now }.apply n d

theorem status_apply (n : ℕ) (now : Time) (r : Report) (d : Delivery) :
    (r.apply n now d).status ≠ .leased := by
  cases r with
  | ack a => simp [apply, Ack.apply, clearLease]
  | fail a =>
    simp only [apply, Fail.apply, clearLease]
    split_ifs <;> simp

end Report

/-! ### What the session writes -/

/-- The stored row `current` after the flush of a row that was loaded as `loaded` and is now
`changed`. -/
def flush (loaded changed current : Delivery) : Delivery :=
  { current with
    status := column loaded.status changed.status current.status
    attempts := column loaded.attempts changed.attempts current.attempts
    nextAttemptAt := column loaded.nextAttemptAt changed.nextAttemptAt current.nextAttemptAt
    leaseOwner := column loaded.leaseOwner changed.leaseOwner current.leaseOwner
    leaseTokenHash := column loaded.leaseTokenHash changed.leaseTokenHash current.leaseTokenHash
    leaseUntil := column loaded.leaseUntil changed.leaseUntil current.leaseUntil
    sentAt := column loaded.sentAt changed.sentAt current.sentAt
    platformMessageId :=
      column loaded.platformMessageId changed.platformMessageId current.platformMessageId
    lastErrorCode := column loaded.lastErrorCode changed.lastErrorCode current.lastErrorCode }

theorem flush_key (loaded changed d : Delivery) :
    (flush loaded changed d).deliveryId = d.deliveryId := rfl

theorem flush_target (loaded changed d : Delivery) :
    (flush loaded changed d).target = d.target := rfl

/-- On a row that is as it was loaded, a flush is the assignments of the report. -/
theorem flush_loaded (n : ℕ) (now : Time) (r : Report) (d : Delivery) :
    flush d (r.apply n now d) d = r.apply n now d := by
  unfold flush
  simp only [column_self]
  cases r with
  | ack a => rfl
  | fail a =>
    simp only [Report.apply, Fail.apply, clearLease]
    split_ifs <;> rfl

theorem status_flush {n : ℕ} {now : Time} {r : Report} {loaded current : Delivery}
    (h : loaded.status = .leased) :
    (flush loaded (r.apply n now loaded) current).status ≠ .leased := by
  have hne := r.status_apply n now loaded
  show column loaded.status (r.apply n now loaded).status current.status ≠ .leased
  rw [h, column_of_ne hne]
  exact hne

/-! ### The transactions -/

inductive Request where
  | claim (a : Claim)
  | report (r : Report)

/-- The committed rows, who has locked which row, and the clock. -/
structure Db (ι : Type) where
  deliveries : Deliveries
  locks : String → Option ι
  now : Time

/-- Where a transaction stands, and what it holds in memory. -/
inductive Local where
  | start
  | checked (loaded changed : Delivery)
  | locked (a : Claim) (ids : List String)
  | committed
  | aborted

inductive Choice where
  | go
  | rollback

namespace Db

variable {ι : Type}

section Locks

variable [DecidableEq ι]

def lock (db : Db ι) (i : ι) (ids : List String) : Db ι :=
  { db with locks := lockRows db.locks i ids }

def release (db : Db ι) (i : ι) : Db ι :=
  { db with locks := releaseRows db.locks i }

end Locks

/-- The `UPDATE` of a report. -/
def write (db : Db ι) (loaded changed : Delivery) : Db ι :=
  { db with
    deliveries := db.deliveries.modifyIf (fun d => d.deliveryId = loaded.deliveryId)
      (flush loaded changed) (flush_key loaded changed) (flush_target loaded changed) }

variable [Runtime]

/-- The `UPDATE`s of a claim. -/
def lease (db : Db ι) (a : Claim) (ids : List String) : Db ι :=
  { db with
    deliveries := db.deliveries.modifyIf (fun d => d.deliveryId ∈ ids) a.lease a.lease_key
      a.lease_target }

omit [Runtime] in
theorem get_write (db : Db ι) (loaded changed : Delivery) (k : String) :
    (db.write loaded changed).deliveries.get k = (db.deliveries.get k).map fun d =>
      if k = loaded.deliveryId then flush loaded changed d else d := by
  have h := Table.get_modifyIf (t := db.deliveries) (k := k)
    (p := fun d => d.deliveryId = loaded.deliveryId) (flush_key loaded changed)
    (flush_target loaded changed)
  refine Eq.trans h ?_
  cases hg : db.deliveries.get k with
  | none => rfl
  | some d =>
    have hk : d.deliveryId = k := Table.key_of_get hg
    simp [hk]

theorem get_lease (db : Db ι) (a : Claim) (ids : List String) (k : String) :
    (db.lease a ids).deliveries.get k = (db.deliveries.get k).map fun d =>
      if k ∈ ids then a.lease d else d := by
  have h := Table.get_modifyIf (t := db.deliveries) (k := k) (p := fun d => d.deliveryId ∈ ids)
    a.lease_key a.lease_target
  refine Eq.trans h ?_
  cases hg : db.deliveries.get k with
  | none => rfl
  | some d =>
    have hk : d.deliveryId = k := Table.key_of_get hg
    simp [hk]

end Db

variable {ι : Type} [DecidableEq ι] [Runtime]

/-- The moves of the transaction that answers `req i`. -/
def move (n : ℕ) (req : ι → Request) (i : ι) : Choice → Db ι → Local → Option (Db ι × Local)
  | .go, db, .start =>
    match req i with
    | .report r =>
      match leased db.deliveries r.deliveryId r.leaseToken db.now with
      | .error _ => some (db, .aborted)
      | .ok d => some (db, .checked d (r.apply n db.now d))
    | .claim a =>
      let a := { a with now := db.now }
      let rows := claimStatement a (db.deliveries.rows.filter fun d => db.locks d.deliveryId = none)
      let ids := rows.map (·.deliveryId)
      some (db.lock i ids, .locked a ids)
  | .go, db, .checked loaded changed =>
    if db.locks loaded.deliveryId = none then some (db.write loaded changed, .committed) else none
  | .go, db, .locked a ids => some ((db.lease a ids).release i, .committed)
  | .rollback, db, .checked _ _ => some (db, .aborted)
  | .rollback, db, .locked _ _ => some (db.release i, .aborted)
  | _, _, _ => none

/-- Any number of requests against one outbox; the environment lets time pass. -/
def system (n : ℕ) (req : ι → Request) : Sys ι Choice ℕ (Db ι) Local where
  move := move n req
  env d db := some { db with now := db.now + d }

/-- The ways a transaction can move. -/
inductive Moved (n : ℕ) (req : ι → Request) (i : ι) (db : Db ι) :
    Choice → Local → Db ι → Local → Prop
  | refused : Moved n req i db .go .start db .aborted
  | check (r : Report) (d : Delivery) (hreq : req i = .report r)
    (hd : db.deliveries.get r.deliveryId = some d)
    (hl : holdsLease d r.leaseToken db.now = true) :
    Moved n req i db .go .start db (.checked d (r.apply n db.now d))
  | write (loaded changed : Delivery) (hfree : db.locks loaded.deliveryId = none) :
    Moved n req i db .go (.checked loaded changed) (db.write loaded changed) .committed
  | lock (a : Claim) (ids : List String) (hfree : ∀ k ∈ ids, db.locks k = none)
    (hel : ∀ k ∈ ids, ∃ d, db.deliveries.get k = some d ∧ eligible a.now d = true) :
    Moved n req i db .go .start (db.lock i ids) (.locked a ids)
  | lease (a : Claim) (ids : List String) :
    Moved n req i db .go (.locked a ids) ((db.lease a ids).release i) .committed
  | abandon (loaded changed : Delivery) :
    Moved n req i db .rollback (.checked loaded changed) db .aborted
  | release (a : Claim) (ids : List String) :
    Moved n req i db .rollback (.locked a ids) (db.release i) .aborted

theorem move_cases {n : ℕ} {req : ι → Request} {i : ι} {ch : Choice} {db db' : Db ι}
    {l l' : Local} (h : move n req i ch db l = some (db', l')) : Moved n req i db ch l db' l' := by
  cases ch with
  | rollback =>
    cases l with
    | checked loaded changed => cases h; exact .abandon loaded changed
    | locked a ids => cases h; exact .release a ids
    | start | committed | aborted => cases h
  | go =>
    cases l with
    | start =>
      cases hreq : req i with
      | report r =>
        cases hl : leased db.deliveries r.deliveryId r.leaseToken db.now with
        | error e =>
          simp only [move, hreq, hl, Option.some.injEq, Prod.mk.injEq] at h
          obtain ⟨rfl, rfl⟩ := h
          exact .refused
        | ok d =>
          simp only [move, hreq, hl, Option.some.injEq, Prod.mk.injEq] at h
          obtain ⟨rfl, rfl⟩ := h
          obtain ⟨hd, hh⟩ := leased_eq_ok.mp hl
          exact .check r d hreq hd hh
      | claim a =>
        simp only [move, hreq, Option.some.injEq, Prod.mk.injEq] at h
        obtain ⟨rfl, rfl⟩ := h
        refine .lock _ _ ?_ ?_
        · intro k hk
          obtain ⟨d, hd, rfl⟩ := List.mem_map.mp hk
          obtain ⟨hm, -, -⟩ := mem_claimStatement hd
          simpa using (List.mem_filter.mp hm).2
        · intro k hk
          obtain ⟨d, hd, rfl⟩ := List.mem_map.mp hk
          obtain ⟨hm, -, he⟩ := mem_claimStatement hd
          exact ⟨d, Table.mem_iff_get.mp (List.mem_filter.mp hm).1, he⟩
    | checked loaded changed =>
      simp only [move] at h
      split_ifs at h with hfree
      cases h
      exact .write loaded changed hfree
    | locked a ids => cases h; exact .lease a ids
    | committed | aborted => cases h

/-! ### One at a time -/

omit [DecidableEq ι] [Runtime] in
/-- The report as one call of the outbox. -/
def Report.call (now : Time) : Report → Call
  | .ack a => .ack { a with now := now }
  | .fail a => .fail { a with now := now }

omit [DecidableEq ι] in
/-- A report whose write follows its check directly is the call of the outbox. -/
theorem write_checked {n : ℕ} {db : Db ι} {r : Report} {d : Delivery}
    (h : leased db.deliveries r.deliveryId r.leaseToken db.now = .ok d) (k : String) :
    (db.write d (r.apply n db.now d)).deliveries.get k =
      (Steps.step n db.deliveries (r.call db.now)).get k := by
  obtain ⟨hg, hl⟩ := leased_eq_ok.mp h
  have hk : d.deliveryId = r.deliveryId := Table.key_of_get hg
  have hwrite : (db.write d (r.apply n db.now d)).deliveries.get k =
      if k = r.deliveryId then some (r.apply n db.now d) else db.deliveries.get k := by
    rw [Db.get_write, hk]
    by_cases hkr : k = r.deliveryId
    · rw [hkr, hg]
      simp [flush_loaded]
    · cases db.deliveries.get k <;> simp [hkr]
  have hcall : ∀ c, r.call db.now = c → (Steps.step n db.deliveries c).get k =
      if k = r.deliveryId then some (r.apply n db.now d) else db.deliveries.get k := by
    rintro c rfl
    cases r with
    | ack a =>
      obtain ⟨x, hok⟩ : ∃ x, Outbox.ack db.deliveries { a with now := db.now } = .ok x :=
        exists_ack h
      obtain ⟨d', hg', -, -, hget⟩ := ack_eq_ok hok
      rw [show db.deliveries.get a.deliveryId = some d from hg] at hg'
      cases hg'
      simp only [Report.call, Steps.step, hok]
      exact hget k
    | fail a =>
      obtain ⟨x, hok⟩ : ∃ x, fail n db.deliveries { a with now := db.now } = .ok x := exists_fail h
      obtain ⟨d', hg', -, -, hget⟩ := fail_eq_ok hok
      rw [show db.deliveries.get a.deliveryId = some d from hg] at hg'
      cases hg'
      simp only [Report.call, Steps.step, hok]
      exact hget k
  rw [hwrite, hcall _ rfl]

theorem lease_unlocked {n : ℕ} {req : ι → Request} {i : ι} {db : Db ι} {a : Claim}
    (hreq : req i = .claim a) (hfree : ∀ k, db.locks k = none) :
    ∃ ids, move n req i .go db .start = some (db.lock i ids, .locked { a with now := db.now } ids) ∧
      (db.lease { a with now := db.now } ids).deliveries =
        Steps.step n db.deliveries (.claim { a with now := db.now }) := by
  have hall : (db.deliveries.rows.filter fun d => db.locks d.deliveryId = none) =
      db.deliveries.rows := by
    rw [List.filter_eq_self]
    intro d _
    simp [hfree]
  have hmove : move n req i .go db .start =
      some (db.lock i ((claimStatement { a with now := db.now } db.deliveries.rows).map
        (·.deliveryId)), .locked { a with now := db.now }
          ((claimStatement { a with now := db.now } db.deliveries.rows).map (·.deliveryId))) := by
    simp only [move, hreq]
    rw [hall]
  exact ⟨_, hmove, rfl⟩

/-! ### What a transaction can rely on -/

omit [DecidableEq ι] [Runtime] in
/-- The rows the next statement of a transaction writes. -/
def Local.writes : Local → List String
  | .checked loaded _ => [loaded.deliveryId]
  | .locked _ ids => ids
  | _ => []

/-- A report remembers a check that succeeded; a claim has locked its rows, which are eligible. -/
def Knows (n : ℕ) (req : ι → Request) (i : ι) (db : Db ι) : Local → Prop
  | .checked loaded changed => ∃ r now, req i = .report r ∧ changed = r.apply n now loaded ∧
      loaded.deliveryId = r.deliveryId ∧ holdsLease loaded r.leaseToken now = true
  | .locked a ids => ∀ k ∈ ids, db.locks k = some i ∧
      ∃ d, db.deliveries.get k = some d ∧ eligible a.now d = true
  | _ => True

/-- The row a report has loaded is as it was then. -/
def Fresh (db : Db ι) : Local → Prop
  | .checked loaded _ => db.deliveries.get loaded.deliveryId = some loaded
  | _ => True

section Moves

variable {n : ℕ} {req : ι → Request} {i j : ι} {db db' : Db ι} {ch : Choice}
  {l l' : Local} {k : String}

theorem get_of_not_written (h : Moved n req i db ch l db' l') (hk : ch = .go → k ∉ l.writes) :
    db'.deliveries.get k = db.deliveries.get k := by
  cases h with
  | write loaded changed =>
    have hne : k ≠ loaded.deliveryId := by simpa [Local.writes] using hk rfl
    rw [Db.get_write]
    simp [hne]
  | lease a ids =>
    have hne : k ∉ ids := hk rfl
    have h' : ((db.lease a ids).release i).deliveries.get k = _ := db.get_lease a ids k
    rw [h']
    simp [hne]
  | refused | check | lock | abandon | release => rfl

theorem locked_frame (h : Moved n req i db ch l db' l') (hl : Knows n req i db l) (hj : j ≠ i)
    (hk : db.locks k = some j) :
    db'.locks k = some j ∧ db'.deliveries.get k = db.deliveries.get k := by
  constructor
  · cases h with
    | lock a ids hfree => exact lockRows_other hfree hk
    | lease a ids => exact releaseRows_other hk hj
    | release a ids => exact releaseRows_other hk hj
    | refused | check | write | abandon => exact hk
  · refine get_of_not_written h fun hgo hm => ?_
    cases h with
    | write loaded changed hfree =>
      rw [Local.writes, List.mem_singleton] at hm
      rw [hm, hfree] at hk
      cases hk
    | lease a ids =>
      have hi := (hl k hm).1
      rw [hk, Option.some_inj] at hi
      exact hj hi
    | refused | check | lock => exact List.not_mem_nil hm
    | abandon | release => cases hgo

/-- A move establishes what its transaction relies on. -/
theorem knows_own (h : Moved n req i db ch l db' l') : Knows n req i db' l' := by
  cases h with
  | check r d hreq hd hl => exact ⟨r, db.now, hreq, rfl, Table.key_of_get hd, hl⟩
  | lock a ids _ hel =>
    intro k hk
    exact ⟨lockRows_of_mem hk, hel k hk⟩
  | refused | write | lease | abandon | release => trivial

/-- The moves of others preserve it. -/
theorem knows_others (h : Moved n req i db ch l db' l') (hl : Knows n req i db l) (hj : j ≠ i)
    {lj : Local} (hlj : Knows n req j db lj) : Knows n req j db' lj := by
  cases lj with
  | checked loaded changed => exact hlj
  | locked a ids =>
    intro k hk
    obtain ⟨hlock, d, hd, he⟩ := hlj k hk
    obtain ⟨hlock', hget⟩ := locked_frame h hl hj hlock
    exact ⟨hlock', d, by rw [hget]; exact hd, he⟩
  | start | committed | aborted => trivial

theorem fresh_own (h : Moved n req i db ch l db' l') : Fresh db' l' := by
  cases h with
  | check r d _ hd =>
    have hk : d.deliveryId = r.deliveryId := Table.key_of_get hd
    show db.deliveries.get d.deliveryId = some d
    rw [hk]
    exact hd
  | refused | write | lock | lease | abandon | release => trivial

end Moves

/-! ### Over any schedule -/

omit [DecidableEq ι] [Runtime] in
/-- No transaction has begun. -/
structure Initial (c : Config ι (Db ι) Local) : Prop where
  loc : ∀ i, c.loc i = .start
  locks : ∀ k, c.db.locks k = none

omit [DecidableEq ι] [Runtime] in
/-- The move does not write a row that another transaction has checked and is about to write. -/
def Undisturbed (c : Config ι (Db ι) Local) : Label ι Choice ℕ → Prop
  | .proc i .go => ∀ j, j ≠ i → ∀ loaded changed, c.loc j = .checked loaded changed →
      loaded.deliveryId ∉ (c.loc i).writes
  | _ => True

section Reach

variable {n : ℕ} {req : ι → Request} {c₀ c c' : Config ι (Db ι) Local}
  {C : Config ι (Db ι) Local → Label ι Choice ℕ → Prop}

theorem knows_reach (h₀ : Initial c₀) (h : (system n req).Reach C c₀ c) :
    ∀ i, Knows n req i c.db (c.loc i) := by
  have hstart : ∀ i, Knows n req i c₀.db (c₀.loc i) := by
    intro i
    rw [h₀.loc i]
    trivial
  refine (h.interference_free (G := fun _ => True) (A := Knows n req) trivial hstart ?_ ?_ ?_).2
  · intro c i ch db l _ _ _ _ hm
    exact ⟨trivial, knows_own (move_cases hm)⟩
  · intro c i ch db l _ _ hA _ hm j hj
    exact knows_others (move_cases hm) (hA i) hj (hA j)
  · intro c d db _ _ hA _ hd
    cases hd
    refine ⟨trivial, fun j => ?_⟩
    have hj := hA j
    cases hlj : c.loc j <;> rw [hlj] at hj <;> exact hj

/-- **Undisturbed checks stay true**: under the condition, the row a report is about to write is as
it was loaded. -/
theorem fresh_reach (h₀ : Initial c₀) (h : (system n req).Reach Undisturbed c₀ c) :
    ∀ i, Fresh c.db (c.loc i) := by
  have hstart : ∀ i, Fresh c₀.db (c₀.loc i) := by
    intro i
    rw [h₀.loc i]
    trivial
  refine (h.interference_free (G := fun _ => True) (A := fun _ => Fresh) trivial hstart ?_ ?_ ?_).2
  · intro c i ch db l _ _ _ _ hm
    exact ⟨trivial, fresh_own (move_cases hm)⟩
  · intro c i ch db l _ _ hA hC hm j hj
    have hfresh := hA j
    cases hlj : c.loc j with
    | checked loaded changed =>
      rw [hlj] at hfresh
      have hget : db.deliveries.get loaded.deliveryId = c.db.deliveries.get loaded.deliveryId := by
        refine get_of_not_written (move_cases hm) fun hgo => ?_
        subst hgo
        exact hC j hj loaded changed hlj
      show db.deliveries.get loaded.deliveryId = some loaded
      rw [hget]
      exact hfresh
    | start | locked | committed | aborted => trivial
  · intro c d db _ _ hA _ hd
    cases hd
    refine ⟨trivial, fun j => ?_⟩
    have hj := hA j
    cases hlj : c.loc j <;> rw [hlj] at hj <;> exact hj

omit [DecidableEq ι] in
theorem lease_of_knows {i : ι} {db : Db ι} {loaded changed : Delivery}
    (h : Knows n req i db (.checked loaded changed)) : ∃ r, req i = .report r ∧
      loaded.deliveryId = r.deliveryId ∧ loaded.status = .leased ∧
      loaded.leaseTokenHash = some (tokenHash r.leaseToken) := by
  obtain ⟨r, now, hreq, -, hk, hl⟩ := h
  exact ⟨r, hreq, hk, status_of_holdsLease hl, tokenHash_of_holdsLease hl⟩

theorem sent_next (h₀ : Initial c₀) (h : (system n req).Reach Undisturbed c₀ c)
    {l : Label ι Choice ℕ} (hn : (system n req).next c l = some c') {k : String} {d : Delivery}
    (hd : c.db.deliveries.get k = some d) (hs : d.status = .sent) :
    c'.db.deliveries.get k = some d := by
  have hknows := knows_reach h₀ h
  have hfresh := fresh_reach h₀ h
  cases l with
  | env e =>
    obtain ⟨db, he, rfl⟩ := Sys.next_env.mp hn
    cases he
    exact hd
  | proc i ch =>
    obtain ⟨db, l', hm, rfl⟩ := Sys.next_proc.mp hn
    have hki := hknows i
    have hfi := hfresh i
    have hmoved := move_cases hm
    show db.deliveries.get k = some d
    rw [get_of_not_written hmoved fun _ hmem => ?_]
    · exact hd
    -- a row that is about to be written is leased, or eligible for a claim
    cases hl : c.loc i with
    | checked loaded changed =>
      rw [hl] at hki hfi hmem
      obtain ⟨-, -, -, hst, -⟩ := lease_of_knows hki
      have hkl : k = loaded.deliveryId := by simpa [Local.writes] using hmem
      have hld : d = loaded := by
        rw [hkl, hfi] at hd
        exact (Option.some_inj.mp hd).symm
      rw [hld, hst] at hs
      cases hs
    | locked a ids =>
      rw [hl] at hki hmem
      obtain ⟨-, d', hd', he⟩ := hki k hmem
      rw [hd] at hd'
      cases hd'
      simp [eligible, hs] at he
    | start | committed | aborted =>
      rw [hl] at hmem
      exact List.not_mem_nil hmem

/-! ### Disturbed checks -/

omit [DecidableEq ι] [Runtime] in
/-- The row is still leased under the token it was loaded with. -/
def StillHeld (db : Db ι) (loaded : Delivery) : Prop :=
  ∃ d, db.deliveries.get loaded.deliveryId = some d ∧ d.status = .leased ∧
    d.leaseTokenHash = loaded.leaseTokenHash

omit [DecidableEq ι] in
theorem not_held_of_report {db : Db ι} {loaded loaded' : Delivery} {r : Report} {now : Time}
    {token : String} (hhold : holdsLease loaded' token now = true)
    (hk : loaded.deliveryId = loaded'.deliveryId) :
    ¬ StillHeld (db.write loaded' (r.apply n now loaded')) loaded := by
  rintro ⟨d, hd, hs, -⟩
  rw [Db.get_write] at hd
  obtain ⟨d₀, -, hd₀⟩ := Option.map_eq_some_iff.mp hd
  rw [if_pos hk] at hd₀
  rw [← hd₀] at hs
  exact status_flush (status_of_holdsLease hhold) hs

omit [DecidableEq ι] in
/-- Once a claim has leased the row under a new token, it is not leased under the old one. -/
theorem not_held_of_claim {db : Db ι} {loaded : Delivery} {a : Claim} {ids : List String}
    (hids : loaded.deliveryId ∈ ids)
    (hnew : loaded.leaseTokenHash ≠ some (tokenHash (a.token loaded.deliveryId))) :
    ¬ StillHeld (db.lease a ids) loaded := by
  rintro ⟨d, hd, -, hh⟩
  rw [Db.get_lease] at hd
  obtain ⟨d₀, hget, hd₀⟩ := Option.map_eq_some_iff.mp hd
  have hk : d₀.deliveryId = loaded.deliveryId := Table.key_of_get hget
  rw [if_pos hids] at hd₀
  refine hnew ?_
  rw [← hh, ← hd₀, ← hk]
  rfl

/-- A report that has checked its row can write it unless it is locked. -/
theorem exists_write {j : ι} {loaded changed : Delivery} (hj : c.loc j = .checked loaded changed)
    (hfree : c.db.locks loaded.deliveryId = none) :
    ∃ c', (system n req).next c (.proc j .go) = some c' := by
  refine ⟨_, Sys.next_proc.mpr ⟨c.db.write loaded changed, .committed, ?_, rfl⟩⟩
  show move n req j .go c.db (c.loc j) = _
  rw [hj]
  simp only [move, hfree, if_true]

/-- **A disturbed check is no longer true**, and nothing stops the report that relies on it: once
another transaction has written the row, the row is not leased under that token any more, and the
report can write. -/
theorem not_held_after_write (h₀ : Initial c₀) (h : (system n req).Reachable c₀ c) {i j : ι}
    (hij : j ≠ i) {loaded changed : Delivery} (hj : c.loc j = .checked loaded changed)
    (hw : loaded.deliveryId ∈ (c.loc i).writes)
    (hnew : ∀ a ids, c.loc i = .locked a ids →
      loaded.leaseTokenHash ≠ some (tokenHash (a.token loaded.deliveryId)))
    (hn : (system n req).next c (.proc i .go) = some c') :
    ¬ StillHeld c'.db loaded ∧ ∃ c'', (system n req).next c' (.proc j .go) = some c'' := by
  have hki := knows_reach h₀ h i
  obtain ⟨db, l', hm, rfl⟩ := Sys.next_proc.mp hn
  have hlocj : Function.update c.loc i l' j = .checked loaded changed := by
    rw [Function.update_of_ne hij, hj]
  cases hl : c.loc i with
  | checked loaded' changed' =>
    rw [hl] at hm hki hw
    have hk : loaded.deliveryId = loaded'.deliveryId := by simpa [Local.writes] using hw
    obtain ⟨r, now, -, rfl, -, hhold⟩ := hki
    have hmoved : Moved n req i c.db .go (.checked loaded' (r.apply n now loaded')) db l' :=
      move_cases hm
    cases hmoved with
    | write _ _ hfree =>
      rw [← hk] at hfree
      exact ⟨not_held_of_report hhold hk, exists_write hlocj hfree⟩
  | locked a ids =>
    rw [hl] at hm hki hw
    have hlock := (hki loaded.deliveryId hw).1
    have hmoved : Moved n req i c.db .go (.locked a ids) db l' := move_cases hm
    cases hmoved with
    | lease =>
      exact ⟨not_held_of_claim hw (hnew a ids hl), exists_write hlocj (releaseRows_own hlock)⟩
  | start | committed | aborted =>
    rw [hl] at hw
    exact absurd hw List.not_mem_nil

end Reach

/-! ### The promises -/

/-- What can be said of the reports among the requests `req`. -/
structure KeepsToLease (n : ℕ) (req : ι → Request) (c₀ : Config ι (Db ι) Local) : Prop where
  /-- When a report writes, its row is as it was checked: leased under the token of the report. -/
  held : ∀ c, (system n req).Reach Undisturbed c₀ c → ∀ i loaded changed,
    c.loc i = .checked loaded changed → ∃ r, req i = .report r ∧
      c.db.deliveries.get r.deliveryId = some loaded ∧ loaded.status = .leased ∧
      loaded.leaseTokenHash = some (tokenHash r.leaseToken)
  /-- A delivery that has been committed as sent stays as it is. -/
  sent : ∀ c c', (system n req).Reach Undisturbed c₀ c → (system n req).Reach Undisturbed c c' →
    ∀ k d, c.db.deliveries.get k = some d → d.status = .sent → c'.db.deliveries.get k = some d
  /-- A disturbing write under a new token ends the lease of a report that can still write. -/
  disturbed : ∀ c c' i j loaded changed, (system n req).Reachable c₀ c → j ≠ i →
    c.loc j = .checked loaded changed → loaded.deliveryId ∈ (c.loc i).writes →
    (∀ a ids, c.loc i = .locked a ids →
      loaded.leaseTokenHash ≠ some (tokenHash (a.token loaded.deliveryId))) →
    (system n req).next c (.proc i .go) = some c' →
      ¬ StillHeld c'.db loaded ∧ ∃ c'', (system n req).next c' (.proc j .go) = some c''

/-- **Reports keep to their lease exactly if nobody writes between check and write.** -/
theorem lease_still_held {n : ℕ} {req : ι → Request} {c₀ : Config ι (Db ι) Local}
    (h₀ : Initial c₀) : KeepsToLease n req c₀ where
  held c h i loaded changed hi := by
    have hki := knows_reach h₀ h i
    have hfi := fresh_reach h₀ h i
    rw [hi] at hki hfi
    obtain ⟨r, hreq, hk, hs, hh⟩ := lease_of_knows hki
    exact ⟨r, hreq, by rw [← hk]; exact hfi, hs, hh⟩
  sent c c' h h' k d hd hs := by
    induction h' with
    | refl => exact hd
    | step hr _ hn ih => exact sent_next h₀ (h.trans hr) hn ih hs
  disturbed c c' i j loaded changed h hij hj hw hnew hn :=
    not_held_after_write h₀ h hij hj hw hnew hn

/-! ### Two races -/

omit [DecidableEq ι] [Runtime] in
/-- The worker of the first lease reports success and, by a second call, a failure; another worker
claims. -/
def sampleRequests : ℕ → Request
  | 0 => .report (.ack { deliveryId := "d-1", leaseToken := "token-1", now := 0 })
  | 1 => .report (.fail
      { deliveryId := "d-1", leaseToken := "token-1", now := 0, errorCode := "timeout",
        retryable := true })
  | _ => .claim
      { workerId := "w-2", platform := "qqbot", limit := 10, leaseSeconds := 60, now := 0,
        token := fun _ => "token-2" }

omit [DecidableEq ι] [Runtime] in
/-- A delivery that has just been claimed. -/
def sampleConfig : Config ℕ (Db ℕ) Local where
  db :=
    { deliveries := run (@Steps.step .sample 5) .empty
        [.enqueue 0 [sampleDelivery],
          .claim
            { workerId := "w-1", platform := "qqbot", limit := 10, leaseSeconds := 60, now := 0,
              token := fun _ => "token-1" }]
      locks := fun _ => none
      now := seconds 1 }
  loc := fun _ => .start

omit [DecidableEq ι] [Runtime] in
theorem lease_still_held_sample : @KeepsToLease ℕ _ .sample 5 sampleRequests sampleConfig :=
  @lease_still_held ℕ _ .sample 5 sampleRequests sampleConfig ⟨fun _ => rfl, fun _ => rfl⟩

omit [DecidableEq ι] [Runtime] in
/-- Status and lease owner of the delivery. -/
def sampleRow (c : Config ℕ (Db ℕ) Local) : Option (DeliveryStatus × Option String) :=
  (c.db.deliveries.get "d-1").map fun d => (d.status, d.leaseOwner)

omit [DecidableEq ι] [Runtime] in
/-- A delivery that has been sent goes back to the queue; and the lease of the second worker is
cleared by the first. -/
theorem written_without_lease :
    (∃ c, (@system ℕ _ .sample 5 sampleRequests).Reachable sampleConfig c ∧
      (sampleRow c, ((@system ℕ _ .sample 5 sampleRequests).next c (.proc 1 .go)).map sampleRow) =
        (some (.sent, none), some (some (.retry, none)))) ∧
    ∃ c, (@system ℕ _ .sample 5 sampleRequests).Reachable sampleConfig c ∧
      (sampleRow c, ((@system ℕ _ .sample 5 sampleRequests).next c (.proc 0 .go)).map sampleRow) =
        (some (.leased, some "w-2"), some (some (.sent, none))) := by
  constructor
  · refine Sys.exists_reachable [.proc 0 .go, .proc 1 .go, .proc 0 .go] ?_
    decide
  · refine Sys.exists_reachable [.proc 0 .go, .env 60000000, .proc 2 .go, .proc 2 .go] ?_
    decide

end EventServer.Deliveries.Races
