import EventServer.Deliveries.Races
import Mathlib.Data.Set.Basic

/-! # Claims step by step

A claim reads the clock, selects and locks eligible rows with `FOR UPDATE SKIP LOCKED`, writes them
and commits or rolls back; each is a step of its own, so the time a claim compares leases with may
be long past when it selects. Reports run at the same time, and their `UPDATE` locks the row as
well. What a transaction has written is seen by others when it commits. New deliveries appear and
time passes between the steps.

`log` is the history of committed transactions. After a claim has committed a row, and until a
report on it commits, the row is leased at least until the end of that claim's lease (`Guarded`): a
later claim has locked a row whose lease was over at its own reading of the clock. -/

namespace EventServer.Deliveries.ClaimRaces

open EventServer.Db EventServer.Lib EventServer.Python
open EventServer.Deliveries.Outbox
open EventServer.Deliveries.Races (Report Request flush flush_key flush_target)
open EventServer.Deliveries.Steps (NewDelivery mem_claimStatement mem_claimStatement_of_limit
  leased_eq_ok sampleDelivery)

/-- A committed transaction: a claim with its reading of the clock and the rows it has selected, or
a report. -/
inductive Commit where
  | claim (a : Claim) (rows : List Delivery)
  | report (r : Report)

/-- The committed rows, who has locked which row, the clock, and the history. -/
structure Db (ι : Type) where
  deliveries : Deliveries
  locks : String → Option ι
  now : Time
  log : List Commit := []

/-- A row as it was loaded and as it has been changed. -/
structure Write where
  loaded : Delivery
  changed : Delivery

/-- Where a transaction stands, and what it holds in memory. -/
inductive Local where
  | start
  | clock (now : Time)
  | selected (a : Claim) (rows : List Delivery)
  | checked (r : Report) (w : Write)
  | updated (e : Commit) (ws : List Write)
  | committed (e : Commit)
  | rolledBack

inductive Choice where
  | go
  | rollback

inductive Event where
  | tick (d : ℕ)
  | enqueue (ds : List NewDelivery)

/-- The stored row after the writes to it. -/
def writeRow (ws : List Write) (current : Delivery) : Delivery :=
  match ws.find? fun w => w.loaded.deliveryId = current.deliveryId with
  | some w => flush w.loaded w.changed current
  | none => current

theorem writeRow_key (ws : List Write)
    (d : Delivery) : (writeRow ws d).deliveryId = d.deliveryId := by
  unfold writeRow
  split <;> rfl

theorem writeRow_target (ws : List Write) (d : Delivery) : (writeRow ws d).target = d.target := by
  unfold writeRow
  split <;> rfl

namespace Db

variable {ι : Type} [DecidableEq ι]

/-- The rows that are not locked. -/
def unlocked (db : Db ι) : List Delivery :=
  db.deliveries.rows.filter fun d => db.locks d.deliveryId = none

def lock (db : Db ι) (i : ι) (ids : List String) : Db ι :=
  { db with locks := lockRows db.locks i ids }

/-- The transaction has ended without effect. -/
def release (db : Db ι) (i : ι) : Db ι := { db with locks := releaseRows db.locks i }

/-- The transaction has ended and its writes are seen by all. -/
def commit (db : Db ι) (i : ι) (e : Commit) (ws : List Write) : Db ι :=
  { db with
    deliveries := db.deliveries.modify (writeRow ws) (writeRow_key ws) (writeRow_target ws)
    locks := releaseRows db.locks i
    log := db.log ++ [e] }

theorem get_commit (db : Db ι) (i : ι) (e : Commit) (ws : List Write) (k : String) :
    (db.commit i e ws).deliveries.get k = (db.deliveries.get k).map (writeRow ws) :=
  @Table.get_modify _ _ _ _ _ _ db.deliveries (writeRow ws) (writeRow_key ws) (writeRow_target ws) k

end Db

variable {ι : Type} [DecidableEq ι] [Runtime]

/-- The writes of a claim to the rows it has selected. -/
def claimWrites (a : Claim) (rows : List Delivery) : List Write := rows.map fun d => ⟨d, a.lease d⟩

/-- The moves of the transaction that answers `req i`. -/
def move (n : ℕ) (req : ι → Request) (i : ι) : Choice → Db ι → Local → Option (Db ι × Local)
  | .go, db, .start => some (db, .clock db.now)
  | .go, db, .clock now =>
    match req i with
    | .claim a =>
      let a := { a with now := now }
      let rows := claimStatement a db.unlocked
      some (db.lock i (rows.map (·.deliveryId)), .selected a rows)
    | .report r =>
      match leased db.deliveries r.deliveryId r.leaseToken now with
      | .error _ => some (db, .rolledBack)
      | .ok d => some (db, .checked r ⟨d, r.apply n now d⟩)
  | .go, db, .selected a rows => some (db, .updated (.claim a rows) (claimWrites a rows))
  | .go, db, .checked r w =>
    if db.locks w.loaded.deliveryId = none then
      some (db.lock i [w.loaded.deliveryId], .updated (.report r) [w])
    else none
  | .go, db, .updated e ws => some (db.commit i e ws, .committed e)
  | .rollback, db, .clock _ => some (db, .rolledBack)
  | .rollback, db, .selected _ _ => some (db.release i, .rolledBack)
  | .rollback, db, .checked _ _ => some (db, .rolledBack)
  | .rollback, db, .updated _ _ => some (db.release i, .rolledBack)
  | _, _, _ => none

omit [DecidableEq ι] [Runtime] in
/-- Time passes, or a publication commits new deliveries. -/
def env : Event → Db ι → Option (Db ι)
  | .tick d, db => some { db with now := db.now + d }
  | .enqueue ds, db =>
    (db.deliveries.insertAll? (ds.map Subtype.val)).map fun t => { db with deliveries := t }

/-- Any number of requests against one outbox. -/
def system (n : ℕ) (req : ι → Request) : Sys ι Choice Event (Db ι) Local where
  move := move n req
  env := env

/-- The ways a transaction can move. -/
inductive Moved (n : ℕ) (req : ι → Request) (i : ι) (db : Db ι) :
    Choice → Local → Db ι → Local → Prop
  | clock : Moved n req i db .go .start db (.clock db.now)
  | select (now : Time) (a : Claim) (hreq : req i = .claim a) :
    Moved n req i db .go (.clock now)
      (db.lock i ((claimStatement { a with now := now } db.unlocked).map (·.deliveryId)))
      (.selected { a with now := now } (claimStatement { a with now := now } db.unlocked))
  | refused (now : Time) : Moved n req i db .go (.clock now) db .rolledBack
  | check (now : Time) (r : Report) (d : Delivery) (hreq : req i = .report r)
    (hd : db.deliveries.get r.deliveryId = some d) :
    Moved n req i db .go (.clock now) db (.checked r ⟨d, r.apply n now d⟩)
  | update (a : Claim) (rows : List Delivery) :
    Moved n req i db .go (.selected a rows) db (.updated (.claim a rows) (claimWrites a rows))
  | lock (r : Report) (w : Write) (hfree : db.locks w.loaded.deliveryId = none) :
    Moved n req i db .go (.checked r w) (db.lock i [w.loaded.deliveryId]) (.updated (.report r) [w])
  | commit (e : Commit) (ws : List Write) :
    Moved n req i db .go (.updated e ws) (db.commit i e ws) (.committed e)
  | abandon (l : Local) : Moved n req i db .rollback l db .rolledBack
  | release (l : Local) : Moved n req i db .rollback l (db.release i) .rolledBack

theorem move_cases {n : ℕ} {req : ι → Request} {i : ι} {ch : Choice} {db db' : Db ι}
    {l l' : Local} (h : move n req i ch db l = some (db', l')) : Moved n req i db ch l db' l' := by
  cases ch with
  | rollback =>
    cases l with
    | clock now => cases h; exact .abandon _
    | checked r w => cases h; exact .abandon _
    | selected a rows => cases h; exact .release _
    | updated e ws => cases h; exact .release _
    | start | committed | rolledBack => cases h
  | go =>
    cases l with
    | start => cases h; exact .clock
    | clock now =>
      cases hreq : req i with
      | claim a =>
        simp only [move, hreq, Option.some.injEq, Prod.mk.injEq] at h
        obtain ⟨rfl, rfl⟩ := h
        exact .select now a hreq
      | report r =>
        cases hl : leased db.deliveries r.deliveryId r.leaseToken now with
        | error e =>
          simp only [move, hreq, hl, Option.some.injEq, Prod.mk.injEq] at h
          obtain ⟨rfl, rfl⟩ := h
          exact .refused now
        | ok d =>
          simp only [move, hreq, hl, Option.some.injEq, Prod.mk.injEq] at h
          obtain ⟨rfl, rfl⟩ := h
          exact .check now r d hreq (leased_eq_ok.mp hl).1
    | selected a rows => cases h; exact .update a rows
    | checked r w =>
      simp only [move] at h
      split_ifs at h with hfree
      cases h
      exact .lock r w hfree
    | updated e ws => cases h; exact .commit e ws
    | committed | rolledBack => cases h

/-! ### What a transaction writes -/

omit [DecidableEq ι] [Runtime] in
theorem writeRow_of_not_mem {ws : List Write} {d : Delivery}
    (h : ∀ w ∈ ws, w.loaded.deliveryId ≠ d.deliveryId) : writeRow ws d = d := by
  have hnone : (ws.find? fun w => w.loaded.deliveryId = d.deliveryId) = none := by
    rw [List.find?_eq_none]
    intro w hw
    simpa using h w hw
  unfold writeRow
  rw [hnone]

omit [DecidableEq ι] in
/-- On a row that is as it was selected, a flush is the assignments of the claim. -/
theorem flush_lease (a : Claim) (d : Delivery) : flush d (a.lease d) d = a.lease d := by
  unfold flush
  simp only [column_self]
  rfl

omit [Runtime] in
theorem get_commit_of_not_mem {db : Db ι} {i : ι} {e : Commit} {ws : List Write} {k : String}
    (h : ∀ w ∈ ws, w.loaded.deliveryId ≠ k) :
    (db.commit i e ws).deliveries.get k = db.deliveries.get k := by
  rw [Db.get_commit]
  cases hg : db.deliveries.get k with
  | none => rfl
  | some d =>
    have hk : d.deliveryId = k := Table.key_of_get hg
    rw [Option.map_some, writeRow_of_not_mem (by rw [hk]; exact h)]

/-! ### What a transaction can rely on -/

/-- The end of the lease a claim gives. -/
def until_ (a : Claim) : Time := a.now + seconds a.leaseSeconds

/-- What a claim has selected: at most `limit` rows of its platform, which it has locked and which
were eligible at its reading of the clock and have not changed since. -/
structure Selected (req : ι → Request) (i : ι) (db : Db ι) (a : Claim) (rows : List Delivery) :
    Prop where
  request : ∃ a₀, req i = .claim a₀ ∧ a = { a₀ with now := a.now }
  limit : rows.length ≤ a.limit
  locked : ∀ d ∈ rows, db.locks d.deliveryId = some i
  stored : ∀ d ∈ rows, db.deliveries.get d.deliveryId = some d
  platform : ∀ d ∈ rows, d.platform = a.platform
  eligible : ∀ d ∈ rows, eligible a.now d = true

/-- A claim relies on its selection, a report that has updated its row on the lock. -/
def Knows (req : ι → Request) (i : ι) (db : Db ι) : Local → Prop
  | .selected a rows => Selected req i db a rows
  | .checked r w => w.loaded.deliveryId = r.deliveryId
  | .updated (.claim a rows) ws => Selected req i db a rows ∧ ws = claimWrites a rows
  | .updated (.report r) ws =>
    ∀ w ∈ ws, w.loaded.deliveryId = r.deliveryId ∧ db.locks w.loaded.deliveryId = some i
  | _ => True

section Moves

variable {n : ℕ} {req : ι → Request} {i j : ι} {db db' : Db ι} {ch : Choice} {l l' : Local}

omit [DecidableEq ι] in
theorem locks_of_updated {e : Commit} {ws : List Write} (h : Knows req i db (.updated e ws)) :
    ∀ w ∈ ws, db.locks w.loaded.deliveryId = some i := by
  intro w hw
  cases e with
  | claim a rows =>
    obtain ⟨hsel, rfl⟩ := h
    obtain ⟨d, hd, rfl⟩ := List.mem_map.mp hw
    exact hsel.locked d hd
  | report r => exact (h w hw).2

theorem locked_frame (h : Moved n req i db ch l db' l') (hl : Knows req i db l) (hj : j ≠ i)
    {k : String} (hk : db.locks k = some j) :
    db'.locks k = some j ∧ db'.deliveries.get k = db.deliveries.get k := by
  cases h with
  | clock | refused | check | update | abandon => exact ⟨hk, rfl⟩
  | select now a =>
    refine ⟨lockRows_other (fun k' hk' => ?_) hk, rfl⟩
    obtain ⟨d, hd, rfl⟩ := List.mem_map.mp hk'
    have hm : d ∈ db.unlocked := (mem_claimStatement hd).1
    simpa [Db.unlocked] using (List.mem_filter.mp hm).2
  | lock r w hfree =>
    refine ⟨lockRows_other (fun k' hk' => ?_) hk, rfl⟩
    rw [List.mem_singleton.mp hk']
    exact hfree
  | release => exact ⟨releaseRows_other hk hj, rfl⟩
  | commit e ws =>
    refine ⟨releaseRows_other hk hj, get_commit_of_not_mem fun w hw he => ?_⟩
    have hi := locks_of_updated hl w hw
    rw [he, hk, Option.some_inj] at hi
    exact hj hi

omit [DecidableEq ι] [Runtime] in
theorem selected_select {now : Time} {a : Claim} (hreq : req i = .claim a) :
    Selected req i
      (db.lock i ((claimStatement { a with now := now } db.unlocked).map (·.deliveryId)))
      { a with now := now } (claimStatement { a with now := now } db.unlocked) where
  request := ⟨a, hreq, rfl⟩
  limit := List.length_take_le _ _
  locked _ hd := lockRows_of_mem (List.mem_map_of_mem hd)
  stored _ hd := Table.mem_iff_get.mp (List.mem_filter.mp (mem_claimStatement hd).1).1
  platform _ hd := (mem_claimStatement hd).2.1
  eligible _ hd := (mem_claimStatement hd).2.2

/-- A move establishes what its transaction relies on. -/
theorem knows_own (h : Moved n req i db ch l db' l') (hl : Knows req i db l) :
    Knows req i db' l' := by
  cases h with
  | select now a hreq => exact selected_select hreq
  | check now r d _ hd => exact (Table.key_of_get hd : d.deliveryId = _)
  | update a rows => exact ⟨hl, rfl⟩
  | lock r w =>
    intro w' hw'
    rw [List.mem_singleton.mp hw']
    exact ⟨hl, lockRows_of_mem List.mem_cons_self⟩
  | clock | refused | commit | abandon | release => trivial

theorem selected_others (h : Moved n req i db ch l db' l') (hl : Knows req i db l) (hj : j ≠ i)
    {a : Claim} {rows : List Delivery}
    (hs : Selected req j db a rows) : Selected req j db' a rows where
  request := hs.request
  limit := hs.limit
  locked d hd := (locked_frame h hl hj (hs.locked d hd)).1
  stored d hd := by rw [(locked_frame h hl hj (hs.locked d hd)).2]; exact hs.stored d hd
  platform := hs.platform
  eligible := hs.eligible

/-- The moves of others preserve it. -/
theorem knows_others (h : Moved n req i db ch l db' l') (hl : Knows req i db l) (hj : j ≠ i)
    {lj : Local} (hlj : Knows req j db lj) : Knows req j db' lj := by
  cases lj with
  | selected a rows => exact selected_others h hl hj hlj
  | checked r w => exact hlj
  | updated e ws =>
    cases e with
    | claim a rows => exact ⟨selected_others h hl hj hlj.1, hlj.2⟩
    | report r =>
      intro w hw
      exact ⟨(hlj w hw).1, (locked_frame h hl hj (hlj w hw).2).1⟩
  | start | clock | committed | rolledBack => trivial

theorem get_commit_claim {a : Claim} {rows : List Delivery} (hs : Selected req i db a rows)
    {d : Delivery} (hd : d ∈ rows) :
    (db.commit i (.claim a rows) (claimWrites a rows)).deliveries.get d.deliveryId =
      some (a.lease d) := by
  rw [Db.get_commit, hs.stored d hd, Option.map_some]
  unfold writeRow
  cases hf : (claimWrites a rows).find? fun w => w.loaded.deliveryId = d.deliveryId with
  | none =>
    have hne := List.find?_eq_none.mp hf ⟨d, a.lease d⟩ (List.mem_map_of_mem hd)
    simp at hne
  | some w =>
    have hkey : w.loaded.deliveryId = d.deliveryId := by simpa using List.find?_some hf
    obtain ⟨d', hd', rfl⟩ := List.mem_map.mp (List.mem_of_find?_eq_some hf)
    -- both rows are the stored one
    have heq : d' = d := by
      have h1 := hs.stored d' hd'
      rw [show d'.deliveryId = d.deliveryId from hkey, hs.stored d hd, Option.some_inj] at h1
      exact h1.symm
    subst heq
    exact congrArg some (flush_lease a d')

end Moves

/-- **A claim that meets no lock and no other transaction** is the call of the outbox. -/
theorem solo_claim {n : ℕ} {req : ι → Request} {i : ι} {db : Db ι} {a₀ a : Claim}
    (hreq : req i = .claim a₀) (ha : a = { a₀ with now := db.now })
    (hfree : ∀ k, db.locks k = none) :
    ∃ db' rows, (system n req).solo i db .start [.go, .go, .go, .go] =
        some (db', .committed (.claim a rows)) ∧
      ∀ k, db'.deliveries.get k = (claim db.deliveries a).1.get k := by
  have hall : db.unlocked = db.deliveries.rows := by
    rw [Db.unlocked, List.filter_eq_self]
    intro d _
    simp [hfree]
  obtain ⟨rows, hrows⟩ : ∃ rows, rows = claimStatement a db.deliveries.rows := ⟨_, rfl⟩
  have hsel : Selected req i (db.lock i (rows.map (·.deliveryId))) a rows := by
    rw [hrows, ha, ← hall]
    exact selected_select hreq
  refine ⟨(db.lock i (rows.map (·.deliveryId))).commit i (.claim a rows) (claimWrites a rows), rows,
    ?_, fun k => ?_⟩
  · simp only [Sys.solo, system, move, hreq, Option.bind_some, hall, ← ha, ← hrows]
  · rw [Steps.get_claim, ← hrows]
    by_cases hk : ∃ d ∈ rows, d.deliveryId = k
    · obtain ⟨d, hd, rfl⟩ := hk
      refine (get_commit_claim hsel hd).trans ?_
      rw [show db.deliveries.get d.deliveryId = some d from hsel.stored d hd, Option.map_some,
        if_pos (List.mem_map_of_mem hd)]
    · have hnot : k ∉ rows.map (·.deliveryId) := by
        rw [List.mem_map]
        exact hk
      rw [get_commit_of_not_mem (fun w hw he => ?_)]
      · show db.deliveries.get k = _
        cases db.deliveries.get k <;> simp [hnot]
      · obtain ⟨d, hd, rfl⟩ := List.mem_map.mp hw
        exact hk ⟨d, hd, he⟩

/-! ### The history -/

omit [DecidableEq ι] [Runtime] in
/-- None of the transactions is a report on `k`. -/
def NoReport (k : String) (log : List Commit) : Prop := ∀ r, .report r ∈ log → r.deliveryId ≠ k

omit [DecidableEq ι] [Runtime] in
/-- A row that a claim has committed and on which no report has been committed since is leased, at
least until the lease of that claim ends. -/
def Guarded (db : Db ι) : Prop :=
  ∀ pre mid a rows, db.log = pre ++ .claim a rows :: mid → ∀ d ∈ rows, NoReport d.deliveryId mid →
    ∃ d' u, db.deliveries.get d.deliveryId = some d' ∧ d'.status = .leased ∧
      d'.leaseUntil = some u ∧ until_ a ≤ u

omit [DecidableEq ι] [Runtime] in
/-- A claim that hands out a row another has handed out before, without a report in between, has
read the clock after the lease of the other was over. -/
def Apart (log : List Commit) : Prop :=
  ∀ pre mid post a rows b rows', log = pre ++ .claim a rows :: (mid ++ .claim b rows' :: post) →
    ∀ d ∈ rows, ∀ d' ∈ rows', d.deliveryId = d'.deliveryId → NoReport d.deliveryId mid →
      until_ a < b.now

omit [DecidableEq ι] [Runtime] in
/-- Every claim of the history is a request and hands out at most `limit` rows of its platform. -/
def Bounded (req : ι → Request) (log : List Commit) : Prop :=
  ∀ a rows, .claim a rows ∈ log → (∃ i a₀, req i = .claim a₀ ∧ a = { a₀ with now := a.now }) ∧
    rows.length ≤ a.limit ∧ ∀ d ∈ rows, d.platform = a.platform

omit [DecidableEq ι] [Runtime] in
/-- A row whose lease lasts at least until `t` and that is eligible at `now`. -/
theorem lt_of_eligible {now t u : Time} {d : Delivery} (hs : d.status = .leased)
    (hu : d.leaseUntil = some u) (ht : t ≤ u) (he : eligible now d = true) : t < now := by
  have hlt : u < now := by simpa [eligible, hs, leaseOver, hu] using he
  exact lt_of_le_of_lt ht hlt

omit [DecidableEq ι] [Runtime] in
theorem Guarded.mono {db db' : Db ι} (h : Guarded db) (hlog : db'.log = db.log)
    (hget : ∀ k d, db.deliveries.get k = some d → db'.deliveries.get k = some d) : Guarded db' := by
  intro pre mid a rows he d hd hno
  obtain ⟨d', u, hd', hs, hu, hle⟩ := h pre mid a rows (by rw [← hlog]; exact he) d hd hno
  exact ⟨d', u, hget _ _ hd', hs, hu, hle⟩

section Commits

variable {req : ι → Request} {i : ι} {db : Db ι}

theorem guarded_commit {e : Commit} {ws : List Write} (hg : Guarded db)
    (hk : Knows req i db (.updated e ws)) (hlease : ∀ i a, req i = .claim a → 0 ≤ a.leaseSeconds) :
    Guarded (db.commit i e ws) := by
  intro pre mid a rows hlog d hd hno
  rcases concat_cases hlog with ⟨rfl, -, rfl⟩ | ⟨mid', rfl, hlog'⟩
  · obtain ⟨hsel, rfl⟩ := hk
    exact ⟨_, _, get_commit_claim hsel hd, rfl, rfl, le_rfl⟩
  · have hno' : NoReport d.deliveryId mid' := fun r hr => hno r (List.mem_append_left _ hr)
    obtain ⟨d', u, hget, hs, hu, hle⟩ := hg pre mid' a rows hlog' d hd hno'
    have hkeep : (∀ w ∈ ws, w.loaded.deliveryId ≠ d.deliveryId) → ∃ d' u,
        (db.commit i e ws).deliveries.get d.deliveryId = some d' ∧ d'.status = .leased ∧
          d'.leaseUntil = some u ∧ until_ a ≤ u := fun hne =>
      ⟨d', u, by rw [get_commit_of_not_mem hne]; exact hget, hs, hu, hle⟩
    cases e with
    | report r =>
      have hne : r.deliveryId ≠ d.deliveryId := hno r (by simp)
      exact hkeep fun w hw => by rw [(hk w hw).1]; exact hne
    | claim b rows' =>
      obtain ⟨hsel, rfl⟩ := hk
      by_cases hm : ∃ d₁ ∈ rows', d₁.deliveryId = d.deliveryId
      · obtain ⟨d₁, hd₁, hkey⟩ := hm
        have hd₁' : d₁ = d' := by
          have h1 := hsel.stored d₁ hd₁
          rw [hkey, hget, Option.some_inj] at h1
          exact h1.symm
        have hlt : until_ a < b.now := lt_of_eligible hs hu hle (hd₁' ▸ hsel.eligible d₁ hd₁)
        have hpos : b.now ≤ until_ b := by
          obtain ⟨a₀, hreq, hb⟩ := hsel.request
          have h0 : 0 ≤ b.leaseSeconds := by rw [hb]; exact hlease i a₀ hreq
          have h1 : 0 ≤ seconds b.leaseSeconds := by unfold seconds; omega
          unfold until_
          exact le_add_of_nonneg_right h1
        refine ⟨b.lease d₁, until_ b, ?_, rfl, rfl, (hlt.trans_le hpos).le⟩
        rw [← hkey]
        exact get_commit_claim hsel hd₁
      · refine hkeep fun w hw he => hm ?_
        obtain ⟨d₁, hd₁, rfl⟩ := List.mem_map.mp hw
        exact ⟨d₁, hd₁, he⟩

theorem apart_commit {e : Commit} {ws : List Write} (hg : Guarded db) (ha : Apart db.log)
    (hk : Knows req i db (.updated e ws)) : Apart (db.commit i e ws).log := by
  intro pre mid post a rows b rows' hlog d hd d' hd' hkey hno
  have hlog' : db.log ++ [e] = (pre ++ .claim a rows :: mid) ++ .claim b rows' :: post := by
    simpa using (show db.log ++ [e] = _ from hlog)
  rcases concat_cases hlog' with ⟨rfl, hold, rfl⟩ | ⟨post', rfl, hold⟩
  · obtain ⟨hsel, -⟩ := hk
    obtain ⟨d₀, u, hget, hs, hu, hle⟩ := hg pre mid a rows hold d hd hno
    have hd₀ : d' = d₀ := by
      have h1 := hsel.stored d' hd'
      rw [← hkey, hget, Option.some_inj] at h1
      exact h1.symm
    exact lt_of_eligible hs hu hle (hd₀ ▸ hsel.eligible d' hd')
  · exact ha pre mid post' a rows b rows' (by simpa using hold) d hd d' hd' hkey hno

theorem bounded_commit {e : Commit} {ws : List Write} (hb : Bounded req db.log)
    (hk : Knows req i db (.updated e ws)) : Bounded req (db.commit i e ws).log := by
  intro a rows hm
  rcases List.mem_append.mp (show _ ∈ db.log ++ [e] from hm) with hm | hm
  · exact hb a rows hm
  · rw [List.mem_singleton] at hm
    subst hm
    obtain ⟨hsel, -⟩ := hk
    obtain ⟨a₀, hreq, ha⟩ := hsel.request
    exact ⟨⟨i, a₀, hreq, ha⟩, hsel.limit, hsel.platform⟩

end Commits

/-! ### Over any schedule -/

omit [DecidableEq ι] [Runtime] in
/-- No transaction has begun. -/
structure Initial (c : Config ι (Db ι) Local) : Prop where
  loc : ∀ i, c.loc i = .start
  locks : ∀ k, c.db.locks k = none
  log : c.db.log = []

/-- What holds of the committed rows and the history. -/
structure Safe (req : ι → Request) (db : Db ι) : Prop where
  guarded : Guarded db
  apart : Apart db.log
  bounded : Bounded req db.log

section Reach

variable {n : ℕ} {req : ι → Request} {c₀ c c' : Config ι (Db ι) Local}

omit [DecidableEq ι] in
/-- What a transaction relies on does not depend on the clock or on new deliveries. -/
theorem Knows.mono {i : ι} {db db' : Db ι} {l : Local} (hlocks : db'.locks = db.locks)
    (hget : ∀ k d, db.deliveries.get k = some d → db'.deliveries.get k = some d)
    (h : Knows req i db l) : Knows req i db' l := by
  have hsel : ∀ {a rows}, Selected req i db a rows → Selected req i db' a rows := fun hs =>
    { request := hs.request, limit := hs.limit, platform := hs.platform, eligible := hs.eligible
      locked := fun d hd => by rw [hlocks]; exact hs.locked d hd
      stored := fun d hd => hget _ d (hs.stored d hd) }
  cases l with
  | selected a rows => exact hsel h
  | checked r w => exact h
  | updated e ws =>
    cases e with
    | claim a rows => exact ⟨hsel h.1, h.2⟩
    | report r => exact fun w hw => ⟨(h w hw).1, by rw [hlocks]; exact (h w hw).2⟩
  | start | clock | committed | rolledBack => trivial

omit [DecidableEq ι] [Runtime] in
/-- The environment leaves the locks, the history and the rows that are stored alone. -/
theorem env_frame {e : Event} {db db' : Db ι} (h : env e db = some db') :
    db'.locks = db.locks ∧ db'.log = db.log ∧
      ∀ k d, db.deliveries.get k = some d → db'.deliveries.get k = some d := by
  cases e with
  | tick d => cases h; exact ⟨rfl, rfl, fun _ _ hg => hg⟩
  | enqueue ds =>
    obtain ⟨t, ht, rfl⟩ := Option.map_eq_some_iff.mp h
    refine ⟨rfl, rfl, fun k d hg => ?_⟩
    rcases Steps.get_enqueue db.deliveries (ds.map Subtype.val) k with h' | ⟨hnone, -⟩
    · rw [ht, Option.getD_some] at h'
      show t.get k = some d
      rw [h', hg]
    · rw [hnone] at hg
      cases hg

/-- **Every move keeps the rows of committed claims guarded and the history as it should be.** -/
theorem safe_reach (h₀ : Initial c₀) (hlease : ∀ i a, req i = .claim a → 0 ≤ a.leaseSeconds)
    (h : (system n req).Reachable c₀ c) : Safe req c.db ∧ ∀ i, Knows req i c.db (c.loc i) := by
  refine h.interference_free (G := Safe req) (A := fun i => Knows req i) ⟨?_, ?_, ?_⟩ ?_ ?_ ?_ ?_
  · intro pre mid a rows he
    rw [h₀.log] at he
    simp at he
  · intro pre mid post a rows b rows' he
    rw [h₀.log] at he
    simp at he
  · intro a rows hm
    rw [h₀.log] at hm
    exact absurd hm List.not_mem_nil
  · intro i
    rw [h₀.loc i]
    trivial
  · intro c i ch db l _ hG hA _ hm
    have hmoved := move_cases hm
    refine ⟨?_, knows_own hmoved (hA i)⟩
    have hk := hA i
    revert hk
    generalize c.loc i = li at hmoved
    intro hk
    cases hmoved with
    | commit e ws =>
      exact ⟨guarded_commit hG.guarded hk hlease, apart_commit hG.guarded hG.apart hk,
        bounded_commit hG.bounded hk⟩
    | clock | select | refused | check | update | lock | abandon | release =>
      exact ⟨hG.guarded.mono rfl fun _ _ hg => hg, hG.apart, hG.bounded⟩
  · intro c i ch db l _ _ hA _ hm j hj
    exact knows_others (move_cases hm) (hA i) hj (hA j)
  · intro c e db _ hG hA _ he
    obtain ⟨hlocks, hlog, hget⟩ := env_frame he
    refine ⟨⟨hG.guarded.mono hlog hget, ?_, ?_⟩, fun j => (hA j).mono hlocks hget⟩
    · rw [hlog]; exact hG.apart
    · rw [hlog]; exact hG.bounded

omit [Runtime] in
theorem eligible_mono {now now' : Time} (hle : now ≤ now') {d : Delivery}
    (h : eligible now d = true) : eligible now' d = true := by
  simp only [eligible, Bool.or_eq_true, Bool.and_eq_true, decide_eq_true_eq] at h ⊢
  rcases h with ⟨hs, ht⟩ | ⟨hs, ho⟩
  · exact Or.inl ⟨hs, ht.trans hle⟩
  · refine Or.inr ⟨hs, ?_⟩
    unfold leaseOver at ho ⊢
    cases hu : d.leaseUntil with
    | none => simp [hu] at ho
    | some u =>
      simp only [hu, decide_eq_true_eq] at ho ⊢
      exact lt_of_lt_of_le ho hle

end Reach

/-! ### The promises -/

omit [DecidableEq ι] [Runtime] in
/-- From its reading of the clock to the end of its lease. -/
def interval (a : Claim) : Set Time := {t | a.now ≤ t ∧ t ≤ until_ a}

/-- The rows a claim has selected and not committed yet. -/
def Local.inHand : Local → Option (Claim × List Delivery)
  | .selected a rows => some (a, rows)
  | .updated (.claim a rows) _ => some (a, rows)
  | _ => none

/-- What can be said of the claims among the requests `req`. -/
structure ClaimsDisjoint (n : ℕ) (req : ι → Request) (c₀ : Config ι (Db ι) Local) : Prop where
  /-- The lease intervals of two claims that hand out one delivery, with no report on it committed
  in between, do not overlap. -/
  disjoint : ∀ c, (system n req).Reachable c₀ c → ∀ pre mid post a rows b rows',
    c.db.log = pre ++ .claim a rows :: (mid ++ .claim b rows' :: post) →
    ∀ d ∈ rows, ∀ d' ∈ rows', d.deliveryId = d'.deliveryId → NoReport d.deliveryId mid →
      interval a ∩ interval b = ∅
  /-- A committed claim is one of the requests and hands out at most `limit` rows of its
  platform. -/
  bounded : ∀ c, (system n req).Reachable c₀ c → Bounded req c.db.log
  /-- A claim that is rolled back leaves its rows as it has found them, without a lock, and every
  claim with room for them that reads the clock no earlier selects them. -/
  rolledBack : ∀ c c' i a rows, (system n req).Reachable c₀ c → (c.loc i).inHand = some (a, rows) →
    (system n req).next c (.proc i .rollback) = some c' → c'.db.deliveries = c.db.deliveries ∧
    ∀ d ∈ rows, c'.db.deliveries.get d.deliveryId = some d ∧ c'.db.locks d.deliveryId = none ∧
      ∀ b : Claim, b.platform = a.platform → a.now ≤ b.now →
        c'.db.deliveries.rows.length ≤ b.limit → d ∈ claimStatement b c'.db.unlocked

/-- **Concurrent claims are disjoint**, in any interleaving of any number of claims and reports. -/
theorem claims_disjoint {n : ℕ} {req : ι → Request} {c₀ : Config ι (Db ι) Local} (h₀ : Initial c₀)
    (hlease : ∀ i a, req i = .claim a → 0 ≤ a.leaseSeconds) : ClaimsDisjoint n req c₀ where
  disjoint c h pre mid post a rows b rows' hlog d hd d' hd' hkey hno := by
    have hlt : until_ a < b.now :=
      (safe_reach h₀ hlease h).1.apart pre mid post a rows b rows' hlog d hd d' hd' hkey hno
    rw [Set.eq_empty_iff_forall_notMem]
    rintro t ⟨ht, ht'⟩
    exact absurd (ht.2.trans_lt hlt) (not_lt_of_ge ht'.1)
  bounded c h := (safe_reach h₀ hlease h).1.bounded
  rolledBack c c' i a rows h hhand hn := by
    have hk := (safe_reach h₀ hlease h).2 i
    obtain ⟨db, l', hm, rfl⟩ := Sys.next_proc.mp hn
    obtain ⟨hsel, hdb⟩ : Selected req i c.db a rows ∧ db = c.db.release i := by
      revert hk hm hhand
      generalize c.loc i = li
      intro hhand hk hm
      cases li with
      | selected a' rows' => cases hhand; cases hm; exact ⟨hk, rfl⟩
      | updated e ws =>
        cases e with
        | claim a' rows' => cases hhand; cases hm; exact ⟨hk.1, rfl⟩
        | report r => cases hhand
      | start | clock | checked | committed | rolledBack => cases hhand
    rw [hdb]
    refine ⟨rfl, fun d hd => ⟨hsel.stored d hd, releaseRows_own (hsel.locked d hd), ?_⟩⟩
    intro b hp hnow hlimit
    have hfree : d ∈ (c.db.release i).unlocked := by
      refine List.mem_filter.mpr ⟨Table.mem_of_get (hsel.stored d hd), ?_⟩
      have hnone : (c.db.release i).locks d.deliveryId = none := releaseRows_own (hsel.locked d hd)
      simpa using hnone
    refine mem_claimStatement_of_limit ((List.length_filter_le _ _).trans hlimit) hfree ?_ ?_
    · rw [hp]; exact hsel.platform d hd
    · exact eligible_mono hnow (hsel.eligible d hd)

omit [DecidableEq ι] [Runtime] in
/-- Two workers claim, one for a minute and one for ten. -/
def sampleRequests : Bool → Request
  | false => .claim
      { workerId := "w-1", platform := "qqbot", limit := 10, leaseSeconds := 60, now := 0,
        token := fun _ => "token-1" }
  | true => .claim
      { workerId := "w-2", platform := "qqbot", limit := 10, leaseSeconds := 600, now := 0,
        token := fun _ => "token-2" }

omit [DecidableEq ι] [Runtime] in
/-- One delivery to claim. -/
def sampleConfig : Config Bool (Db Bool) Local where
  db :=
    { deliveries := run (@Steps.step .sample 5) .empty [.enqueue 0 [sampleDelivery]]
      locks := fun _ => none
      now := seconds 1 }
  loc := fun _ => .start

omit [DecidableEq ι] [Runtime] in
theorem claims_disjoint_sample : @ClaimsDisjoint Bool _ .sample 5 sampleRequests sampleConfig :=
  @claims_disjoint Bool _ .sample 5 sampleRequests sampleConfig ⟨fun _ => rfl,
    fun _ => rfl, rfl⟩ (by
    intro i a h
    cases i <;> cases h <;> decide)

end EventServer.Deliveries.ClaimRaces
