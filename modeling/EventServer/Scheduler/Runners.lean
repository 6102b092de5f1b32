import EventServer.Lib.Interleave
import EventServer.Lib.Leases
import EventServer.Core.Observations
import EventServer.Db.Session
import EventServer.Scheduler.Leases

/-! # Concurrent runners

`providers/warframe/runner.py`. Any number of runners poll the instances, each one transaction at a
time: a claim, and for each lease a transaction that processes the instance and releases the lease,
or one that records a failure and releases it. A claim locks instances and checkpoints, skipping
those that are locked. Processing locks the instance first, and the checkpoint when it writes it;
recording a failure reads the checkpoint without a lock and locks it when it writes it. Any
transaction can be rolled back, and a runner can stop at any point. What a transaction has written
is seen by others when it commits. A transaction that meets no other does what the functions it
calls do. -/

namespace EventServer.Scheduler.Runners

open EventServer.Db EventServer.Lib EventServer.Lib.Leases EventServer.Python
open EventServer.Core.Processing (checkpointOf countFailure)
open EventServer.Scheduler.Leases

/-! ### Transactions -/

structure Runner where
  owner : String
  limit : ℕ := 10
  leaseSeconds : ℤ := 60

def Runner.claim (r : Runner) (now : Time) : ClaimDue where
  owner := r.owner
  limit := r.limit
  leaseSeconds := r.leaseSeconds
  now := now

/-- The terms of a lease: the claim, the instance as it was selected, and the time of the commit. -/
structure Terms where
  claim : ClaimDue
  row : ProviderInstance
  committedAt : Time

/-- How a lease is released. -/
inductive Way where
  | processed
  | failed
  deriving DecidableEq

/-- The committed rows, who has locked which row, the clock, and the history. -/
structure Db (ι : Type) where
  tables : Tables
  instanceLocks : String → Option ι
  checkpointLocks : String → Option ι
  now : Time
  log : List (Event String ι Terms Way) := []

/-- What processing does to a checkpoint besides the lease. -/
structure Progress where
  apply : ProviderCheckpoint → ProviderCheckpoint
  key : ∀ c, (apply c).providerInstanceId = c.providerInstanceId
  leaseOwner : ∀ c, (apply c).leaseOwner = c.leaseOwner
  leaseUntil : ∀ c, (apply c).leaseUntil = c.leaseUntil

/-- Where a runner stands; `ids` are the leases it has not come to yet. -/
inductive Local where
  | idle
  /-- The claim has read the clock. -/
  | clock (now : Time)
  | selected (now : Time) (rows : List ProviderInstance)
  | working (ids : List String)
  /-- Processing has locked the instance. -/
  | locked (i : String) (ids : List String)
  | loaded (i : String) (ids : List String) (checkpoint : ProviderCheckpoint)
  | flushed (i : String) (ids : List String) (checkpoint : ProviderCheckpoint) (p : Progress)
  /-- A failure is to be recorded. -/
  | failing (i : String) (ids : List String)
  | read (i : String) (ids : List String) (checkpoint : ProviderCheckpoint)
  | counted (i : String) (ids : List String) (checkpoint : ProviderCheckpoint)
  | stopped

/-- What the transactions do not determine themselves. -/
inductive Choice where
  | go
  /-- Process the next lease. -/
  | process
  /-- Record a failure for the next lease. -/
  | fail
  /-- Flush what has been processed. -/
  | flush (p : Progress)
  | rollback
  | crash

/-- Time passes, an instance is enabled or disabled, or a new one is added. -/
inductive Env where
  | tick (d : ℕ)
  | enable (i : String) (enabled : Bool)
  | add (row : ProviderInstance)

/-- `UPDATE` of the checkpoint of an instance, if there is one. -/
def updateCheckpoint (s : Tables) (i : String)
    (f : ProviderCheckpoint → ProviderCheckpoint) : Tables :=
  match s.checkpoints.get i with
  | none => s
  | some checkpoint => { s with checkpoints := s.checkpoints.put (f checkpoint) }

/-- The flush of a checkpoint that was `loaded` and is free now: it carries the columns that have
changed. -/
def flushLease (loaded current : ProviderCheckpoint) : ProviderCheckpoint :=
  { current with
    leaseOwner := column loaded.leaseOwner none current.leaseOwner
    leaseUntil := column loaded.leaseUntil none current.leaseUntil }

/-- The row after a failure has been recorded by a session of `owner` that has loaded `loaded`. -/
def recordFailure (owner : String) (loaded current : ProviderCheckpoint) : ProviderCheckpoint :=
  let current := { current with consecutiveFailures := (countFailure loaded).consecutiveFailures }
  if loaded.leaseOwner = some owner then flushLease loaded current else current

namespace Db

variable {ι : Type} [DecidableEq ι]

def locked (db : Db ι) (i : String) : Bool :=
  (db.instanceLocks i).isSome || (db.checkpointLocks i).isSome

def lockInstance (db : Db ι) (w : ι) (i : String) : Db ι :=
  { db with instanceLocks := lockRows db.instanceLocks w [i] }

def lockCheckpoint (db : Db ι) (w : ι) (i : String) : Db ι :=
  { db with checkpointLocks := lockRows db.checkpointLocks w [i] }

/-- The rows a claim selects are locked; where there is no checkpoint, there is none to lock. -/
def lockSelected (db : Db ι) (w : ι) (rows : List ProviderInstance) : Db ι :=
  { db with
    instanceLocks := lockRows db.instanceLocks w (rows.map (·.providerInstanceId))
    checkpointLocks := lockRows db.checkpointLocks w ((rows.map (·.providerInstanceId)).filter
      fun i => (db.tables.checkpoints.get i).isSome) }

/-- The transaction of `w` has ended. -/
def release (db : Db ι) (w : ι) : Db ι :=
  { db with
    instanceLocks := releaseRows db.instanceLocks w
    checkpointLocks := releaseRows db.checkpointLocks w }

/-- The writes of a claim to one instance. -/
def claimRow (db : Db ι) (w : ι) (a : ClaimDue) (row : ProviderInstance) : Db ι :=
  { db with
    tables := a.claimRow db.tables row
    log := db.log ++ [.grant row.providerInstanceId w ⟨a, row, db.now⟩] }

/-- The writes of a transaction that has processed the instance `i`. -/
def writeProcessed (db : Db ι) (w : ι) (i : String) (loaded : ProviderCheckpoint) (p : Progress) :
    Db ι :=
  { db with
    tables := updateCheckpoint db.tables i fun current => p.apply (flushLease loaded current)
    log := db.log ++ [.release i w .processed] }

/-- The writes of a transaction that has recorded a failure. -/
def writeFailed (db : Db ι) (w : ι) (owner : String) (i : String) (loaded : ProviderCheckpoint) :
    Db ι :=
  { db with
    tables := updateCheckpoint db.tables i (recordFailure owner loaded)
    log := if loaded.leaseOwner = some owner then db.log ++ [.release i w .failed] else db.log }

end Db

variable {ι : Type} [DecidableEq ι]

/-- The moves of runner `w`. -/
def move (req : ι → Runner) (w : ι) : Choice → Db ι → Local → Option (Db ι × Local)
  | .go, db, .idle => some (db, .clock db.now)
  | .go, db, .clock now =>
    let rows := dueProviderStatement db.tables db.locked now (req w).limit
    some (db.lockSelected w rows, .selected now rows)
  | .go, db, .selected now rows =>
    some ((rows.foldl (fun db row => db.claimRow w ((req w).claim now) row) db).release w,
      .working (rows.map (·.providerInstanceId)))
  | .go, db, .working [] => some (db, .idle)
  | .process, db, .working (i :: ids) =>
    if db.instanceLocks i = none then
      match db.tables.instances.get i with
      | none => some (db, .failing i ids)
      | some row =>
        if row.enabled then some (db.lockInstance w i, .locked i ids) else some (db, .failing i ids)
    else none
  | .fail, db, .working (i :: ids) => some (db, .failing i ids)
  | .go, db, .locked i ids => some (db, .loaded i ids (checkpointOf db.tables.checkpoints i))
  | .flush p, db, .loaded i ids checkpoint =>
    if db.checkpointLocks i = none then
      some (db.lockCheckpoint w i, .flushed i ids checkpoint p)
    else none
  | .go, db, .flushed i ids checkpoint p =>
    if checkpoint.leaseOwner = some (req w).owner then
      some ((db.writeProcessed w i checkpoint p).release w, .working ids)
    else some (db.release w, .failing i ids)
  | .go, db, .failing i ids =>
    match db.tables.checkpoints.get i with
    | none => some (db, .stopped)
    | some checkpoint => some (db, .read i ids checkpoint)
  | .go, db, .read i ids checkpoint =>
    if db.checkpointLocks i = none then
      some (db.lockCheckpoint w i, .counted i ids checkpoint)
    else none
  | .go, db, .counted i ids checkpoint =>
    some ((db.writeFailed w (req w).owner i checkpoint).release w, .working ids)
  | .rollback, db, .clock _ => some (db, .idle)
  | .rollback, db, .selected _ _ => some (db.release w, .idle)
  -- the transaction is tried again, or a failure is recorded
  | .rollback, db, .locked i ids => some (db.release w, .working (i :: ids))
  | .rollback, db, .loaded i ids _ => some (db.release w, .working (i :: ids))
  | .rollback, db, .flushed i ids _ _ => some (db.release w, .working (i :: ids))
  | .rollback, db, .read i ids _ => some (db.release w, .failing i ids)
  | .rollback, db, .counted i ids _ => some (db.release w, .failing i ids)
  | .crash, db, _ => some (db.release w, .stopped)
  | _, _, _ => none

omit [DecidableEq ι] in
/-- A locked instance is not written by others. -/
def env : Env → Db ι → Option (Db ι)
  | .tick d, db => some { db with now := db.now + d }
  | .enable i enabled, db =>
    if db.instanceLocks i = none then
      match db.tables.instances.get i with
      | none => some db
      | some row => some
        { db with tables := { db.tables with
            instances := db.tables.instances.put { row with enabled := enabled } } }
    else none
  | .add row, db => (db.tables.instances.insert? row).map fun instances =>
    { db with tables := { db.tables with instances := instances } }

/-- Any number of runners. -/
def system (req : ι → Runner) : Sys ι Choice Env (Db ι) Local where
  move := move req
  env := env

/-- What a runner knows that is in no transaction. -/
def Outside : Local → Prop
  | .idle | .working _ | .failing _ _ | .stopped => True
  | _ => False

/-- The ways a runner can move. -/
inductive Moved (req : ι → Runner) (w : ι) (db : Db ι) : Choice → Local → Db ι → Local → Prop
  | clock : Moved req w db .go .idle db (.clock db.now)
  | select (now : Time) : Moved req w db .go (.clock now)
      (db.lockSelected w (dueProviderStatement db.tables db.locked now (req w).limit))
      (.selected now (dueProviderStatement db.tables db.locked now (req w).limit))
  | claim (now : Time) (rows : List ProviderInstance) : Moved req w db .go (.selected now rows)
      ((rows.foldl (fun db row => db.claimRow w ((req w).claim now) row) db).release w)
      (.working (rows.map (·.providerInstanceId)))
  | lock (i : String) (ids : List String) (hfree : db.instanceLocks i = none) :
    Moved req w db .process (.working (i :: ids)) (db.lockInstance w i) (.locked i ids)
  | load (i : String) (ids : List String) : Moved req w db .go (.locked i ids) db
      (.loaded i ids (checkpointOf db.tables.checkpoints i))
  | flush (i : String) (ids : List String) (loaded : ProviderCheckpoint) (p : Progress)
      (hfree : db.checkpointLocks i = none) :
    Moved req w db (.flush p) (.loaded i ids loaded) (db.lockCheckpoint w i)
      (.flushed i ids loaded p)
  | process (i : String) (ids : List String) (loaded : ProviderCheckpoint) (p : Progress)
      (howner : loaded.leaseOwner = some (req w).owner) :
    Moved req w db .go (.flushed i ids loaded p) ((db.writeProcessed w i loaded p).release w)
      (.working ids)
  | read (i : String) (ids : List String) (loaded : ProviderCheckpoint) :
    Moved req w db .go (.failing i ids) db (.read i ids loaded)
  | count (i : String) (ids : List String) (loaded : ProviderCheckpoint)
      (hfree : db.checkpointLocks i = none) :
    Moved req w db .go (.read i ids loaded) (db.lockCheckpoint w i) (.counted i ids loaded)
  | fail (i : String) (ids : List String) (loaded : ProviderCheckpoint) :
    Moved req w db .go (.counted i ids loaded) ((db.writeFailed w (req w).owner i loaded).release w)
      (.working ids)
  | turn (ch : Choice) (l l' : Local) (hl' : Outside l') : Moved req w db ch l db l'
  | release (ch : Choice) (l l' : Local) (hl' : Outside l') : Moved req w db ch l (db.release w) l'

theorem move_cases {req : ι → Runner} {w : ι} {ch : Choice} {db db' : Db ι} {l l' : Local}
    (h : move req w ch db l = some (db', l')) : Moved req w db ch l db' l' := by
  cases ch with
  | crash => cases h; exact .release _ _ _ trivial
  | rollback =>
    cases l with
    | clock now => cases h; exact .turn _ _ _ trivial
    | selected | locked | loaded | flushed | read | counted => cases h; exact .release _ _ _ trivial
    | idle | working | failing | stopped => cases h
  | fail =>
    cases l with
    | working ids =>
      cases ids with
      | nil => cases h
      | cons i ids => cases h; exact .turn _ _ _ trivial
    | _ => cases h
  | flush p =>
    cases l with
    | loaded i ids loaded =>
      simp only [move] at h
      split_ifs at h with hfree
      cases h
      exact .flush i ids loaded p hfree
    | _ => cases h
  | process =>
    cases l with
    | working ids =>
      cases ids with
      | nil => cases h
      | cons i ids =>
        simp only [move] at h
        by_cases hfree : db.instanceLocks i = none
        · rw [if_pos hfree] at h
          cases hrow : db.tables.instances.get i with
          | none =>
            rw [hrow] at h
            cases h
            exact .turn _ _ _ trivial
          | some row =>
            simp only [hrow] at h
            split_ifs at h
            · cases h
              exact .lock i ids hfree
            · cases h
              exact .turn _ _ _ trivial
        · rw [if_neg hfree] at h
          cases h
    | _ => cases h
  | go =>
    cases l with
    | idle => cases h; exact .clock
    | clock now => cases h; exact .select now
    | selected now rows => cases h; exact .claim now rows
    | working ids =>
      cases ids with
      | nil => cases h; exact .turn _ _ _ trivial
      | cons i ids => cases h
    | locked i ids => cases h; exact .load i ids
    | loaded => cases h
    | flushed i ids loaded p =>
      simp only [move] at h
      split_ifs at h with howner
      · cases h
        exact .process i ids loaded p howner
      · cases h
        exact .release _ _ _ trivial
    | failing i ids =>
      simp only [move] at h
      cases hget : db.tables.checkpoints.get i with
      | none =>
        rw [hget] at h
        cases h
        exact .turn _ _ _ trivial
      | some loaded =>
        rw [hget] at h
        cases h
        exact .read i ids loaded
    | read i ids loaded =>
      simp only [move] at h
      split_ifs at h with hfree
      cases h
      exact .count i ids loaded hfree
    | counted i ids loaded => cases h; exact .fail i ids loaded
    | stopped => cases h

/-! ### What is written -/

section Writes

variable {db : Db ι} {w : ι} {i k : String} {s : Tables}
  {f : ProviderCheckpoint → ProviderCheckpoint} {a : ClaimDue} {row : ProviderInstance}

omit [DecidableEq ι] in
theorem instances_updateCheckpoint : (updateCheckpoint s i f).instances = s.instances := by
  unfold updateCheckpoint
  cases s.checkpoints.get i <;> rfl

omit [DecidableEq ι] in
theorem get_updateCheckpoint (hf : ∀ c, (f c).providerInstanceId = c.providerInstanceId) :
    (updateCheckpoint s i f).checkpoints.get k =
      if k = i then (s.checkpoints.get k).map f else s.checkpoints.get k := by
  unfold updateCheckpoint
  cases hget : s.checkpoints.get i with
  | none =>
    split_ifs with hk
    · rw [hk, hget]
      rfl
    · rfl
  | some c =>
    have hkey : (f c).providerInstanceId = i := (hf c).trans (Table.key_of_get hget)
    simp only [Table.get_put, hkey]
    split_ifs with hk
    · rw [hk, hget]
      rfl
    · rfl

omit [DecidableEq ι] in
theorem get_instances_claimRow : (a.claimRow s row).instances.get k =
    if k = row.providerInstanceId then some (a.schedule row) else s.instances.get k := by
  unfold ClaimDue.claimRow
  rw [Table.get_put]
  rfl

omit [DecidableEq ι] in
theorem get_checkpoints_claimRow : (a.claimRow s row).checkpoints.get k =
    if k = row.providerInstanceId then
      some (a.lease (checkpointOf s.checkpoints row.providerInstanceId))
    else s.checkpoints.get k := by
  have hid := Core.Observations.checkpointOf_id s.checkpoints row.providerInstanceId
  unfold ClaimDue.claimRow
  rw [Table.get_put]
  show (if k = (checkpointOf s.checkpoints row.providerInstanceId).providerInstanceId
    then _ else _) = _
  rw [hid]

/-- What is recorded of a failure frees a lease, or leaves it as it was. -/
theorem recordFailure_lease (owner : String) (loaded current : ProviderCheckpoint) :
    (loaded.leaseOwner = some owner ∧ (recordFailure owner loaded current).leaseOwner = none) ∨
      (loaded.leaseOwner ≠ some owner ∧
        (recordFailure owner loaded current).leaseOwner = current.leaseOwner ∧
        (recordFailure owner loaded current).leaseUntil = current.leaseUntil) := by
  unfold recordFailure
  by_cases h : loaded.leaseOwner = some owner
  · refine Or.inl ⟨h, ?_⟩
    rw [if_pos h]
    exact column_of_ne (by rw [h]; simp) _
  · exact Or.inr ⟨h, by rw [if_neg h], by rw [if_neg h]⟩

omit [DecidableEq ι] in
theorem recordFailure_key (owner : String) (loaded current : ProviderCheckpoint) :
    (recordFailure owner loaded current).providerInstanceId = current.providerInstanceId := by
  unfold recordFailure
  split_ifs <;> rfl

omit [DecidableEq ι] in
theorem leaseOwner_processed {owner : String} {loaded current : ProviderCheckpoint} (p : Progress)
    (h : loaded.leaseOwner = some owner) :
    (p.apply (flushLease loaded current)).leaseOwner = none := by
  rw [p.leaseOwner]
  exact column_of_ne (by rw [h]; simp) _

end Writes

/-! ### One at a time -/

section Alone

/-- On a row that is as it was loaded, the flush frees the lease. -/
theorem flushLease_self (c : ProviderCheckpoint) : flushLease c c = free c := by
  unfold flushLease
  rw [column_self, column_self]
  rfl

/-- On a row that is as it was loaded, a failure is counted and the lease of the runner released. -/
theorem recordFailure_self (owner : String) (c : ProviderCheckpoint) : recordFailure owner c c =
    if c.leaseOwner = some owner then free (countFailure c) else countFailure c := by
  unfold recordFailure
  split_ifs
  · unfold flushLease
    simp only [column_self]
    rfl
  · rfl

/-- What `process` does to a checkpoint is a `Progress`. -/
theorem exists_progress [Runtime] {ρ : Type} {registry : Core.ProviderRegistry ρ}
    {provider : Core.Provider ρ} {db : Core.Processing.Db} {call : Core.Processing.Process ρ}
    {current : Core.Observation} {done : Core.Processing.Processed}
    (h : Core.Processing.processObservation registry provider db call current = .ok done) :
    ∃ p : Progress, done.db.checkpoints =
      db.checkpoints.put (p.apply (checkpointOf db.checkpoints call.providerInstanceId)) := by
  obtain ⟨-, -, hcases⟩ := Core.Observations.processObservation_ok h
  rcases hcases with ⟨-, -, -, hput⟩ | ⟨-, hput, -⟩
  · exact ⟨⟨fun c => Core.Processing.touch c current, fun _ => rfl, fun _ => rfl,
      fun _ => rfl⟩, hput⟩
  · exact ⟨⟨fun c => Core.Processing.advance c current, fun _ => rfl, fun _ => rfl, fun _ => rfl⟩,
      hput⟩

variable {req : ι → Runner} {w : ι} {db : Db ι}

omit [DecidableEq ι] in
theorem tables_foldl_claimRow (a : ClaimDue) (rows : List ProviderInstance) :
    (rows.foldl (fun db row => db.claimRow w a row) db).tables =
      rows.foldl a.claimRow db.tables := by
  induction rows generalizing db with
  | nil => rfl
  | cons row rows ih => exact ih

/-- **A claim that meets no lock** is `claim_due_providers`. -/
theorem solo_claim (hinstance : ∀ i, db.instanceLocks i = none)
    (hcheckpoint : ∀ i, db.checkpointLocks i = none) : ∃ db' ids,
      (system req).solo w db .idle [.go, .go, .go] = some (db', .working ids) ∧
      db'.tables = (claimDueProviders db.tables ((req w).claim db.now)).1 ∧
      ids = (claimDueProviders db.tables ((req w).claim db.now)).2.map (·.providerInstanceId) := by
  have hfree : db.locked = fun _ => false := by
    funext i
    simp [Db.locked, hinstance, hcheckpoint]
  refine ⟨_, _, rfl, ?_, ?_⟩
  · refine (tables_foldl_claimRow _ _).trans ?_
    rw [hfree]
    rfl
  · rw [hfree]
    simp [claimDueProviders, Runner.claim, Function.comp_def, ClaimDue.leased]

/-- **Processing that meets no other transaction** keeps its progress and releases the lease. -/
theorem solo_process {i : String} {ids : List String} {row : ProviderInstance}
    {c : ProviderCheckpoint} (p : Progress) (hrow : db.tables.instances.get i = some row)
    (henabled : row.enabled = true) (hget : db.tables.checkpoints.get i = some c)
    (howner : c.leaseOwner = some (req w).owner) (hinstance : ∀ i, db.instanceLocks i = none)
    (hcheckpoint : ∀ i, db.checkpointLocks i = none) : ∃ db',
      (system req).solo w db (.working (i :: ids)) [.process, .go, .flush p, .go] =
        some (db', .working ids) ∧
      db'.tables.instances = db.tables.instances ∧
      ∀ k, db'.tables.checkpoints.get k =
        if k = i then some (p.apply (free c)) else db.tables.checkpoints.get k := by
  refine ⟨((((db.lockInstance w i).lockCheckpoint w i).writeProcessed w i c p).release w), ?_, ?_,
    fun k => ?_⟩
  · simp [Sys.solo, system, move, hinstance, hrow, henabled, Db.lockInstance, hcheckpoint,
      checkpointOf, hget, howner]
  · exact instances_updateCheckpoint
  · have hf : ∀ current, (p.apply (flushLease c current)).providerInstanceId =
        current.providerInstanceId := fun current => p.key _
    refine (get_updateCheckpoint hf).trans ?_
    show (if k = i then (db.tables.checkpoints.get k).map _ else _) = _
    by_cases hk : k = i
    · rw [if_pos hk, if_pos hk, hk, hget, Option.map_some, flushLease_self]
    · rw [if_neg hk, if_neg hk]
      rfl

/-- **A failure that meets no other transaction** is counted, and the lease of the runner
released. -/
theorem solo_fail {i : String} {ids : List String} {c : ProviderCheckpoint}
    (hget : db.tables.checkpoints.get i = some c) (hcheckpoint : ∀ i, db.checkpointLocks i = none) :
    ∃ db', (system req).solo w db (.working (i :: ids)) [.fail, .go, .go, .go] =
        some (db', .working ids) ∧
      db'.tables.instances = db.tables.instances ∧
      ∀ k, db'.tables.checkpoints.get k = if k = i then
        some (if c.leaseOwner = some (req w).owner then free (countFailure c) else countFailure c)
      else db.tables.checkpoints.get k := by
  refine ⟨((db.lockCheckpoint w i).writeFailed w (req w).owner i c).release w, ?_, ?_, fun k => ?_⟩
  · simp [Sys.solo, system, move, hget, hcheckpoint]
  · exact instances_updateCheckpoint
  · refine (get_updateCheckpoint (recordFailure_key _ c)).trans ?_
    show (if k = i then (db.tables.checkpoints.get k).map _ else _) = _
    by_cases hk : k = i
    · rw [if_pos hk, if_pos hk, hk, hget, Option.map_some, recordFailure_self]
    · rw [if_neg hk, if_neg hk]
      rfl

end Alone

end EventServer.Scheduler.Runners
