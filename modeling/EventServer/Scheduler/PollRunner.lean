import EventServer.Core.Scopes
import EventServer.Db.Transactions
import EventServer.Lib.Batch
import EventServer.Providers.WorldState
import EventServer.Scheduler.Leases

/-! # One batch of the poll runner

`WarframePollRunner.run_once` in `providers/warframe/runner.py`: it claims the instances that are
due, fetches the world state once, and processes each instance in a transaction of its own that
releases its lease. Where anything fails for an instance, a failure is recorded and the lease
released in another transaction. Transactions can meet deadlocks and lock timeouts; while the
database is available, each gets through within its attempts and has the effect of the operation
alone (`inTransaction_fst`, `inTransaction_db`). -/

namespace EventServer.Scheduler.PollRunner

open EventServer.Core EventServer.Core.Processing EventServer.Core.Scopes EventServer.Db
open EventServer.Db.Transactions (Operation OperationalError World runWithDeadlockRetry)
open EventServer.Lib EventServer.Providers EventServer.Providers.Warframe EventServer.Python
open EventServer.Scheduler.Leases

/-! ### Transactions -/

/-- The errors that sessions meet, while they run or when they commit. -/
structure Database where
  duringSession : ℕ → Option OperationalError := fun _ => none
  atCommit : ℕ → Option OperationalError := fun _ => none

/-- The session meets no error. -/
def Database.Undisturbed (d : Database) (session : ℕ) : Prop :=
  d.duringSession session = none ∧ d.atCommit session = none

/-- The errors are such that a new attempt may get over them, and one of three attempts does. -/
structure Database.Available (d : Database) : Prop where
  retriable : ∀ session exc, d.duringSession session = some exc ∨ d.atCommit session = some exc →
    exc.retriable = true
  soon : ∀ session, ∃ i < 3, d.Undisturbed (session + i)

/-- What a transaction of the runner raises by itself. -/
inductive RunError where
  | processing (e : ProcessingError)
  | runtimeError (message : String)

abbrev Raised := Transactions.Raised RunError

/-- An operation on a session, as the database lets it run. -/
def operation {T : Type} (d : Database) (body : Db → Except RunError (T × Db)) :
    Operation Db T RunError where
  run session db :=
    match d.duringSession session with
    | some exc => .error (.operational exc)
    | none => (body db).mapError .other
  commit session _ := (d.atCommit session).map .operational

/-- `run_with_deadlock_retry` with its defaults. -/
def inTransaction {T : Type} (d : Database) (body : Db → Except RunError (T × Db)) (w : World Db) :
    Except Raised T × World Db := runWithDeadlockRetry (operation d body) 3 (.finite (1 / 20)) w

/-! ### The runner -/

/-- `PollRunResult`. -/
structure PollRunResult where
  claimed : ℕ
  succeeded : ℕ := 0
  failed : ℕ := 0
  baselinesCreated : ℕ := 0
  eventsPublished : ℕ := 0

/-- A runner, and what it gets from outside in one batch. -/
structure Poll where
  owner : String
  limit : ℕ := 10
  /-- The clock at the claim. -/
  now : Time
  /-- What `client.fetch()` returns, or `none` if it raises. -/
  fetched : Option JsonObject
  /-- The clock when the raw data of an instance are normalized. -/
  clock : String → Time
  /-- The identifiers `uuid4` gives to the deliveries of an event of an instance. -/
  deliveryId : String → DomainEvent → String → String → String
  database : Database := {}

def Poll.claim (poll : Poll) : ClaimDue where
  owner := poll.owner
  limit := poll.limit
  now := poll.now

/-- The two tables of the leases. -/
def tables (db : Db) : Tables := ⟨db.instances, db.checkpoints⟩

def withTables (db : Db) (t : Tables) : Db :=
  { db with instances := t.instances, checkpoints := t.checkpoints }

/-- `release_provider_lease` on the whole database. -/
def release (owner : String) (db : Db) (providerInstanceId : String) : Db × Bool :=
  let (t, released) := releaseProviderLease (tables db) providerInstanceId owner
  (withTables db t, released)

variable [Runtime]

/-- `build_registry()`. -/
def registry (std : Stdlib) : ProviderRegistry Raw := (buildRegistry std none).toOption.getD {}

variable (std : Stdlib) (lib : WorldState.Library) (poll : Poll)

/-- The call of `process` for a lease. -/
def processCall (lease : ProviderLease) (raw : Raw) : Process Raw where
  providerInstanceId := lease.providerInstanceId
  raw := raw
  now := poll.clock lease.providerInstanceId
  deliveryId := poll.deliveryId lease.providerInstanceId

/-- `_process`. -/
def processLease (lease : ProviderLease) (raw : Raw) (db : Db) :
    Except RunError (ProcessingResult × Db) := do
  let done ← (process (registry std) db (processCall poll lease raw)).mapError .processing
  let (db, released) := release poll.owner done.db lease.providerInstanceId
  if released = false then
    .error (.runtimeError "provider lease was lost before processing completed")
  else .ok (done.result, db)

omit [Runtime] in
/-- The operation of `_record_failure`. -/
def recordLeaseFailure (lease : ProviderLease) (db : Db) : Except RunError (Unit × Db) := do
  let db ← (recordFailure db lease.providerInstanceId false).mapError .processing
  .ok ((), (release poll.owner db lease.providerInstanceId).1)

omit [Runtime] in
/-- The loop over `_record_failure` when nothing has been fetched. -/
def recordFailures : List ProviderLease → World Db → Except Raised Unit × World Db
  | [], w => (.ok (), w)
  | lease :: leases, w =>
    match inTransaction poll.database (recordLeaseFailure poll lease) w with
    | (.error e, w) => (.error e, w)
    | (.ok (), w) => recordFailures leases w

/-- `extract` and the transaction of `_process`; `none` if either raises. -/
def processInstance (payload : JsonObject) (lease : ProviderLease) (w : World Db) :
    Option ProcessingResult × World Db :=
  match WorldState.extract lib lease.providerKey payload with
  | .error _ => (none, w)
  | .ok raw =>
    match inTransaction poll.database (processLease std poll lease raw) w with
    | (.error _, w) => (none, w)
    | (.ok result, w) => (some result, w)

omit [Runtime] in
/-- The counters after an instance has been processed. -/
def PollRunResult.succeed (counts : PollRunResult) (result : ProcessingResult) : PollRunResult :=
  { counts with
    succeeded := counts.succeeded + 1
    baselinesCreated := counts.baselinesCreated + if result.baselineCreated then 1 else 0
    eventsPublished := counts.eventsPublished +
      (result.publications.map fun item => if item.created then 1 else 0).sum }

omit [Runtime] in
/-- The counters after one has failed. -/
def PollRunResult.fail (counts : PollRunResult) : PollRunResult :=
  { counts with failed := counts.failed + 1 }

/-- The loop over the leases. -/
def processAll (payload : JsonObject) : PollRunResult → List ProviderLease → World Db →
    Except Raised PollRunResult × World Db
  | counts, [], w => (.ok counts, w)
  | counts, lease :: leases, w =>
    match processInstance std lib poll payload lease w with
    | (some result, w) => processAll payload (counts.succeed result) leases w
    | (none, w) =>
      match inTransaction poll.database (recordLeaseFailure poll lease) w with
      | (.error e, w) => (.error e, w)
      | (.ok (), w) => processAll payload counts.fail leases w

/-- `run_once`, with what is claimed as a parameter. -/
def runClaiming (claimDue : Tables → Tables × List ProviderLease) (w : World Db) :
    Except Raised PollRunResult × World Db :=
  match inTransaction poll.database
    (fun db => .ok ((claimDue (tables db)).2, withTables db (claimDue (tables db)).1)) w with
  | (.error e, w) => (.error e, w)
  | (.ok leases, w) =>
    if leases.isEmpty then (.ok { claimed := 0 }, w)
    else
      match poll.fetched with
      | none =>
        match recordFailures poll leases w with
        | (.error e, w) => (.error e, w)
        | (.ok (), w) => (.ok { claimed := leases.length, failed := leases.length }, w)
      | some payload => processAll std lib poll payload { claimed := leases.length } leases w

/-- `run_once`. -/
def runOnce (w : World Db) : Except Raised PollRunResult × World Db :=
  runClaiming std lib poll (fun t => claimDueProviders t poll.claim) w

omit [Runtime] in
/-- The claim of the rows `rows`. -/
def claimRows (rows : List ProviderInstance) (t : Tables) : Tables × List ProviderLease :=
  (rows.foldl poll.claim.claimRow t, rows.map poll.claim.leased)

/-- `run_once` where the instance `row` is the only one that is claimed. -/
def runAlone (row : ProviderInstance) (w : World Db) : Except Raised PollRunResult × World Db :=
  runClaiming std lib poll (claimRows poll [row]) w

omit [Runtime] in
/-- The instances that are claimed. -/
def claimed (db : Db) : List ProviderInstance :=
  dueProviderStatement (tables db) (fun _ => false) poll.now poll.limit

/-! ### An available database -/

section Available

omit [Runtime]

variable {poll}
variable {T : Type} {d : Database} {body : Db → Except RunError (T × Db)} {w : World Db}

/-- What an operation does by itself. -/
def effect (body : Db → Except RunError (T × Db)) (db : Db) :
    Except (Transactions.Exn RunError) (T × Db) := (body db).mapError .other

theorem not_retriable_effect (db : Db) : ¬ Transactions.Retriable (effect body db) := by
  rintro ⟨exc, h, -⟩
  unfold effect at h
  cases hb : body db with
  | error e =>
    rw [hb] at h
    cases h
  | ok r =>
    rw [hb] at h
    cases h

/-- A session either has the effect of the operation, or meets an error to be retried. -/
theorem outcome_cases (hd : d.Available) (body : Db → Except RunError (T × Db))
    (session : ℕ) (db : Db) :
    (operation d body).outcome session db = effect body db ∨
      Transactions.Retriable ((operation d body).outcome session db) := by
  unfold Operation.outcome operation effect
  simp only
  cases hrun : d.duringSession session with
  | some exc => exact Or.inr ⟨exc, rfl, hd.retriable session exc (Or.inl hrun)⟩
  | none =>
    simp only
    cases body db with
    | error e => exact Or.inl rfl
    | ok r =>
      simp only [Except.mapError]
      cases hcommit : d.atCommit session with
      | none => exact Or.inl rfl
      | some exc => exact Or.inr ⟨exc, rfl, hd.retriable session exc (Or.inr hcommit)⟩

theorem outcome_of_undisturbed {session : ℕ} (h : d.Undisturbed session) (db : Db) :
    (operation d body).outcome session db = effect body db := by
  unfold Operation.outcome operation effect
  simp only [h.1, h.2]
  cases body db <;> rfl

theorem exists_ended (hd : d.Available) (body : Db → Except RunError (T × Db)) (w : World Db) : ∃ m,
    Transactions.EndedWith (operation d body) 3 (.finite (1 / 20)) w (inTransaction d body w) m ∧
      Transactions.outcome (operation d body) w m = effect body w.db := by
  have hpos : (1 : ℤ) ≤ 3 := by decide
  rcases Transactions.run_cases (operation d body) 3 (.finite (1 / 20)) w hpos with
    ⟨m, -, hend⟩ | ⟨hover, -⟩
  · refine ⟨m, hend, ?_⟩
    rcases outcome_cases hd body (w.sessions + m) w.db with heffect | hretriable
    · exact heffect
    · have hlast := hend.stopped hretriable
      obtain ⟨i, hi, hfree⟩ := hd.soon w.sessions
      have hretried : Transactions.Retriable (Transactions.outcome (operation d body) w i) := by
        rcases Nat.lt_or_ge i m with hlt | hge
        · exact (hend.retried i hlt).1
        · have him : i = m := by omega
          rw [him]
          exact hretriable
      have heffect : Transactions.outcome (operation d body) w i = effect body w.db :=
        outcome_of_undisturbed hfree w.db
      rw [heffect] at hretried
      exact absurd hretried (not_retriable_effect w.db)
  · exact absurd hover.1 (by decide)

/-- **While the database is available, a transaction returns what its operation returns** … -/
theorem inTransaction_fst (hd : d.Available) (body : Db → Except RunError (T × Db)) (w : World Db) :
    (inTransaction d body w).1 =
      ((body w.db).map Prod.fst).mapError fun e => .attempt (.other e) := by
  obtain ⟨m, hend, heffect⟩ := exists_ended hd body w
  rw [hend.value, heffect]
  unfold effect
  cases body w.db <;> rfl

/-- **… and has its effect.** -/
theorem inTransaction_db (hd : d.Available) (body : Db → Except RunError (T × Db)) (w : World Db) :
    (inTransaction d body w).2.db =
      ((body w.db).map Prod.snd).toOption.getD w.db := by
  obtain ⟨m, hend, heffect⟩ := exists_ended hd body w
  rw [hend.db, heffect]
  unfold effect
  cases body w.db <;> rfl

end Available

end EventServer.Scheduler.PollRunner
