import EventServer.Core.Processing

/-! # Provider leases

`scheduler/leases.py`: a runner claims the instances that are due and not leased, and releases each
when it is done with it. A claim also says when the instance is due next. -/

namespace EventServer.Scheduler.Leases

open EventServer.Db EventServer.Lib EventServer.Python
open EventServer.Core.Processing (checkpointOf)

/-- The two tables a claim writes. -/
structure Tables where
  instances : ProviderInstances := .empty
  checkpoints : ProviderCheckpoints := .empty

structure ClaimDue where
  owner : String
  limit : ℕ := 10
  leaseSeconds : ℤ := 60
  now : Time

structure ProviderLease where
  providerInstanceId : String
  providerKey : String
  config : JsonObject
  leaseUntil : Time

/-- The instance is due: a `NULL` compares as nothing, and is asked for. -/
def dueAt (now : Time) (row : ProviderInstance) : Bool :=
  match row.nextRunAt with
  | some t => t ≤ now
  | none => true

/-- The checkpoint holds no lease, or one that is over. -/
def leaseOver (now : Time) (checkpoint : ProviderCheckpoint) : Bool :=
  match checkpoint.leaseUntil with
  | some t => t < now
  | none => true

/-- The condition of `due_provider_statement`, with the row the outer join finds. -/
def due (now : Time) (row : ProviderInstance) (checkpoint : Option ProviderCheckpoint) : Bool :=
  row.enabled && dueAt now row && checkpoint.all (leaseOver now)

/-- `ORDER BY next_run_at, provider_instance_id`, where `NULL` comes first. -/
def before (row row' : ProviderInstance) : Bool :=
  match row.nextRunAt, row'.nextRunAt with
  | none, some _ => true
  | some _, none => false
  | none, none => row.providerInstanceId ≤ row'.providerInstanceId
  | some t, some t' =>
    t < t' || (t = t' && row.providerInstanceId ≤ row'.providerInstanceId)

/-- `due_provider_statement` on the rows that are not `locked`. -/
def dueProviderStatement (s : Tables) (locked : String → Bool) (now : Time) (limit : ℕ) :
    List ProviderInstance :=
  ((s.instances.rows.filter fun row => !locked row.providerInstanceId &&
    due now row (s.checkpoints.get row.providerInstanceId)).insertionSort
      fun row row' => before row row').take limit

namespace ClaimDue

def leaseUntil (a : ClaimDue) : Time := a.now + seconds a.leaseSeconds

/-- `instance.interval_seconds or lease_seconds`. -/
def interval (a : ClaimDue) (row : ProviderInstance) : ℤ :=
  match row.intervalSeconds with
  | some n => if n = 0 then a.leaseSeconds else n
  | none => a.leaseSeconds

/-- The assignments to the checkpoint. -/
def lease (a : ClaimDue) (checkpoint : ProviderCheckpoint) : ProviderCheckpoint :=
  { checkpoint with leaseOwner := some a.owner, leaseUntil := some a.leaseUntil }

/-- The assignment to the instance. -/
def schedule (a : ClaimDue) (row : ProviderInstance) : ProviderInstance :=
  { row with nextRunAt := some (a.now + seconds (a.interval row)) }

/-- What the runner is told about an instance. -/
def leased (a : ClaimDue) (row : ProviderInstance) : ProviderLease where
  providerInstanceId := row.providerInstanceId
  providerKey := row.providerKey
  config := row.config
  leaseUntil := a.leaseUntil

/-- The body of the loop. -/
def claimRow (a : ClaimDue) (s : Tables) (row : ProviderInstance) : Tables where
  instances := s.instances.put (a.schedule row)
  checkpoints := s.checkpoints.put (a.lease (checkpointOf s.checkpoints row.providerInstanceId))

end ClaimDue

/-- `claim_due_providers`. -/
def claimDueProviders (s : Tables) (a : ClaimDue) : Tables × List ProviderLease :=
  let rows := dueProviderStatement s (fun _ => false) a.now a.limit
  (rows.foldl a.claimRow s, rows.map a.leased)

/-- The checkpoint without a lease. -/
def free (checkpoint : ProviderCheckpoint) : ProviderCheckpoint :=
  { checkpoint with leaseOwner := none, leaseUntil := none }

/-- `release_provider_lease`. -/
def releaseProviderLease (s : Tables) (providerInstanceId owner : String) : Tables × Bool :=
  match s.checkpoints.get providerInstanceId with
  | none => (s, false)
  | some checkpoint =>
    if checkpoint.leaseOwner ≠ some owner then (s, false)
    else ({ s with checkpoints := s.checkpoints.put (free checkpoint) }, true)

/-! ### What is claimed -/

variable {s : Tables} {locked : String → Bool} {now : Time} {limit : ℕ} {row : ProviderInstance}

theorem mem_dueProviderStatement (h : row ∈ dueProviderStatement s locked now limit) :
    s.instances.get row.providerInstanceId = some row ∧ locked row.providerInstanceId = false ∧
      due now row (s.checkpoints.get row.providerInstanceId) = true := by
  have hmem := List.mem_of_mem_take h
  rw [List.mem_insertionSort, List.mem_filter, Bool.and_eq_true, Bool.not_eq_true'] at hmem
  exact ⟨Table.mem_iff_get.mp hmem.1, hmem.2.1, hmem.2.2⟩

theorem nodup_dueProviderStatement : ((dueProviderStatement s locked now limit).map
    ProviderInstance.providerInstanceId).Nodup := by
  unfold dueProviderStatement
  have hrows : (s.instances.rows.map ProviderInstance.providerInstanceId).Nodup :=
    s.instances.key_nodup
  have hfilter := hrows.sublist (List.Sublist.map ProviderInstance.providerInstanceId
    (List.filter_sublist (p := fun row => !locked row.providerInstanceId &&
      due now row (s.checkpoints.get row.providerInstanceId)) (l := s.instances.rows)))
  have hsort := ((List.perm_insertionSort (fun row row' => before row row') _).map
    ProviderInstance.providerInstanceId).nodup_iff.mpr hfilter
  exact hsort.sublist ((List.take_sublist limit _).map _)

end EventServer.Scheduler.Leases
