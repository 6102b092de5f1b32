import EventServer.Providers.CetusCycle
import EventServer.Scheduler.PollIsolation

/-! # One bad provider does not disturb the others

What a batch of the poll runner comes to (`poll_isolates`). It counts every claimed instance as
succeeded or failed; each instance ends as it does when it is claimed alone, whatever the payload
holds for the others; a failed one has one more consecutive failure and is otherwise as it was; and
no lease is left. -/

namespace EventServer.Scheduler.PollBatch

open EventServer.Core EventServer.Core.Processing EventServer.Core.Scopes
open EventServer.Core.Observations (checkpointOf_id process_ok processObservation_ok recorded)
open EventServer.Db EventServer.Lib EventServer.Lib.Table
open EventServer.Db.Transactions (World)
open EventServer.Providers EventServer.Providers.Warframe EventServer.Python
open EventServer.Scheduler.Leases EventServer.Scheduler.PollRunner
  EventServer.Scheduler.PollIsolation

/-! ### Counting -/

section Counts

theorem foldl_count (results : List (Option ProcessingResult)) (counts : PollRunResult) :
    (results.foldl count counts).claimed = counts.claimed ∧
      (results.foldl count counts).succeeded = counts.succeeded + results.countP Option.isSome ∧
      (results.foldl count counts).failed = counts.failed + results.countP Option.isNone := by
  induction results generalizing counts with
  | nil => exact ⟨rfl, rfl, rfl⟩
  | cons result results ih =>
    obtain ⟨hclaimed, hsucceeded, hfailed⟩ := ih (count counts result)
    rw [List.foldl_cons, hclaimed, hsucceeded, hfailed, List.countP_cons, List.countP_cons]
    cases result with
    | none =>
      refine ⟨rfl, rfl, ?_⟩
      show counts.failed + 1 + _ = counts.failed + (_ + 1)
      omega
    | some r =>
      refine ⟨rfl, ?_, rfl⟩
      show counts.succeeded + 1 + _ = counts.succeeded + (_ + 1)
      omega

theorem countP_isSome_add_isNone {α : Type} (l : List (Option α)) :
    l.countP Option.isSome + l.countP Option.isNone = l.length := by
  induction l with
  | nil => rfl
  | cons a l ih =>
    rw [List.countP_cons, List.countP_cons, List.length_cons]
    cases a with
    | none =>
      simp only [Option.isSome_none, Option.isNone_none, Bool.false_eq_true, if_false, if_true]
      omega
    | some a =>
      simp only [Option.isSome_some, Option.isNone_some, Bool.false_eq_true, if_false, if_true]
      omega

theorem foldl_count_total (results : List (Option ProcessingResult)) (n : ℕ) :
    (results.foldl count { claimed := n }).succeeded +
      (results.foldl count { claimed := n }).failed =
      results.length := by
  obtain ⟨-, hsucceeded, hfailed⟩ := foldl_count results { claimed := n }
  rw [hsucceeded, hfailed, Nat.zero_add, Nat.zero_add]
  exact countP_isSome_add_isNone results

theorem foldl_count_none {results : List (Option ProcessingResult)} (h : ∀ r ∈ results, r = none)
    (counts : PollRunResult) :
    results.foldl count counts = { counts with failed := counts.failed + results.length } := by
  induction results generalizing counts with
  | nil => rfl
  | cons result results ih =>
    have hnone : result = none := h result List.mem_cons_self
    rw [List.foldl_cons, hnone, ih fun r hr => h r (List.mem_cons_of_mem result hr)]
    show ({ counts with failed := counts.failed + 1 + results.length } : PollRunResult) =
      { counts with failed := counts.failed + (results.length + 1) }
    congr 1
    omega

end Counts

/-! ### A batch -/

variable [Runtime] (std : Stdlib) (lib : WorldState.Library) (poll : Poll)

/-- The database after the rows have been claimed. -/
def afterClaim (db : Db) (rows : List ProviderInstance) : Db := run (claimOne poll) db rows

/-- The database after the batch. -/
def batch (db : Db) (rows : List ProviderInstance) : Db :=
  run (fun db row => settle std lib poll db (poll.claim.leased row)) (afterClaim poll db rows) rows

/-- The results of the batch. -/
def results (db : Db) (rows : List ProviderInstance) : List (Option ProcessingResult) :=
  outcomes (fun db row => settle std lib poll db (poll.claim.leased row))
    (fun db row => result std lib poll db (poll.claim.leased row)) (afterClaim poll db rows) rows

variable {std lib poll}
variable {rows : List ProviderInstance} {row : ProviderInstance} {db : Db} {w : World Db}

omit [Runtime] in
theorem withTables_claimRows (db : Db) (t : Tables) (rows : List ProviderInstance) :
    withTables db (rows.foldl poll.claim.claimRow t) = afterClaim poll (withTables db t) rows := by
  induction rows generalizing t with
  | nil => rfl
  | cons row rows ih => exact ih (poll.claim.claimRow t row)

omit [Runtime] in
theorem afterClaim_eq (db : Db) (rows : List ProviderInstance) :
    withTables db (claimRows poll rows (tables db)).1 = afterClaim poll db rows :=
  withTables_claimRows db (tables db) rows

omit [Runtime] in
theorem exists_checkpoint (db : Db) (rows : List ProviderInstance) (hmem : row ∈ rows) :
    ∃ stored, (afterClaim poll db rows).checkpoints.get row.providerInstanceId = some stored := by
  have hkept : ∀ rows db, (∃ stored, db.checkpoints.get row.providerInstanceId = some stored) →
      ∃ stored, (afterClaim poll db rows).checkpoints.get row.providerInstanceId = some stored := by
    intro rows db h
    exact run_invariant_all
      (I := fun db : Db => ∃ stored, db.checkpoints.get row.providerInstanceId = some stored)
      (fun _ _ hstored => get_put_isSome hstored) h rows
  induction rows generalizing db with
  | nil => cases hmem
  | cons row' rows ih =>
    rcases List.mem_cons.mp hmem with rfl | hrest
    · refine hkept rows _ ⟨poll.claim.lease (checkpointOf db.checkpoints row.providerInstanceId),
        ?_⟩
      rw [claimOne_eq, Table.get_put, lease_id, checkpointOf_id, if_pos rfl]
    · exact ih (claimOne poll db row') hrest

omit [Runtime] in
theorem haveCheckpoints_afterClaim (db : Db) (rows : List ProviderInstance) :
    HaveCheckpoints (rows.map poll.claim.leased) (afterClaim poll db rows) := by
  intro lease hmem
  obtain ⟨row, hrow, rfl⟩ := List.mem_map.mp hmem
  exact exists_checkpoint db rows hrow

theorem results_of_fetch_failed (hfetched : poll.fetched = none) (db : Db)
    (rows : List ProviderInstance) :
    ∀ r ∈ results std lib poll db rows, r = none := by
  refine outcomes_forall (fun db row => ?_) _ rows
  unfold result attempt
  simp only [hfetched]
  rfl

theorem length_results (db : Db) (rows : List ProviderInstance) :
    (results std lib poll db rows).length = rows.length := length_outcomes _ rows

/-- **A run that claims `rows` returns the counts of the batch and leaves its database.** -/
theorem runClaiming_eq (hd : poll.database.Available)
    {claimDue : Tables → Tables × List ProviderLease}
    (hclaim : claimDue (tables w.db) = claimRows poll rows (tables w.db)) :
    ∃ w', runClaiming std lib poll claimDue w =
        (.ok ((results std lib poll w.db rows).foldl count { claimed := rows.length }), w') ∧
      w'.db = batch std lib poll w.db rows := by
  have hvalue := inTransaction_fst hd
    (fun db => .ok ((claimDue (tables db)).2, withTables db (claimDue (tables db)).1)) w
  have hdb := inTransaction_db hd
    (fun db => .ok ((claimDue (tables db)).2, withTables db (claimDue (tables db)).1)) w
  simp only [Except.map, Except.mapError, Except.toOption, Option.getD_some, hclaim] at hvalue hdb
  rw [afterClaim_eq] at hdb
  unfold runClaiming
  generalize inTransaction poll.database
    (fun db => .ok ((claimDue (tables db)).2, withTables db (claimDue (tables db)).1)) w =
      r at hvalue hdb ⊢
  obtain ⟨value, w₁⟩ := r
  simp only at hvalue hdb
  subst hvalue
  have hleases : (claimRows poll rows (tables w.db)).2 = rows.map poll.claim.leased := rfl
  have hcheckpoints : HaveCheckpoints (rows.map poll.claim.leased) w₁.db := by
    rw [hdb]
    exact haveCheckpoints_afterClaim w.db rows
  simp only [hleases]
  by_cases hempty : (rows.map poll.claim.leased).isEmpty = true
  · rw [if_pos hempty]
    have hnil : rows = [] := by simpa using hempty
    subst hnil
    exact ⟨w₁, rfl, hdb⟩
  · rw [if_neg hempty]
    cases hfetched : poll.fetched with
    | none =>
      obtain ⟨w₂, hrecord, hdb₂⟩ := recordFailures_eq std lib hd hfetched w₁ hcheckpoints
      simp only [hrecord]
      rw [foldl_count_none (results_of_fetch_failed hfetched w.db rows), length_results,
        List.length_map]
      refine ⟨w₂, ?_, ?_⟩
      · simp
      · rw [hdb₂, hdb, run_map]
        rfl
    | some payload =>
      obtain ⟨w₂, hloop, hdb₂⟩ := processAll_eq std lib hd hfetched
        { claimed := (rows.map poll.claim.leased).length } w₁ hcheckpoints
      rw [hdb, run_map] at hdb₂
      rw [hdb, outcomes_map, List.length_map] at hloop
      rw [← List.length_map (f := poll.claim.leased)] at hloop ⊢
      exact ⟨w₂, hloop, hdb₂⟩

/-! ### Each instance for itself -/

section Alone

/-- The rows of a claim are stored, each once. -/
structure Claimable (db : Db) (rows : List ProviderInstance) : Prop where
  ids : (rows.map ProviderInstance.providerInstanceId).Nodup
  stored : ∀ row ∈ rows, db.instances.get row.providerInstanceId = some row

omit [Runtime] in
theorem Claimable.keepsKeys (h : Claimable db rows) : KeepsKeys rows db := by
  intro row hmem stored hstored
  rw [h.stored row hmem] at hstored
  rw [Option.some.inj hstored]

omit [Runtime] in
theorem Claimable.single (h : Claimable db rows) (hmem : row ∈ rows) : Claimable db [row] where
  ids := List.nodup_singleton _
  stored row' hmem' := by
    rw [List.mem_singleton.mp hmem']
    exact h.stored row hmem

omit [Runtime] in
theorem Claimable.nodup (h : Claimable db rows) : rows.Nodup := List.Nodup.of_map _ h.ids

variable (std lib) in
theorem only_afterClaim (h : Claimable db rows) (hmem : row ∈ rows) :
    (scopeOf std lib poll row).only (afterClaim poll db rows) =
      (scopeOf std lib poll row).only (claimOne poll db row) :=
  (local_claim std lib poll h.ids).only_run h.keepsKeys (List.Subset.refl rows) h.nodup hmem

omit [Runtime] in
theorem keepsKeys_afterClaim (h : Claimable db rows) :
    KeepsKeys rows (afterClaim poll db rows) := by
  refine run_invariant (C := fun _ row => row ∈ rows)
    (fun _ _ hkeys hmem => keepsKeys_claimOne h.ids hkeys hmem) h.keepsKeys ?_
  intro pre row post hsplit
  rw [hsplit]
  simp

/-- **What an instance sees of the batch is what it sees of a batch of its own.** -/
theorem only_batch (h : Claimable db rows)
    (hproviders : (rows.map ProviderInstance.providerKey).Nodup)
    (hcollision : NoCollision std lib poll rows) (hmem : row ∈ rows) :
    (scopeOf std lib poll row).only (batch std lib poll db rows) =
      (scopeOf std lib poll row).only (batch std lib poll db [row]) := by
  have hkeys : KeepsKeys rows (afterClaim poll db rows) := keepsKeys_afterClaim h
  have hone : KeepsKeys [row] (claimOne poll db row) := keepsKeys_afterClaim (h.single hmem)
  have hsettle := (local_settle h.ids hproviders hcollision).only_run hkeys (List.Subset.refl rows)
    h.nodup hmem
  calc (scopeOf std lib poll row).only (batch std lib poll db rows)
      = (scopeOf std lib poll row).only
          (settle std lib poll (afterClaim poll db rows) (poll.claim.leased row)) := hsettle
    _ = settle std lib poll ((scopeOf std lib poll row).only (afterClaim poll db rows))
          (poll.claim.leased row) := settle_only hkeys hmem
    _ = settle std lib poll ((scopeOf std lib poll row).only (claimOne poll db row))
          (poll.claim.leased row) := by rw [only_afterClaim std lib h hmem]
    _ = (scopeOf std lib poll row).only (batch std lib poll db [row]) :=
        (settle_only hone (List.mem_singleton_self row)).symm

theorem results_eq (h : Claimable db rows)
    (hproviders : (rows.map ProviderInstance.providerKey).Nodup)
    (hcollision : NoCollision std lib poll rows) : results std lib poll db rows =
      rows.map fun row => result std lib poll (claimOne poll db row) (poll.claim.leased row) := by
  have hkeys : KeepsKeys rows (afterClaim poll db rows) := keepsKeys_afterClaim h
  have hall : results std lib poll db rows = rows.map fun row =>
      result std lib poll (afterClaim poll db rows) (poll.claim.leased row) :=
    (local_settle h.ids hproviders hcollision).outcomes_eq_map (fun hk hmem =>
      result_only hk hmem) hkeys (List.Subset.refl rows) h.nodup
  rw [hall]
  refine List.map_congr_left fun row hmem => ?_
  have hone : KeepsKeys [row] (claimOne poll db row) := keepsKeys_afterClaim (h.single hmem)
  rw [result_only hkeys hmem, only_afterClaim std lib h hmem,
    ← result_only hone (List.mem_singleton_self row)]

/-! ### What becomes of one instance -/

omit [Runtime] in
theorem get_claimOne (db : Db) (row : ProviderInstance) :
    (claimOne poll db row).checkpoints.get row.providerInstanceId =
      some (poll.claim.lease (checkpointOf db.checkpoints row.providerInstanceId)) := by
  rw [claimOne_eq, Table.get_put, lease_id, checkpointOf_id, if_pos rfl]

omit [Runtime] in
theorem afterFailure_owned {lease : ProviderLease} {checkpoint : ProviderCheckpoint}
    (hget : db.checkpoints.get lease.providerInstanceId = some checkpoint)
    (howner : checkpoint.leaseOwner = some poll.owner) :
    ∃ checkpoints, afterFailure poll db lease = { db with checkpoints := checkpoints } ∧
      checkpoints.get lease.providerInstanceId = some (free (countFailure checkpoint)) := by
  have hstored : checkpoint.providerInstanceId = lease.providerInstanceId := Table.key_of_get hget
  have hid : (countFailure checkpoint).providerInstanceId = lease.providerInstanceId := hstored
  have hcounted : (db.checkpoints.put (countFailure checkpoint)).get lease.providerInstanceId =
      some (countFailure checkpoint) := by
    rw [Table.get_put, if_pos hid.symm]
  have hleased : (countFailure checkpoint).leaseOwner = some poll.owner := howner
  refine ⟨(db.checkpoints.put (countFailure checkpoint)).put (free (countFailure checkpoint)), ?_,
    ?_⟩
  · rw [afterFailure_of_get hget, release_owned hcounted hleased]
  · rw [Table.get_put]
    exact if_pos hid.symm

/-- An instance that has failed: only its checkpoint is written after the claim. -/
theorem settle_failed (h : attempt std lib poll (claimOne poll db row)
    (poll.claim.leased row) = none) :
    let db' := settle std lib poll (claimOne poll db row) (poll.claim.leased row)
    db'.store = db.store ∧ db'.observations = db.observations ∧
      db'.checkpoints.get row.providerInstanceId = some (free (countFailure
        (poll.claim.lease (checkpointOf db.checkpoints row.providerInstanceId)))) := by
  have hget : (claimOne poll db row).checkpoints.get (poll.claim.leased row).providerInstanceId =
      some (poll.claim.lease (checkpointOf db.checkpoints row.providerInstanceId)) :=
        get_claimOne db row
  have howner : (poll.claim.lease (checkpointOf db.checkpoints row.providerInstanceId)).leaseOwner =
      some poll.owner := rfl
  obtain ⟨checkpoints, hafter, hfreed⟩ := afterFailure_owned hget howner
  have hsettle : settle std lib poll (claimOne poll db row) (poll.claim.leased row) =
      afterFailure poll (claimOne poll db row) (poll.claim.leased row) := by
    unfold settle
    rw [h]
    rfl
  rw [hsettle, hafter]
  exact ⟨rfl, rfl, hfreed⟩

/-- An instance that has not failed: its counter is zero and its lease released. -/
theorem attempt_succeeded {r : ProcessingResult} {db' : Db}
    (h : attempt std lib poll (claimOne poll db row) (poll.claim.leased row) = some (r, db')) :
    ∃ checkpoint, db'.checkpoints.get row.providerInstanceId = some checkpoint ∧
      checkpoint.consecutiveFailures = 0 ∧ checkpoint.leaseOwner = none := by
  obtain ⟨payload, raw, done, -, -, hdone, hrelease, -⟩ := attempt_eq_some h
  obtain ⟨_, _, -, -, -, -, hobs⟩ := process_ok hdone
  obtain ⟨-, -, hcases⟩ := processObservation_ok hobs
  have hwritten : ∃ written, done.db.checkpoints = (claimOne poll db row).checkpoints.put written ∧
      written.providerInstanceId = row.providerInstanceId ∧ written.consecutiveFailures = 0 := by
    rcases hcases with ⟨-, -, -, hput⟩ | ⟨-, hput, -⟩
    · exact ⟨_, hput, checkpointOf_id _ _, rfl⟩
    · exact ⟨_, hput, checkpointOf_id _ _, rfl⟩
  obtain ⟨written, hput, hid, hzero⟩ := hwritten
  have hget : done.db.checkpoints.get row.providerInstanceId = some written := by
    rw [hput, Table.get_put, if_pos hid.symm]
  rcases release_cases poll.owner done.db row.providerInstanceId with
    ⟨stored, hstored, -, hfree⟩ | ⟨-, hlost⟩
  · have hsame : stored = written := Option.some.inj (hstored.symm.trans hget)
    have hdb : db' = { done.db with checkpoints := done.db.checkpoints.put (free stored) } :=
      congrArg Prod.fst (hrelease.symm.trans hfree)
    refine ⟨free stored, ?_, ?_, rfl⟩
    · have hfreed : (free stored).providerInstanceId = row.providerInstanceId := by
        rw [hsame]
        exact hid
      rw [hdb, Table.get_put]
      exact if_pos hfreed.symm
    · rw [hsame]
      exact hzero
  · have hfalse : true = false := congrArg Prod.snd (hrelease.symm.trans hlost)
    cases hfalse

end Alone

/-! ### The whole batch -/

omit [Runtime] in
/-- How often polling the instance has failed since it last succeeded. -/
def failures (db : Db) (row : ProviderInstance) : ℕ :=
  (checkpointOf db.checkpoints row.providerInstanceId).consecutiveFailures

variable (std) in
/-- The instance, its checkpoint, its observations and its events are the same. -/
structure SameFor (row : ProviderInstance) (db db' : Db) : Prop where
  instance_ : db.instances.get row.providerInstanceId = db'.instances.get row.providerInstanceId
  checkpoint : db.checkpoints.get row.providerInstanceId =
    db'.checkpoints.get row.providerInstanceId
  observations : (db.observations.rows.filter fun r =>
    r.providerInstanceId = row.providerInstanceId) =
    db'.observations.rows.filter fun r => r.providerInstanceId = row.providerInstanceId
  events : (db.store.eventOccurrences.rows.filter fun o =>
    o.eventKey ∈ eventKeysOf std row.providerKey) =
    db'.store.eventOccurrences.rows.filter fun o => o.eventKey ∈ eventKeysOf std row.providerKey
  deliveries : (db.store.deliveries.rows.filter fun d =>
    d.eventKey ∈ eventKeysOf std row.providerKey) =
    db'.store.deliveries.rows.filter fun d => d.eventKey ∈ eventKeysOf std row.providerKey

omit [Runtime] in
theorem SameFor.symm [Runtime] {db' : Db} (h : SameFor std row db db') : SameFor std row db' db :=
  ⟨h.instance_.symm, h.checkpoint.symm, h.observations.symm, h.events.symm, h.deliveries.symm⟩

theorem SameFor.trans {db' db'' : Db} (h : SameFor std row db db') (h' : SameFor std row db' db'') :
    SameFor std row db db'' :=
  ⟨h.instance_.trans h'.instance_, h.checkpoint.trans h'.checkpoint,
    h.observations.trans h'.observations, h.events.trans h'.events,
    h.deliveries.trans h'.deliveries⟩

variable (std lib poll) in
theorem sameFor_only (row : ProviderInstance) (db : Db) :
    SameFor std row ((scopeOf std lib poll row).only db) db where
  instance_ := get_restrict fun _ hr => hr
  checkpoint := get_restrict fun _ hr => hr
  observations := filter_restrict fun _ hr => of_decide_eq_true hr
  events := filter_restrict fun _ ho => Or.inl (of_decide_eq_true ho)
  deliveries := filter_restrict fun _ hd => Or.inl (of_decide_eq_true hd)

theorem sameFor_of_only {db' : Db} (h : (scopeOf std lib poll row).only db =
    (scopeOf std lib poll row).only db') : SameFor std row db db' := by
  have hleft := sameFor_only std lib poll row db
  rw [h] at hleft
  exact hleft.symm.trans (sameFor_only std lib poll row db')

variable (std) in
/-- What a failure leaves alone: the identity, the state and its hash, the observations and the
events. -/
structure Unchanged (row : ProviderInstance) (db db' : Db) : Prop where
  recorded : recorded db' row.providerInstanceId = recorded db row.providerInstanceId
  observations : (db'.observations.rows.filter fun r =>
    r.providerInstanceId = row.providerInstanceId) =
    db.observations.rows.filter fun r => r.providerInstanceId = row.providerInstanceId
  events : (db'.store.eventOccurrences.rows.filter fun o =>
    o.eventKey ∈ eventKeysOf std row.providerKey) =
    db.store.eventOccurrences.rows.filter fun o => o.eventKey ∈ eventKeysOf std row.providerKey
  deliveries : (db'.store.deliveries.rows.filter fun d =>
    d.eventKey ∈ eventKeysOf std row.providerKey) =
    db.store.deliveries.rows.filter fun d => d.eventKey ∈ eventKeysOf std row.providerKey

omit [Runtime] in
theorem failures_of_get {checkpoint : ProviderCheckpoint}
    (h : db.checkpoints.get row.providerInstanceId = some checkpoint) :
    failures db row = checkpoint.consecutiveFailures := by
  unfold failures checkpointOf
  rw [h]
  rfl

omit [Runtime] in
theorem recorded_of_get {checkpoint : ProviderCheckpoint} {i : String}
    (h : db.checkpoints.get i = some checkpoint) :
    recorded db i = (checkpoint.lastIdentity, checkpoint.state, checkpoint.stateHash) := by
  unfold recorded checkpointOf
  rw [h]
  rfl

/-- **What becomes of an instance that is settled right after its claim**: it has failed exactly if
its counter has gone up by one, which leaves everything else alone, and its lease is released. -/
theorem settle_claimed {db' : Db}
    (h : settle std lib poll (claimOne poll db row) (poll.claim.leased row) = db') :
    (result std lib poll (claimOne poll db row) (poll.claim.leased row) = none ↔
        failures db' row = failures db row + 1) ∧
      (failures db' row = failures db row + 1 → Unchanged std row db db') ∧
      ∃ checkpoint, db'.checkpoints.get row.providerInstanceId = some checkpoint ∧
        checkpoint.leaseOwner = none := by
  cases hattempt : attempt std lib poll (claimOne poll db row) (poll.claim.leased row) with
  | none =>
    obtain ⟨hstore, hobservations, hget⟩ := settle_failed hattempt
    have hresult : result std lib poll (claimOne poll db row) (poll.claim.leased row) = none := by
      unfold result
      rw [hattempt]
      rfl
    rw [h] at hstore hobservations hget
    have hcount : failures db' row = failures db row + 1 := failures_of_get hget
    have hrecorded := recorded_of_get hget
    refine ⟨⟨fun _ => hcount, fun _ => hresult⟩, fun _ => ⟨hrecorded, ?_, ?_, ?_⟩, _, hget, rfl⟩
    · rw [hobservations]
    · rw [hstore]
    · rw [hstore]
  | some r =>
    obtain ⟨result₁, db₁⟩ := r
    obtain ⟨checkpoint, hget, hzero, hreleased⟩ := attempt_succeeded hattempt
    have hresult : result std lib poll (claimOne poll db row)
        (poll.claim.leased row) = some result₁ := by
      unfold result
      rw [hattempt]
      rfl
    have hdb : db' = db₁ := by
      rw [← h]
      unfold settle
      rw [hattempt]
      rfl
    subst hdb
    have hcount : ¬ failures db' row = failures db row + 1 := by
      rw [failures_of_get hget, hzero]
      omega
    rw [hresult]
    exact ⟨⟨nofun, fun hone => absurd hone hcount⟩, fun hone => absurd hone hcount,
      checkpoint, hget, hreleased⟩

variable (std lib poll) in
/-- What is said of a claimed instance when a batch has led from `w` to `w'`. -/
structure Isolated (w w' : World Db) (row : ProviderInstance) : Prop where
  /-- It is as it would be if it had been claimed alone, and counted as failed then exactly if its
  counter has gone up by one. -/
  alone : ∃ counts w₁, runAlone std lib poll row w = (.ok counts, w₁) ∧
    SameFor std row w'.db w₁.db ∧
    counts.succeeded + counts.failed = 1 ∧
    (counts.failed = 1 ↔ failures w'.db row = failures w.db row + 1)
  /-- It is as it would be with any other data in the sections of other providers. -/
  sections : ∀ payload payload', poll.fetched = some payload →
    (∀ section_ ∈ WorldState.sections row.providerKey,
      payload'.lookup section_ = payload.lookup section_) →
    NoCollision std lib { poll with fetched := some payload' } (claimed poll w.db) →
    ∃ counts w₁, runOnce std lib { poll with fetched := some payload' } w = (.ok counts, w₁) ∧
      SameFor std row w'.db w₁.db
  /-- If it has failed, nothing else has changed. -/
  failed : failures w'.db row = failures w.db row + 1 → Unchanged std row w.db w'.db
  /-- Its lease is released. -/
  released : ∃ checkpoint, w'.db.checkpoints.get row.providerInstanceId = some checkpoint ∧
    checkpoint.leaseOwner = none

variable (std lib poll) in
/-- What is said of a batch that has led from `w` to `w'` with the result `counts`. -/
structure Isolates (w : World Db) (counts : PollRunResult) (w' : World Db) : Prop where
  claimed : counts.claimed = (claimed poll w.db).length
  counted : counts.claimed = counts.succeeded + counts.failed
  failed : counts.failed = (PollRunner.claimed poll w.db).countP fun row =>
    failures w'.db row = failures w.db row + 1
  rows : ∀ row ∈ PollRunner.claimed poll w.db, Isolated std lib poll w w' row

omit [Runtime] in
theorem claimable_claimed (poll : Poll) (db : Db) : Claimable db (claimed poll db) where
  ids := nodup_dueProviderStatement
  stored _ hmem := (mem_dueProviderStatement hmem).1

/-- What is extracted for an instance with another payload that has the same sections. -/
theorem settle_congr {payload payload' : JsonObject} (hfetched : poll.fetched = some payload)
    (hsections : ∀ section_ ∈ WorldState.sections row.providerKey,
      payload'.lookup section_ = payload.lookup section_) (db : Db) :
    settle std lib { poll with fetched := some payload' } db (poll.claim.leased row) =
      settle std lib poll db (poll.claim.leased row) := by
  have hextract : WorldState.extract lib (poll.claim.leased row).providerKey payload' =
      WorldState.extract lib (poll.claim.leased row).providerKey payload :=
    WorldState.extract_congr lib hsections
  have hattempt : attempt std lib { poll with fetched := some payload' } db
    (poll.claim.leased row) = attempt std lib poll db (poll.claim.leased row) := by
    unfold attempt
    simp only [hfetched, hextract]
    rfl
  unfold settle
  rw [hattempt]
  rfl

section Same

variable {db' : Db}

omit [Runtime] in
theorem SameFor.failures_eq [Runtime]
    (h : SameFor std row db db') : failures db row = failures db' row := by
  unfold failures checkpointOf
  rw [h.checkpoint]

/-- An instance that is as it is after a batch of its own: that batch is the claim of it alone. -/
theorem exists_runAlone (hd : poll.database.Available)
    (h : SameFor std row db' (batch std lib poll w.db [row])) :
    ∃ counts w₁, runAlone std lib poll row w = (.ok counts, w₁) ∧ SameFor std row db' w₁.db ∧
      counts.succeeded + counts.failed = 1 ∧
      (counts.failed = 1 ↔ failures db' row = failures w.db row + 1) := by
  obtain ⟨w₁, halone, hdb₁⟩ : ∃ w₁, runAlone std lib poll row w = (.ok ((results std lib poll w.db
      [row]).foldl count { claimed := [row].length }), w₁) ∧
      w₁.db = batch std lib poll w.db [row] := runClaiming_eq hd rfl
  obtain ⟨-, -, hfailed⟩ := foldl_count (results std lib poll w.db [row]) { claimed := 1 }
  have hresult : results std lib poll w.db [row] =
      [result std lib poll (claimOne poll w.db row) (poll.claim.leased row)] := rfl
  have hsettled : settle std lib poll (claimOne poll w.db row) (poll.claim.leased row) =
      batch std lib poll w.db [row] := rfl
  obtain ⟨hiff, -, -⟩ := settle_claimed hsettled
  rw [← h.failures_eq] at hiff
  refine ⟨_, w₁, halone, ?_, foldl_count_total _ 1, ?_⟩
  · rw [hdb₁]
    exact h
  · rw [← hiff]
    refine (Eq.congr_left hfailed).trans ?_
    rw [hresult]
    cases result std lib poll (claimOne poll w.db row) (poll.claim.leased row) with
    | none => simp
    | some r => simp

/-- With any other data in the sections of other providers an instance ends in the same way. -/
theorem exists_runOnce (hd : poll.database.Available)
    (hproviders : ((claimed poll w.db).map ProviderInstance.providerKey).Nodup)
    (hmem : row ∈ claimed poll w.db) (h : SameFor std row db' (batch std lib poll w.db [row]))
    {payload payload' : JsonObject} (hfetched : poll.fetched = some payload)
    (hsections : ∀ section_ ∈ WorldState.sections row.providerKey,
      payload'.lookup section_ = payload.lookup section_)
    (hcollision : NoCollision std lib { poll with fetched := some payload' } (claimed poll w.db)) :
    ∃ counts w₁, runOnce std lib { poll with fetched := some payload' } w = (.ok counts, w₁) ∧
      SameFor std row db' w₁.db := by
  have hd' : ({ poll with fetched := some payload' } : Poll).database.Available := hd
  obtain ⟨w₁, hother, hdb₁⟩ : ∃ w₁, runOnce std lib { poll with fetched := some payload' } w =
      (.ok ((results std lib { poll with fetched := some payload' } w.db
        (claimed poll w.db)).foldl count
        { claimed := (claimed poll w.db).length }), w₁) ∧
      w₁.db = batch std lib { poll with fetched := some payload' } w.db (claimed poll w.db) :=
    runClaiming_eq hd' rfl
  have honly := only_batch (claimable_claimed poll w.db) hproviders hcollision hmem
  have hone : batch std lib { poll with fetched := some payload' } w.db [row] =
      batch std lib poll w.db [row] := settle_congr hfetched hsections (claimOne poll w.db row)
  rw [← hdb₁, hone] at honly
  exact ⟨_, w₁, hother, h.trans (sameFor_of_only honly).symm⟩

theorem unchanged_of_same {db₁ : Db} (h : Unchanged std row db db₁) (hs : SameFor std row db' db₁) :
    Unchanged std row db db' := by
  refine ⟨?_, hs.observations.trans h.observations, hs.events.trans h.events,
    hs.deliveries.trans h.deliveries⟩
  rw [← h.recorded]
  unfold recorded checkpointOf
  rw [hs.checkpoint]

end Same

/-- **One bad provider does not disturb the others.** -/
theorem poll_isolates (hd : poll.database.Available)
    (hproviders : ((claimed poll w.db).map ProviderInstance.providerKey).Nodup)
    (hcollision : NoCollision std lib poll (claimed poll w.db)) :
    ∃ counts w', runOnce std lib poll w = (.ok counts, w') ∧ Isolates std lib poll w counts w' := by
  have hrows := claimable_claimed poll w.db
  obtain ⟨w', hrun, hdb⟩ : ∃ w', runOnce std lib poll w = (.ok ((results std lib poll w.db
      (claimed poll w.db)).foldl count { claimed := (claimed poll w.db).length }), w') ∧
      w'.db = batch std lib poll w.db (claimed poll w.db) := runClaiming_eq hd rfl
  obtain ⟨hclaimed, -, hfailed⟩ :=
    foldl_count (results std lib poll w.db (claimed poll w.db))
      { claimed := (claimed poll w.db).length }
  have hsame : ∀ row ∈ claimed poll w.db,
      SameFor std row w'.db (batch std lib poll w.db [row]) := by
    intro row hmem
    have honly := only_batch hrows hproviders hcollision hmem
    rw [← hdb] at honly
    exact sameFor_of_only honly
  have hsettled : ∀ row, settle std lib poll (claimOne poll w.db row) (poll.claim.leased row) =
      batch std lib poll w.db [row] := fun _ => rfl
  refine ⟨_, w', hrun, hclaimed, ?_, ?_, fun row hmem => ⟨?_, ?_, ?_, ?_⟩⟩
  · rw [hclaimed, foldl_count_total, length_results]
  · rw [hfailed, results_eq hrows hproviders hcollision, Nat.zero_add, List.countP_map]
    refine List.countP_congr fun row hmem => ?_
    obtain ⟨hiff, -, -⟩ := settle_claimed (hsettled row)
    rw [← (hsame row hmem).failures_eq] at hiff
    simpa using hiff
  · exact exists_runAlone hd (hsame row hmem)
  · intro payload payload' hfetched hsections hcollision'
    exact exists_runOnce hd hproviders hmem (hsame row hmem) hfetched hsections hcollision'
  · intro hone
    obtain ⟨-, hunchanged, -⟩ := settle_claimed (hsettled row)
    rw [(hsame row hmem).failures_eq] at hone
    exact unchanged_of_same (hunchanged hone) (hsame row hmem)
  · obtain ⟨-, -, checkpoint, hget, hreleased⟩ := settle_claimed (hsettled row)
    exact ⟨checkpoint, (hsame row hmem).checkpoint.trans hget, hreleased⟩

/-! ### A sample -/

section Sample

omit [Runtime]

def sampleCetus : ProviderInstance where
  providerInstanceId := "warframe-cetus-pc"
  providerKey := "warframe.cetus_night"
  nextRunAt := some (seconds 1789396380)

def sampleGhoul : ProviderInstance where
  providerInstanceId := "warframe-ghoul-pc"
  providerKey := "warframe.ghoul_event"
  nextRunAt := some (seconds 1789396390)

def samplePollDb : Db where
  instances := (Table.empty.put sampleGhoul).put sampleCetus

/-- A world state whose goals are malformed. -/
def sampleMalformed : JsonObject :=
  [("Time", .int 1789396395), ("SyndicateMissions", .arr [.obj WorldState.sampleMission]),
    ("Goals", .str "invalid")]

def samplePoll : Poll where
  owner := "runner-test"
  now := seconds 1789396400
  fetched := some sampleMalformed
  clock _ := seconds 1789396401
  deliveryId i _ _ _ := if i = "warframe-cetus-pc" then "d-1" else "d-2"

def samplePollLib : Stdlib where
  fromisoformat _ := none
  uuid5 name := if name = "autoqq:warframe.cetus.night:cetus:1789400940:day" then
    "5d1ba15a-c8fc-5c9b-af2a-62e7ab1a3789" else ""

theorem sample_claimed : claimed samplePoll samplePollDb = [sampleCetus, sampleGhoul] := by rfl

theorem sample_malformed : WorldState.extract WorldState.sampleLibrary "warframe.ghoul_event"
    sampleMalformed = .error (.worldStateSchemaError "Goals must be an array of objects") := by rfl

theorem sample_eventIdOf [Runtime] {id : String} :
    ¬ EventIdOf samplePollLib WorldState.sampleLibrary samplePoll sampleGhoul id := by
  rintro ⟨payload, raw, -, -, hfetched, hraw, -⟩
  have hpayload : payload = sampleMalformed := (Option.some.inj hfetched).symm
  have herror := hraw.symm.trans (hpayload ▸ sample_malformed)
  cases herror

theorem sample_noCollision [Runtime] : NoCollision samplePollLib WorldState.sampleLibrary samplePoll
    (claimed samplePoll samplePollDb) := by
  rw [sample_claimed]
  constructor
  · intro row hmem row' hmem' hne id hid hid'
    simp only [List.mem_cons, List.not_mem_nil, or_false] at hmem hmem'
    rcases hmem with rfl | rfl
    · rcases hmem' with rfl | rfl
      · exact hne rfl
      · exact sample_eventIdOf hid'
    · exact sample_eventIdOf hid
  · intro row hmem row' hmem' hne event platform openid event' platform' openid'
    simp only [List.mem_cons, List.not_mem_nil, or_false] at hmem hmem'
    rcases hmem with rfl | rfl
    · rcases hmem' with rfl | rfl
      · exact absurd rfl hne
      · have hdiffer : "d-1" ≠ "d-2" := by decide
        exact hdiffer
    · rcases hmem' with rfl | rfl
      · have hdiffer : "d-2" ≠ "d-1" := by decide
        exact hdiffer
      · exact absurd rfl hne

theorem sample_available : samplePoll.database.Available where
  retriable _ _ h := by
    rcases h with h | h
    · cases h
    · cases h
  soon _ := ⟨0, by decide, rfl, rfl⟩

/-- The goals of the payload are malformed, and the night on Cetus is polled all the same. -/
theorem poll_isolates_sample : ∃ counts w',
    @runOnce Core.Observations.sampleRuntime samplePollLib WorldState.sampleLibrary samplePoll
        { db := samplePollDb } = (.ok counts, w') ∧
      @Isolates Core.Observations.sampleRuntime samplePollLib WorldState.sampleLibrary samplePoll
        { db := samplePollDb } counts w' := by
  let _ := Core.Observations.sampleRuntime
  have hproviders : ((claimed samplePoll samplePollDb).map ProviderInstance.providerKey).Nodup := by
    rw [sample_claimed]
    decide
  exact poll_isolates sample_available hproviders sample_noCollision

end Sample

end EventServer.Scheduler.PollBatch
