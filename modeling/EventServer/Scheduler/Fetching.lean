import EventServer.Providers.WorldStateClient
import EventServer.Scheduler.PollBatch

/-! # A batch and what it fetches

`run_once` with its client. A batch works on what the first exchange delivers that does not fail.
Where there is none, every claimed instance has one more consecutive failure and its lease is
released, and nothing else is written (`unchanged_unless_delivered`). -/

namespace EventServer.Scheduler.Fetching

open EventServer.Core EventServer.Core.Processing EventServer.Db EventServer.Lib
  EventServer.Lib.Table
open EventServer.Core.Observations (checkpointOf_id)
open EventServer.Db.Transactions (World)
open EventServer.Providers EventServer.Providers.Warframe EventServer.Providers.WorldStateClient
open EventServer.Python (Runtime)
open EventServer.Scheduler.Leases EventServer.Scheduler.PollBatch
  EventServer.Scheduler.PollIsolation
open EventServer.Scheduler.PollRunner

variable [Runtime] {std : Stdlib} {lib : WorldState.Library} {poll : Poll} {w : World Db} {db : Db}

/-- The poll with what its client fetches; it requests nothing if the poll claims nothing. -/
def fetching (library : WorldStateClient.Library) (client : Client) (exchanges : ℕ → Exchange)
    (poll : Poll) : Poll :=
  { poll with fetched := (fetch library client exchanges).1.toOption }

/-! ### Recorded failures -/

section Failures

omit [Runtime]

theorem afterFailure_other (poll : Poll) (db : Db) (lease : ProviderLease) :
    ∃ checkpoints : ProviderCheckpoints,
      afterFailure poll db lease = { db with checkpoints := checkpoints } ∧
      ∀ i, i ≠ lease.providerInstanceId → checkpoints.get i = db.checkpoints.get i := by
  cases hget : db.checkpoints.get lease.providerInstanceId with
  | none => exact ⟨db.checkpoints, afterFailure_of_get_eq_none hget, fun _ _ => rfl⟩
  | some checkpoint =>
    have hid : checkpoint.providerInstanceId = lease.providerInstanceId := Table.key_of_get hget
    have hcounted : ∀ i, i ≠ lease.providerInstanceId →
        (db.checkpoints.put (countFailure checkpoint)).get i = db.checkpoints.get i := by
      intro i hi
      have hne : i ≠ (countFailure checkpoint).providerInstanceId := fun heq => hi (heq.trans hid)
      rw [Table.get_put, if_neg hne]
    rw [afterFailure_of_get hget]
    rcases release_cases poll.owner
      { db with checkpoints := db.checkpoints.put (countFailure checkpoint) }
      lease.providerInstanceId with ⟨freed, hfreed, -, hrelease⟩ | ⟨-, hrelease⟩
    · have hfreedId : freed.providerInstanceId = lease.providerInstanceId := Table.key_of_get hfreed
      rw [hrelease]
      refine ⟨_, rfl, fun i hi => ?_⟩
      have hne : i ≠ (free freed).providerInstanceId := fun heq => hi (heq.trans hfreedId)
      rw [Table.get_put, if_neg hne]
      exact hcounted i hi
    · rw [hrelease]
      exact ⟨_, rfl, hcounted⟩

theorem get_failures_other {i : String} {leases : List ProviderLease}
    (h : ∀ lease ∈ leases, i ≠ lease.providerInstanceId) (db : Db) :
    (run (afterFailure poll) db leases).checkpoints.get i = db.checkpoints.get i := by
  induction leases generalizing db with
  | nil => rfl
  | cons lease leases ih =>
    obtain ⟨checkpoints, hafter, hother⟩ := afterFailure_other poll db lease
    rw [run_cons, ih fun lease' hmem => h lease' (List.mem_cons_of_mem lease hmem), hafter]
    exact hother i (h lease List.mem_cons_self)

theorem failures_rest (poll : Poll) (db : Db) (leases : List ProviderLease) :
    ∃ checkpoints : ProviderCheckpoints,
      run (afterFailure poll) db leases = { db with checkpoints := checkpoints } := by
  induction leases generalizing db with
  | nil => exact ⟨db.checkpoints, rfl⟩
  | cons lease leases ih =>
    obtain ⟨checkpoints, hafter, -⟩ := afterFailure_other poll db lease
    obtain ⟨checkpoints', hrest⟩ := ih (afterFailure poll db lease)
    refine ⟨checkpoints', ?_⟩
    rw [run_cons, hrest, hafter]

theorem get_failures {leases : List ProviderLease}
    (hids : (leases.map ProviderLease.providerInstanceId).Nodup) {lease : ProviderLease}
    (hmem : lease ∈ leases) {checkpoint : ProviderCheckpoint}
    (hget : db.checkpoints.get lease.providerInstanceId = some checkpoint)
    (howner : checkpoint.leaseOwner = some poll.owner) :
    (run (afterFailure poll) db leases).checkpoints.get lease.providerInstanceId =
      some (free (countFailure checkpoint)) := by
  induction leases generalizing db with
  | nil => cases hmem
  | cons first leases ih =>
    rw [List.map_cons, List.nodup_cons] at hids
    rw [run_cons]
    rcases List.mem_cons.mp hmem with rfl | hrest
    · have hother : ∀ other ∈ leases, lease.providerInstanceId ≠ other.providerInstanceId := by
        intro other hmem' heq
        exact hids.1 (heq ▸ List.mem_map_of_mem hmem')
      obtain ⟨checkpoints, hafter, hfreed⟩ := afterFailure_owned hget howner
      rw [get_failures_other hother, hafter]
      exact hfreed
    · have hne : lease.providerInstanceId ≠ first.providerInstanceId := by
        intro heq
        exact hids.1 (heq ▸ List.mem_map_of_mem hrest)
      obtain ⟨checkpoints, hafter, hother⟩ := afterFailure_other poll db first
      refine ih hids.2 hrest ?_
      rw [hafter]
      exact (hother _ hne).trans hget

/-- The claims leave the events and the observations alone, and the checkpoints of the others. -/
theorem afterClaim_rest (poll : Poll) (db : Db) (rows : List ProviderInstance) :
    (afterClaim poll db rows).store = db.store ∧
      (afterClaim poll db rows).observations = db.observations ∧
      ∀ i, (∀ row ∈ rows, i ≠ row.providerInstanceId) →
        (afterClaim poll db rows).checkpoints.get i = db.checkpoints.get i := by
  induction rows generalizing db with
  | nil => exact ⟨rfl, rfl, fun _ _ => rfl⟩
  | cons row rows ih =>
    obtain ⟨hstore, hobservations, hothers⟩ := ih (claimOne poll db row)
    refine ⟨hstore, hobservations, fun i hi => ?_⟩
    have hrest := hothers i fun row' hmem => hi row' (List.mem_cons_of_mem row hmem)
    refine hrest.trans ?_
    rw [claimOne_eq, Table.get_put, lease_id, checkpointOf_id, if_neg (hi row List.mem_cons_self)]

end Failures

/-! ### A batch without a payload -/

/-- The batch has counted a failure for each claimed instance and done nothing else. -/
structure AllFailed (poll : Poll) (db db' : Db) (counts : PollRunResult) : Prop where
  counts : counts = { claimed := (claimed poll db).length, failed := (claimed poll db).length }
  store : db'.store = db.store
  observations : db'.observations = db.observations
  /-- The instances are scheduled anew, as by every claim. -/
  instances : db'.instances = (afterClaim poll db (claimed poll db)).instances
  checkpoints : ∀ row ∈ claimed poll db, db'.checkpoints.get row.providerInstanceId =
    some (free (countFailure (poll.claim.lease
      (checkpointOf db.checkpoints row.providerInstanceId))))
  others : ∀ i, (∀ row ∈ claimed poll db, i ≠ row.providerInstanceId) →
    db'.checkpoints.get i = db.checkpoints.get i

theorem settle_of_none (h : poll.fetched = none) (db : Db) (lease : ProviderLease) :
    settle std lib poll db lease = afterFailure poll db lease := by
  unfold settle attempt
  rw [h]
  rfl

theorem batch_of_none (h : poll.fetched = none) (db : Db) (rows : List ProviderInstance) :
    batch std lib poll db rows =
      run (afterFailure poll) (afterClaim poll db rows) (rows.map poll.claim.leased) := by
  unfold batch
  rw [run_map]
  congr 1
  funext db row
  exact settle_of_none h db _

theorem get_afterClaim (std : Stdlib) (lib : WorldState.Library) {row : ProviderInstance}
    {rows : List ProviderInstance} (h : Claimable db rows) (hmem : row ∈ rows) :
    (afterClaim poll db rows).checkpoints.get row.providerInstanceId =
      some (poll.claim.lease (checkpointOf db.checkpoints row.providerInstanceId)) := by
  have honly : SameFor std row (afterClaim poll db rows) (claimOne poll db row) :=
    sameFor_of_only (only_afterClaim std lib h hmem)
  rw [honly.checkpoint]
  exact get_claimOne db row

theorem runOnce_of_none (hd : poll.database.Available) (h : poll.fetched = none) :
    ∃ counts w', runOnce std lib poll w = (.ok counts, w') ∧ AllFailed poll w.db w'.db counts := by
  obtain ⟨w', hrun, hdb⟩ : ∃ w', runOnce std lib poll w = (.ok ((results std lib poll w.db
      (claimed poll w.db)).foldl count { claimed := (claimed poll w.db).length }), w') ∧
      w'.db = batch std lib poll w.db (claimed poll w.db) := runClaiming_eq hd rfl
  have hclaimable := claimable_claimed poll w.db
  have hids :
      (((claimed poll w.db).map poll.claim.leased).map ProviderLease.providerInstanceId).Nodup := by
    rw [List.map_map]
    exact hclaimable.ids
  rw [batch_of_none h] at hdb
  obtain ⟨checkpoints, hrest⟩ := failures_rest poll (afterClaim poll w.db (claimed poll w.db))
    ((claimed poll w.db).map poll.claim.leased)
  obtain ⟨hstore, hobservations, hothers⟩ := afterClaim_rest poll w.db (claimed poll w.db)
  refine ⟨_, w', hrun, ?_, ?_, ?_, ?_, ?_, ?_⟩
  · rw [foldl_count_none (results_of_fetch_failed h w.db _), length_results, Nat.zero_add]
  · rw [hdb, hrest]
    exact hstore
  · rw [hdb, hrest]
    exact hobservations
  · rw [hdb, hrest]
  · intro row hmem
    rw [hdb]
    exact get_failures hids (List.mem_map_of_mem hmem) (get_afterClaim std lib hclaimable hmem) rfl
  · intro i hi
    have hleases : ∀ lease ∈ (claimed poll w.db).map poll.claim.leased,
        i ≠ lease.providerInstanceId := by
      intro lease hlease
      obtain ⟨row, hmem, rfl⟩ := List.mem_map.mp hlease
      exact hi row hmem
    rw [hdb, get_failures_other hleases]
    exact hothers i hi

/-! ### A batch with its client -/

variable {library : WorldStateClient.Library} {client : Client} {exchanges : ℕ → Exchange}

/-- **A batch works on what is delivered**; if nothing is, it fails for every instance it has
claimed and changes nothing but their schedule and their checkpoints. -/
theorem unchanged_unless_delivered (hd : poll.database.Available) : ∃ counts w',
    runOnce std lib (fetching library client exchanges poll) w = (.ok counts, w') ∧
      ((∃ k response payload, FirstDelivery library client exchanges k response payload ∧
          runOnce std lib { poll with fetched := some payload } w = (.ok counts, w')) ∨
        (∀ k response payload, ¬ FirstDelivery library client exchanges k response payload) ∧
          AllFailed poll w.db w'.db counts) := by
  have hd' : (fetching library client exchanges poll).database.Available := hd
  cases hfetch : (fetch library client exchanges).1 with
  | ok payload =>
    obtain ⟨k, response, hdelivery⟩ := fetch_eq_ok.mp hfetch
    have hpoll : fetching library client exchanges poll =
        { poll with fetched := some payload } := by
      unfold fetching
      rw [hfetch]
      rfl
    obtain ⟨w', hrun, -⟩ : ∃ w', runOnce std lib (fetching library client exchanges poll) w =
        (.ok ((results std lib (fetching library client exchanges poll) w.db
          (claimed poll w.db)).foldl count
          { claimed := (claimed poll w.db).length }), w') ∧
        w'.db = batch std lib (fetching library client exchanges poll) w.db (claimed poll w.db) :=
      runClaiming_eq hd' rfl
    refine ⟨_, w', hrun, .inl ⟨k, response, payload, hdelivery, ?_⟩⟩
    rw [← hpoll]
    exact hrun
  | error e =>
    have hnone : (fetching library client exchanges poll).fetched = none := by
      unfold fetching
      rw [hfetch]
      rfl
    obtain ⟨counts, w', hrun, hfailed⟩ : ∃ counts w',
        runOnce std lib (fetching library client exchanges poll) w = (.ok counts, w') ∧
          AllFailed (fetching library client exchanges poll) w.db w'.db counts :=
            runOnce_of_none hd' hnone
    refine ⟨counts, w', hrun, .inr ⟨fun k response payload hdelivery => ?_, ?_⟩⟩
    · have hok := fetch_eq_ok.mpr ⟨k, response, hdelivery⟩
      rw [hfetch] at hok
      cases hok
    · exact ⟨hfailed.counts, hfailed.store, hfailed.observations, hfailed.instances,
        hfailed.checkpoints, hfailed.others⟩

/-! ### A sample -/

section Sample

omit [Runtime]

/-- A server that is not available. -/
def sampleUnavailable : ℕ → Exchange := fun _ => .ok { statusCode := 503, chunks := [] }

/-- Both instances fail, and nothing is published. -/
theorem unchanged_unless_delivered_sample : ∃ counts w',
    @runOnce Core.Observations.sampleRuntime samplePollLib WorldState.sampleLibrary
        (fetching sampleLibrary {} sampleUnavailable samplePoll) { db := samplePollDb } =
          (.ok counts, w') ∧
      counts.claimed = 2 ∧ counts.failed = 2 ∧ w'.db.store = samplePollDb.store := by
  obtain ⟨counts, w', hrun, ⟨k, response, payload, hdelivery, -⟩ | ⟨-, hfailed⟩⟩ :=
    @unchanged_unless_delivered Core.Observations.sampleRuntime samplePollLib
      WorldState.sampleLibrary
      samplePoll { db := samplePollDb } sampleLibrary {} sampleUnavailable sample_available
  · have hresponse := Except.ok.inj hdelivery.exchange
    have hstatus := hdelivery.delivers.status
    rw [← hresponse] at hstatus
    cases hstatus
  · refine ⟨counts, w', hrun, ?_, ?_, hfailed.store⟩
    · rw [hfailed.counts, sample_claimed]
      rfl
    · rw [hfailed.counts, sample_claimed]
      rfl

end Sample

end EventServer.Scheduler.Fetching
