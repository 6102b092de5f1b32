import EventServer.Scheduler.PollRunner

/-! # The instances of a batch do not disturb each other

While the database is available, a batch claims its instances and then settles them one after
another (`settle`): an instance is processed and its lease released, or its failure is recorded and
its lease released. Each of these steps stays in the scope of its instance, so the batch is local
(`local_claim`, `local_settle`) and each instance ends as it does when it is polled alone
(`poll_isolates`). -/

namespace EventServer.Scheduler.PollIsolation

open EventServer.Core EventServer.Core.Processing EventServer.Core.Scopes
open EventServer.Core.Observations (checkpointOf_id process_ok processObservation_ok)
open EventServer.Db EventServer.Lib EventServer.Lib.Table
open EventServer.Db.Transactions (World)
open EventServer.Providers EventServer.Providers.Warframe EventServer.Python
open EventServer.Scheduler.Leases EventServer.Scheduler.PollRunner

/-! ### Leases in a scope -/

section Release

variable {owner i : String} {db : Db} {checkpoint : ProviderCheckpoint} {c : Scope}

theorem release_owned (hget : db.checkpoints.get i = some checkpoint)
    (howner : checkpoint.leaseOwner = some owner) :
    release owner db i = ({ db with checkpoints := db.checkpoints.put (free checkpoint) },
      true) := by
  unfold release releaseProviderLease tables withTables
  simp only [hget, howner, ne_eq, not_true_eq_false, if_false]

theorem release_other (h : ∀ checkpoint, db.checkpoints.get i = some checkpoint →
    checkpoint.leaseOwner ≠ some owner) : release owner db i = (db, false) := by
  unfold release releaseProviderLease tables withTables
  cases hget : db.checkpoints.get i with
  | none => rfl
  | some checkpoint => simp only [if_pos (h checkpoint hget)]

theorem release_cases (owner : String) (db : Db) (i : String) :
    (∃ checkpoint, db.checkpoints.get i = some checkpoint ∧ checkpoint.leaseOwner = some owner ∧
        release owner db i =
          ({ db with checkpoints := db.checkpoints.put (free checkpoint) }, true)) ∨
      (∀ checkpoint, db.checkpoints.get i = some checkpoint → checkpoint.leaseOwner ≠ some owner) ∧
        release owner db i = (db, false) := by
  by_cases h : ∃ checkpoint, db.checkpoints.get i = some checkpoint ∧
    checkpoint.leaseOwner = some owner
  · obtain ⟨checkpoint, hget, howner⟩ := h
    exact Or.inl ⟨checkpoint, hget, howner, release_owned hget howner⟩
  · have hother : ∀ checkpoint, db.checkpoints.get i = some checkpoint →
        checkpoint.leaseOwner ≠ some owner :=
          fun checkpoint hget howner => h ⟨checkpoint, hget, howner⟩
    exact Or.inr ⟨hother, release_other hother⟩

theorem get_checkpoint_only (hi : i = c.providerInstanceId) :
    (c.only db).checkpoints.get i = db.checkpoints.get i := get_restrict fun _ hr => hr.trans hi

theorem only_with_checkpoint (h : checkpoint.providerInstanceId = c.providerInstanceId) :
    c.only { db with checkpoints := db.checkpoints.put checkpoint } =
      { c.only db with checkpoints := (c.only db).checkpoints.put checkpoint } := by
  rw [put_checkpoint_only h]
  rfl

theorem only_with_other (h : checkpoint.providerInstanceId ≠ c.providerInstanceId) :
    c.only { db with checkpoints := db.checkpoints.put checkpoint } = c.only db := by
  unfold Scope.only
  simp only [only_put_checkpoint h]

theorem release_only (hi : i = c.providerInstanceId) :
    release owner (c.only db) i = (c.only (release owner db i).1, (release owner db i).2) := by
  have hget : (c.only db).checkpoints.get i = db.checkpoints.get i := get_checkpoint_only hi
  rcases release_cases owner db i with ⟨checkpoint, hstored, howner, hrelease⟩ | ⟨hother, hrelease⟩
  · have hid : (free checkpoint).providerInstanceId = c.providerInstanceId :=
      (Table.key_of_get hstored).trans hi
    rw [hrelease, release_owned (hget.trans hstored) howner, only_with_checkpoint hid]
  · rw [hrelease, release_other fun checkpoint hstored =>
      hother checkpoint (hget.symm.trans hstored)]

theorem only_release (hi : i ≠ c.providerInstanceId) :
    c.only (release owner db i).1 = c.only db := by
  rcases release_cases owner db i with ⟨checkpoint, hstored, -, hrelease⟩ | ⟨-, hrelease⟩
  · rw [hrelease]
    exact only_with_other fun he => hi ((Table.key_of_get hstored).symm.trans he)
  · rw [hrelease]

end Release

/-! ### A batch without its transactions -/

variable [Runtime] (std : Stdlib) (lib : WorldState.Library) (poll : Poll)

/-- Extraction and `_process`; `none` if either raises, or if nothing has been fetched. -/
def attempt (db : Db) (lease : ProviderLease) : Option (ProcessingResult × Db) :=
  match poll.fetched with
  | none => none
  | some payload =>
    match WorldState.extract lib lease.providerKey payload with
    | .error _ => none
    | .ok raw => (processLease std poll lease raw db).toOption

omit [Runtime] in
/-- `_record_failure`. -/
def afterFailure (db : Db) (lease : ProviderLease) : Db :=
  ((recordLeaseFailure poll lease db).map Prod.snd).toOption.getD db

/-- The database after the lease has been worked on. -/
def settle (db : Db) (lease : ProviderLease) : Db :=
  ((attempt std lib poll db lease).map Prod.snd).getD (afterFailure poll db lease)

/-- The result of the lease, `none` if it has failed. -/
def result (db : Db) (lease : ProviderLease) : Option ProcessingResult :=
  (attempt std lib poll db lease).map Prod.fst

omit [Runtime] in
/-- The counters after a lease with that result. -/
def count (counts : PollRunResult) : Option ProcessingResult → PollRunResult
  | some result => counts.succeed result
  | none => counts.fail

/-- The claim of one row. -/
def claimOne (db : Db) (row : ProviderInstance) : Db :=
  withTables db (poll.claim.claimRow (tables db) row)

section Batch

variable {std lib poll}
variable {leases : List ProviderLease} {w : World Db} {db : Db} {lease : ProviderLease}

omit [Runtime] in
theorem recordLeaseFailure_of_get {checkpoint : ProviderCheckpoint}
    (h : db.checkpoints.get lease.providerInstanceId = some checkpoint) :
    recordLeaseFailure poll lease db =
      .ok ((),
        (release poll.owner { db with checkpoints := db.checkpoints.put (countFailure checkpoint) }
        lease.providerInstanceId).1) := by
  unfold recordLeaseFailure recordFailure
  simp only [h]
  rfl

omit [Runtime] in
theorem afterFailure_of_get {checkpoint : ProviderCheckpoint}
    (h : db.checkpoints.get lease.providerInstanceId = some checkpoint) :
    afterFailure poll db lease =
      (release poll.owner { db with checkpoints := db.checkpoints.put (countFailure checkpoint) }
        lease.providerInstanceId).1 := by
  unfold afterFailure
  rw [recordLeaseFailure_of_get h]
  rfl

omit [Runtime] in
theorem afterFailure_of_get_eq_none (h : db.checkpoints.get lease.providerInstanceId = none) :
    afterFailure poll db lease = db := by
  unfold afterFailure recordLeaseFailure recordFailure
  simp only [h]
  rfl

omit [Runtime] in
theorem recordLeaseFailure_ok (h : ∃ checkpoint, db.checkpoints.get lease.providerInstanceId =
    some checkpoint) : recordLeaseFailure poll lease db = .ok ((), afterFailure poll db lease) := by
  obtain ⟨checkpoint, hget⟩ := h
  rw [recordLeaseFailure_of_get hget, afterFailure_of_get hget]

omit [Runtime] in
theorem get_put_isSome {checkpoints : ProviderCheckpoints}
    {checkpoint : ProviderCheckpoint} {i : String} (h : ∃ stored, checkpoints.get i = some stored) :
    ∃ stored, (checkpoints.put checkpoint).get i = some stored := by
  rw [Table.get_put]
  split_ifs
  · exact ⟨_, rfl⟩
  · exact h

/-- The instances are as they were, and no checkpoint has gone. -/
structure Keeps (db db' : Db) : Prop where
  instances : db'.instances = db.instances
  checkpoints : ∀ i, (∃ stored, db.checkpoints.get i = some stored) →
    ∃ stored, db'.checkpoints.get i = some stored

omit [Runtime] in
theorem Keeps.refl (db : Db) : Keeps db db := ⟨rfl, fun _ h => h⟩

omit [Runtime] in
theorem Keeps.trans {db db' db'' : Db} (h : Keeps db db') (h' : Keeps db' db'') : Keeps db db'' :=
  ⟨h'.instances.trans h.instances, fun i hi => h'.checkpoints i (h.checkpoints i hi)⟩

omit [Runtime] in
theorem keeps_put (db : Db) (checkpoint : ProviderCheckpoint) :
    Keeps db { db with checkpoints := db.checkpoints.put checkpoint } :=
  ⟨rfl, fun _ hi => get_put_isSome hi⟩

omit [Runtime] in
theorem keeps_release (owner : String) (db : Db)
    (i : String) : Keeps db (release owner db i).1 := by
  rcases release_cases owner db i with ⟨checkpoint, -, -, hrelease⟩ | ⟨-, hrelease⟩
  · rw [hrelease]
    exact keeps_put db _
  · rw [hrelease]
    exact Keeps.refl db

theorem keeps_process {call : Process Raw} {done : Processed}
    (h : process (registry std) db call = .ok done) : Keeps db done.db := by
  obtain ⟨row, provider, -, -, -, -, hobs⟩ := process_ok h
  obtain ⟨-, hinstances, hcases⟩ := processObservation_ok hobs
  refine ⟨hinstances, fun i hi => ?_⟩
  rcases hcases with ⟨-, -, -, hput⟩ | ⟨-, hput, -⟩
  · rw [hput]
    exact get_put_isSome hi
  · rw [hput]
    exact get_put_isSome hi

theorem attempt_eq_some {r : ProcessingResult} {db' : Db}
    (h : attempt std lib poll db lease = some (r, db')) : ∃ payload raw done,
      poll.fetched = some payload ∧ WorldState.extract lib lease.providerKey payload = .ok raw ∧
      process (registry std) db (processCall poll lease raw) = .ok done ∧
      release poll.owner done.db lease.providerInstanceId = (db', true) ∧ r = done.result := by
  unfold attempt at h
  cases hfetched : poll.fetched with
  | none => simp [hfetched] at h
  | some payload =>
    simp only [hfetched] at h
    cases hraw : WorldState.extract lib lease.providerKey payload with
    | error e => simp [hraw] at h
    | ok raw =>
      simp only [hraw] at h
      unfold processLease at h
      cases hdone : process (registry std) db (processCall poll lease raw) with
      | error e =>
        rw [hdone] at h
        cases h
      | ok done =>
        rw [hdone] at h
        cases hrelease : release poll.owner done.db lease.providerInstanceId with
        | mk db₁ released =>
          simp only [Except.mapError, bind, Except.bind, hrelease] at h
          split_ifs at h with hlost
          · cases h
          · cases h
            have htrue : released = true := by simpa using hlost
            exact ⟨payload, raw, done, rfl, hraw, hdone, by rw [hrelease, htrue], rfl⟩

omit [Runtime] in
theorem keeps_afterFailure (db : Db)
    (lease : ProviderLease) : Keeps db (afterFailure poll db lease) := by
  cases hget : db.checkpoints.get lease.providerInstanceId with
  | none =>
    rw [afterFailure_of_get_eq_none hget]
    exact Keeps.refl db
  | some checkpoint =>
    have hput := keeps_put db (countFailure checkpoint)
    rw [afterFailure_of_get hget]
    exact hput.trans (keeps_release poll.owner _ lease.providerInstanceId)

variable (std lib poll) in
theorem keeps_settle (db : Db) (lease : ProviderLease) :
    Keeps db (settle std lib poll db lease) := by
  unfold settle
  cases hattempt : attempt std lib poll db lease with
  | none => exact keeps_afterFailure db lease
  | some r =>
    obtain ⟨payload, raw, done, -, -, hdone, hrelease, -⟩ := attempt_eq_some hattempt
    have hkeeps := (keeps_process hdone).trans
      (keeps_release poll.owner done.db lease.providerInstanceId)
    rw [hrelease] at hkeeps
    exact hkeeps

/-! ### The loops -/

omit [Runtime] in
/-- Every lease is for an instance that has a checkpoint. -/
def HaveCheckpoints (leases : List ProviderLease) (db : Db) : Prop :=
  ∀ lease ∈ leases, ∃ stored, db.checkpoints.get lease.providerInstanceId = some stored

omit [Runtime] in
theorem HaveCheckpoints.tail {db' : Db} (h : HaveCheckpoints (lease :: leases) db)
    (hk : Keeps db db') :
    HaveCheckpoints leases db' :=
  fun lease' hmem => hk.checkpoints _ (h lease' (List.mem_cons_of_mem lease hmem))

section Loops

variable (hd : poll.database.Available)
include hd

omit [Runtime] in
theorem inTransaction_recordLeaseFailure {w : World Db}
    (h : ∃ stored, w.db.checkpoints.get lease.providerInstanceId = some stored) :
    ∃ w', inTransaction poll.database (recordLeaseFailure poll lease) w = (.ok (), w') ∧
      w'.db = afterFailure poll w.db lease := by
  have hok : recordLeaseFailure poll lease w.db = _ := recordLeaseFailure_ok h
  have hvalue := inTransaction_fst hd (recordLeaseFailure poll lease) w
  have hdb := inTransaction_db hd (recordLeaseFailure poll lease) w
  rw [hok] at hvalue hdb
  exact ⟨_, Prod.ext hvalue rfl, hdb⟩

variable (std lib) in
theorem processInstance_eq {payload : JsonObject} (hfetched : poll.fetched = some payload)
    (lease : ProviderLease) (w : World Db) :
    ∃ w', processInstance std lib poll payload lease w = (result std lib poll w.db lease, w') ∧
      w'.db = ((attempt std lib poll w.db lease).map Prod.snd).getD w.db := by
  unfold processInstance result attempt
  simp only [hfetched]
  cases hraw : WorldState.extract lib lease.providerKey payload with
  | error e => exact ⟨w, rfl, rfl⟩
  | ok raw =>
    have hvalue := inTransaction_fst hd (processLease std poll lease raw) w
    have hdb := inTransaction_db hd (processLease std poll lease raw) w
    simp only
    cases hbody : processLease std poll lease raw w.db with
    | error e =>
      rw [hbody] at hvalue hdb
      refine ⟨(inTransaction poll.database (processLease std poll lease raw) w).2, ?_, hdb⟩
      rw [show inTransaction poll.database (processLease std poll lease raw) w =
        (.error (.attempt (.other e)), _) from Prod.ext hvalue rfl]
      rfl
    | ok r =>
      rw [hbody] at hvalue hdb
      refine ⟨(inTransaction poll.database (processLease std poll lease raw) w).2, ?_, hdb⟩
      rw [show inTransaction poll.database (processLease std poll lease raw) w = (.ok r.1, _) from
        Prod.ext hvalue rfl]
      rfl

variable (std lib) in
/-- **The loop over the leases settles each of them.** -/
theorem processAll_eq {payload : JsonObject} (hfetched : poll.fetched = some payload)
    (counts : PollRunResult) (w : World Db) (h : HaveCheckpoints leases w.db) :
    ∃ w', processAll std lib poll payload counts leases w =
        (.ok ((outcomes (settle std lib poll) (result std lib poll) w.db leases).foldl
          count counts), w') ∧
      w'.db = run (settle std lib poll) w.db leases := by
  induction leases generalizing counts w with
  | nil => exact ⟨w, rfl, rfl⟩
  | cons lease leases ih =>
    obtain ⟨w₁, hinstance, hdb₁⟩ := processInstance_eq std lib hd hfetched lease w
    have htail := h.tail (keeps_settle std lib poll w.db lease)
    unfold processAll
    rw [hinstance, outcomes, run_cons, List.foldl_cons]
    cases hattempt : attempt std lib poll w.db lease with
    | some r =>
      have hresult : result std lib poll w.db lease = some r.1 := by
        unfold result
        rw [hattempt]
        rfl
      have hsettle : settle std lib poll w.db lease = w₁.db := by
        unfold settle
        rw [hdb₁, hattempt]
        rfl
      rw [hsettle] at htail ⊢
      rw [hresult]
      exact ih (counts.succeed r.1) w₁ htail
    | none =>
      have hresult : result std lib poll w.db lease = none := by unfold result; rw [hattempt]; rfl
      have hsame : w₁.db = w.db := by rw [hdb₁, hattempt]; rfl
      obtain ⟨w₂, hrecord, hdb₂⟩ := inTransaction_recordLeaseFailure (w := w₁) hd
        (by rw [hsame]; exact h lease List.mem_cons_self)
      have hsettle : settle std lib poll w.db lease = w₂.db := by
        unfold settle
        rw [hdb₂, hattempt, hsame]
        rfl
      rw [hsettle] at htail ⊢
      rw [hresult]
      simp only [hrecord]
      exact ih counts.fail w₂ htail

variable (std lib) in
theorem recordFailures_eq (hfetched : poll.fetched = none) (w : World Db)
    (h : HaveCheckpoints leases w.db) :
    ∃ w', recordFailures poll leases w = (.ok (), w') ∧
      w'.db = run (settle std lib poll) w.db leases := by
  induction leases generalizing w with
  | nil => exact ⟨w, rfl, rfl⟩
  | cons lease leases ih =>
    obtain ⟨w₁, hrecord, hdb₁⟩ := inTransaction_recordLeaseFailure (w := w) hd
      (h lease List.mem_cons_self)
    have hsettle : settle std lib poll w.db lease = w₁.db := by
      unfold settle attempt
      simp only [hfetched]
      exact hdb₁.symm
    have htail := h.tail (keeps_settle std lib poll w.db lease)
    rw [hsettle] at htail
    unfold recordFailures
    rw [hrecord, run_cons, hsettle]
    exact ih w₁ htail

end Loops

end Batch

/-! ### The scope of an instance -/

/-- An identifier that an event of the instance can get in this batch. -/
def EventIdOf (row : ProviderInstance) (id : String) : Prop :=
  ∃ payload raw provider current, poll.fetched = some payload ∧
    WorldState.extract lib row.providerKey payload = .ok raw ∧
    (registry std).get row.providerKey = .ok provider ∧
    provider.normalize (poll.clock row.providerInstanceId) raw = .ok current ∧
    ∃ eventKey ∈ provider.metadata.eventKeys, id = eventId std eventKey current.identity

def scopeOf (row : ProviderInstance) : Scope where
  providerInstanceId := row.providerInstanceId
  eventKeys := eventKeysOf std row.providerKey
  eventId := EventIdOf std lib poll row
  deliveryId id := ∃ event platform openid,
    id = poll.deliveryId row.providerInstanceId event platform openid

/-- The identifiers that `uuid5` and `uuid4` give to the events and the deliveries of different
instances differ. -/
structure NoCollision (rows : List ProviderInstance) : Prop where
  uuid5 : ∀ row ∈ rows, ∀ row' ∈ rows, row.providerInstanceId ≠ row'.providerInstanceId →
    ∀ id, EventIdOf std lib poll row id → ¬ EventIdOf std lib poll row' id
  uuid4 : ∀ row ∈ rows, ∀ row' ∈ rows, row.providerInstanceId ≠ row'.providerInstanceId →
    ∀ event platform openid event' platform' openid',
      poll.deliveryId row.providerInstanceId event platform openid ≠
        poll.deliveryId row'.providerInstanceId event' platform' openid'

section Local

variable {std lib poll}
variable {rows : List ProviderInstance} {row row' : ProviderInstance} {db : Db}

theorem scopeOf_apart (hids : NoCollision std lib poll rows) (hmem : row ∈ rows)
    (hmem' : row' ∈ rows) (hid : row.providerInstanceId ≠ row'.providerInstanceId)
    (hkey : row.providerKey ≠ row'.providerKey) :
    (scopeOf std lib poll row).Apart (scopeOf std lib poll row') where
  providerInstanceId := hid
  eventKeys _ h h' := hkey (eventKeysOf_disjoint h h')
  eventId := hids.uuid5 row hmem row' hmem' hid
  deliveryId := by
    rintro id ⟨event, platform, openid, rfl⟩ ⟨event', platform', openid', h'⟩
    exact hids.uuid4 row hmem row' hmem' hid _ _ _ _ _ _ h'

theorem buildRegistry_registry : buildRegistry std none = .ok (registry std) := by
  unfold registry
  rw [buildRegistry_all]
  rfl

variable (std) in
theorem scopeOf_within {payload : JsonObject} {raw : Raw} (hfetched : poll.fetched = some payload)
    (hraw : WorldState.extract lib row.providerKey payload = .ok raw) :
    (scopeOf std lib poll row).Within (registry std) row.providerKey
      (processCall poll (poll.claim.leased row) raw) where
  providerInstanceId := rfl
  events := by
    intro provider current prev events hprovider hcurrent hevaluate event hmem
    obtain ⟨hknown, hkey⟩ := get_buildRegistry buildRegistry_registry hprovider
    obtain ⟨eventKey, hown, hall⟩ := evaluate_ok hknown hevaluate
    obtain ⟨hevent, hid⟩ := hall event hmem
    refine ⟨?_, payload, raw, provider, current, hfetched, hraw, hprovider, hcurrent,
      eventKey, hown, hid⟩
    rw [hevent]
    exact mem_eventKeysOf.mpr ⟨provider, hknown, hkey, hown⟩
  deliveryId event platform openid := ⟨event, platform, openid, rfl⟩

/-- The rows of a batch keep their provider keys. -/
def KeepsKeys (rows : List ProviderInstance) (db : Db) : Prop :=
  ∀ row ∈ rows, ∀ stored, db.instances.get row.providerInstanceId = some stored →
    stored.providerKey = row.providerKey

/-! ### A lease in its scope -/

theorem attempt_only (hkeys : KeepsKeys rows db) (hmem : row ∈ rows) :
    attempt std lib poll ((scopeOf std lib poll row).only db) (poll.claim.leased row) =
      (attempt std lib poll db (poll.claim.leased row)).map fun r =>
        (r.1, (scopeOf std lib poll row).only r.2) := by
  unfold attempt
  cases hfetched : poll.fetched with
  | none => rfl
  | some payload =>
    simp only
    cases hraw : WorldState.extract lib (poll.claim.leased row).providerKey payload with
    | error e => rfl
    | ok raw =>
      have hprocess := process_only (scopeOf_within std hfetched hraw) (hkeys row hmem)
      simp only
      unfold processLease
      rw [hprocess]
      cases process (registry std) db (processCall poll (poll.claim.leased row) raw) with
      | error e => rfl
      | ok done =>
        have hrelease : release poll.owner ((scopeOf std lib poll row).only done.db)
              (poll.claim.leased row).providerInstanceId =
            ((scopeOf std lib poll row).only
              (release poll.owner done.db (poll.claim.leased row).providerInstanceId).1,
              (release poll.owner done.db (poll.claim.leased row).providerInstanceId).2) :=
          release_only rfl
        simp only [Except.map, Except.mapError, bind, Except.bind, Scope.processed, hrelease]
        split_ifs <;> rfl

omit [Runtime] in
theorem afterFailure_only {c : Scope} {lease : ProviderLease}
    (hi : lease.providerInstanceId = c.providerInstanceId) :
    afterFailure poll (c.only db) lease = c.only (afterFailure poll db lease) := by
  have hsame : (c.only db).checkpoints.get lease.providerInstanceId =
      db.checkpoints.get lease.providerInstanceId := get_checkpoint_only hi
  cases hget : db.checkpoints.get lease.providerInstanceId with
  | none => rw [afterFailure_of_get_eq_none hget, afterFailure_of_get_eq_none (hsame.trans hget)]
  | some checkpoint =>
    have hid : (countFailure checkpoint).providerInstanceId = c.providerInstanceId :=
      (Table.key_of_get hget).trans hi
    rw [afterFailure_of_get hget, afterFailure_of_get (hsame.trans hget),
      ← only_with_checkpoint hid, release_only hi]

theorem settle_only (hkeys : KeepsKeys rows db) (hmem : row ∈ rows) :
    (scopeOf std lib poll row).only (settle std lib poll db (poll.claim.leased row)) =
      settle std lib poll ((scopeOf std lib poll row).only db) (poll.claim.leased row) := by
  unfold settle
  rw [attempt_only hkeys hmem, afterFailure_only rfl]
  cases attempt std lib poll db (poll.claim.leased row) <;> rfl

theorem result_only (hkeys : KeepsKeys rows db) (hmem : row ∈ rows) :
    result std lib poll db (poll.claim.leased row) =
      result std lib poll ((scopeOf std lib poll row).only db) (poll.claim.leased row) := by
  unfold result
  rw [attempt_only hkeys hmem]
  cases attempt std lib poll db (poll.claim.leased row) <;> rfl

theorem only_settle {c : Scope} (hapart : c.Apart (scopeOf std lib poll row))
    (hkeys : KeepsKeys rows db) (hmem : row ∈ rows) :
    c.only (settle std lib poll db (poll.claim.leased row)) = c.only db := by
  have hne : (poll.claim.leased row).providerInstanceId ≠ c.providerInstanceId :=
    hapart.providerInstanceId.symm
  unfold settle
  cases hattempt : attempt std lib poll db (poll.claim.leased row) with
  | none =>
    show c.only (afterFailure poll db (poll.claim.leased row)) = c.only db
    cases hget : db.checkpoints.get (poll.claim.leased row).providerInstanceId with
    | none => rw [afterFailure_of_get_eq_none hget]
    | some checkpoint =>
      have hid : (countFailure checkpoint).providerInstanceId ≠ c.providerInstanceId :=
        fun he => hne ((Table.key_of_get hget).symm.trans he)
      rw [afterFailure_of_get hget, only_release hne, only_with_other hid]
  | some r =>
    obtain ⟨payload, raw, done, hfetched, hraw, hdone, hrelease, -⟩ := attempt_eq_some hattempt
    have hprocess : c.only done.db = c.only db :=
      only_process hapart (scopeOf_within std hfetched hraw) (hkeys row hmem) hdone
    have hreleased : c.only (release poll.owner done.db
        (poll.claim.leased row).providerInstanceId).1 = c.only done.db := only_release hne
    rw [hrelease] at hreleased
    exact hreleased.trans hprocess

/-! ### The claim in its scope -/

omit [Runtime] in
theorem claimOne_eq (db : Db) (row : ProviderInstance) : claimOne poll db row =
    { db with
      instances := db.instances.put (poll.claim.schedule row)
      checkpoints := db.checkpoints.put
        (poll.claim.lease (checkpointOf db.checkpoints row.providerInstanceId)) } := rfl

omit [Runtime] in
theorem lease_id (checkpoint : ProviderCheckpoint) :
    (poll.claim.lease checkpoint).providerInstanceId = checkpoint.providerInstanceId := rfl

omit [Runtime] in
theorem claimOne_only {c : Scope} (hi : row.providerInstanceId = c.providerInstanceId) :
    c.only (claimOne poll db row) = claimOne poll (c.only db) row := by
  have hcheckpoint : checkpointOf (c.only db).checkpoints row.providerInstanceId =
      checkpointOf db.checkpoints row.providerInstanceId := checkpointOf_only _ hi
  have hid :
      (poll.claim.lease (checkpointOf db.checkpoints row.providerInstanceId)).providerInstanceId =
      c.providerInstanceId := (checkpointOf_id _ _).trans hi
  have hinstance : ∀ r : ProviderInstance, r.providerInstanceId =
      (poll.claim.schedule row).providerInstanceId → r.providerInstanceId = c.providerInstanceId :=
    fun r hr => hr.trans hi
  have hput : (db.instances.put (poll.claim.schedule row)).restrict
        (fun r => r.providerInstanceId = c.providerInstanceId) =
      (c.only db).instances.put (poll.claim.schedule row) := put_restrict hinstance
  rw [claimOne_eq, claimOne_eq, hcheckpoint, put_checkpoint_only hid, ← hput]
  rfl

omit [Runtime] in
theorem only_claimOne {c : Scope} (hi : row.providerInstanceId ≠ c.providerInstanceId) :
    c.only (claimOne poll db row) = c.only db := by
  have hid :
      (poll.claim.lease (checkpointOf db.checkpoints row.providerInstanceId)).providerInstanceId ≠
      c.providerInstanceId := fun he => hi ((checkpointOf_id _ _).symm.trans he)
  have hput : (db.instances.put (poll.claim.schedule row)).restrict
        (fun r => r.providerInstanceId = c.providerInstanceId) =
      db.instances.restrict fun r => r.providerInstanceId = c.providerInstanceId :=
    restrict_put_other fun r hr he => hi (hr.symm.trans he)
  rw [claimOne_eq]
  unfold Scope.only
  simp only [hput, only_put_checkpoint hid]

/-! ### The batch is local -/

omit [Runtime] in
theorem keepsKeys_claimOne (hids : (rows.map ProviderInstance.providerInstanceId).Nodup)
    (hkeys : KeepsKeys rows db) (hmem : row ∈ rows) : KeepsKeys rows (claimOne poll db row) := by
  intro row' hmem' stored hstored
  rw [claimOne_eq] at hstored
  simp only [Table.get_put] at hstored
  split_ifs at hstored with hid
  · have hsame : row' = row := List.inj_on_of_nodup_map hids hmem' hmem hid
    rw [hsame, ← Option.some.inj hstored]
    rfl
  · exact hkeys row' hmem' stored hstored

variable (std lib poll) in
theorem local_claim (hids : (rows.map ProviderInstance.providerInstanceId).Nodup) :
    Local (KeepsKeys rows) rows (fun row => (scopeOf std lib poll row).only) (claimOne poll) where
  keeps hkeys hmem := keepsKeys_claimOne hids hkeys hmem
  frame {db row row'} _ hmem hmem' hne := by
    refine only_claimOne fun hid => hne ?_
    exact (List.inj_on_of_nodup_map hids hmem' hmem hid).symm
  own _ _ := claimOne_only rfl

theorem keepsKeys_settle (hkeys : KeepsKeys rows db) (lease : ProviderLease) :
    KeepsKeys rows (settle std lib poll db lease) := by
  intro row hmem stored hstored
  rw [(keeps_settle std lib poll db lease).instances] at hstored
  exact hkeys row hmem stored hstored

/-- **Instances are settled locally.** -/
theorem local_settle (hids : (rows.map ProviderInstance.providerInstanceId).Nodup)
    (hproviders : (rows.map ProviderInstance.providerKey).Nodup)
    (hcollision : NoCollision std lib poll rows) :
    Local (KeepsKeys rows) rows (fun row => (scopeOf std lib poll row).only)
      (fun db row => settle std lib poll db (poll.claim.leased row)) where
  keeps hkeys _ := keepsKeys_settle hkeys _
  frame {db row row'} hkeys hmem hmem' hne := by
    have hid : row.providerInstanceId ≠ row'.providerInstanceId :=
      fun he => hne (List.inj_on_of_nodup_map hids hmem hmem' he)
    have hkey : row.providerKey ≠ row'.providerKey :=
      fun he => hne (List.inj_on_of_nodup_map hproviders hmem hmem' he)
    exact only_settle (scopeOf_apart hcollision hmem hmem' hid hkey) hkeys hmem'
  own hkeys hmem := settle_only hkeys hmem

end Local

end EventServer.Scheduler.PollIsolation
