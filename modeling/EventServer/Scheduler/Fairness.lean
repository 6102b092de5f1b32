import Mathlib.Data.Prod.Lex
import Mathlib.Data.String.Basic
import EventServer.Lib.Potential
import EventServer.Scheduler.Polling

/-! # No instance is passed over forever

A claim takes the instances that have been due for the longest time, and schedules each of them
after the present. So an instance that is due and not leased is claimed once the instances ahead of
it are: a claim that leaves it out schedules as many of them behind it as it may, and no other
transaction touches the schedule. It is claimed within as many claims as its place takes
(`claimed_within`), whatever becomes of the other instances: nobody has to finish with them, or to
release them. -/

namespace EventServer.Scheduler.Fairness

open EventServer.Core EventServer.Core.Processing EventServer.Db EventServer.Lib EventServer.Python
open EventServer.Core.Observations (checkpointOf_id checkpointOf_put)
open EventServer.Providers EventServer.Providers.Warframe
open EventServer.Scheduler.Leases EventServer.Scheduler.PollIsolation
  EventServer.Scheduler.PollRunner
open EventServer.Scheduler.Polling

/-- `row` is not `r`, and a claim may take it before `r`. -/
def ahead (r row : ProviderInstance) : Bool :=
  row.enabled && row.providerInstanceId ≠ r.providerInstanceId && before row r

/-- The place of `r` in the schedule. -/
def place (r : ProviderInstance) (t : ProviderInstances) : ℕ := t.rows.countP (ahead r)

/-- The instance is as in `r`, due at `t₀` and not leased then. -/
def Waits (t₀ : Time) (r : ProviderInstance) (db : Db) : Prop :=
  db.instances.get r.providerInstanceId = some r ∧
    due t₀ r (db.checkpoints.get r.providerInstanceId) = true

/-- No interval is negative. -/
def Forward (t : ProviderInstances) : Prop :=
  ∀ row ∈ t, ∀ n, row.intervalSeconds = some n → 0 ≤ n

/-- A claim reads its clock at `t₀` or later. -/
def Prompt (t₀ : Time) : Event → Prop
  | .claim poll _ => t₀ ≤ poll.now
  | _ => True

/-- A claim for `l` instances or more, while nobody has locked `r`. -/
def roomyClaim (r : ProviderInstance) (l : ℕ) : Event → Bool
  | .claim poll locked => l ≤ poll.limit && !locked r.providerInstanceId
  | _ => false

/-- The instances that a transaction claims. -/
def claims (db : Db) : Event → List ProviderInstance
  | .claim poll locked => dueProviderStatement (tables db) locked poll.now poll.limit
  | _ => []

/-! ### The order of a claim -/

section Order

/-- What a claim orders the instances by: those without a time come first. -/
def rank (row : ProviderInstance) : Bool ×ₗ Time ×ₗ String :=
  toLex (row.nextRunAt.isSome, toLex (row.nextRunAt.getD 0, row.providerInstanceId))

theorem before_iff {row row' : ProviderInstance} : before row row' = true ↔
    rank row ≤ rank row' := by
  unfold before rank
  rw [Prod.Lex.toLex_le_toLex, Prod.Lex.toLex_le_toLex]
  cases row.nextRunAt with
  | none =>
    cases row'.nextRunAt with
    | none => simp
    | some t' => simp
  | some t =>
    cases row'.nextRunAt with
    | none => simp
    | some t' => simp

variable {db : Db} {locked : String → Bool} {now : Time} {limit : ℕ} {r row : ProviderInstance}

/-- The rows a claim could take, in its order. -/
def queue (s : Tables) (locked : String → Bool) (now : Time) : List ProviderInstance :=
  (s.instances.rows.filter fun row => !locked row.providerInstanceId &&
    due now row (s.checkpoints.get row.providerInstanceId)).insertionSort fun row row' =>
      before row row'

theorem pairwise_queue (s : Tables) (locked : String → Bool) (now : Time) :
    (queue s locked now).Pairwise fun row row' => before row row' = true := by
  unfold queue
  simp only [before_iff]
  have htotal : Std.Total fun row row' : ProviderInstance => rank row ≤ rank row' :=
    ⟨fun _ _ => le_total _ _⟩
  have htrans : IsTrans ProviderInstance fun row row' => rank row ≤ rank row' :=
    ⟨fun _ _ _ => le_trans⟩
  exact List.pairwise_insertionSort _ _

/-- **A claim that leaves out an instance it could take** takes as many as it may, all of them
before it. -/
theorem claims_full {poll : Poll} (hr : r ∈ queue (tables db) locked poll.now)
    (hout : r ∉ claims db (.claim poll locked)) :
    (claims db (.claim poll locked)).length = poll.limit ∧
      ∀ row ∈ claims db (.claim poll locked), before row r = true := by
  have htake : claims db (.claim poll locked) = (queue (tables db) locked poll.now).take
      poll.limit := rfl
  rw [htake] at hout ⊢
  refine ⟨length_take_of_left_out hr hout, fun row hrow => ?_⟩
  have hbefore := le_of_mem_take (pairwise_queue (tables db) locked poll.now) hr hout hrow
  exact hbefore

end Order

/-! ### What a claim does to the place of an instance -/

section Place

variable {t₀ : Time} {r row : ProviderInstance} {db : Db} {s : Tables} {a : ClaimDue}

theorem interval_pos (hlease : 0 < a.leaseSeconds)
    (h : ∀ n, row.intervalSeconds = some n → 0 ≤ n) : 0 < a.interval row := by
  unfold ClaimDue.interval
  cases hi : row.intervalSeconds with
  | none => exact hlease
  | some n =>
    have hn : 0 ≤ n := h n hi
    simp only
    split_ifs with hzero
    · exact hlease
    · omega

/-- **An instance that has been claimed is behind** those that are due. -/
theorem not_ahead_schedule (hlease : 0 < a.leaseSeconds) (hnow : t₀ ≤ a.now)
    (hr : dueAt t₀ r = true) (h : ∀ n, row.intervalSeconds = some n → 0 ≤ n) :
    ahead r (a.schedule row) = false := by
  have hpos := interval_pos hlease h
  have hbehind : before (a.schedule row) r = false := by
    unfold before ClaimDue.schedule
    cases hn : r.nextRunAt with
    | none => rfl
    | some t =>
      have ht : t ≤ t₀ := by simpa [dueAt, hn] using hr
      have hlater : t < a.now + seconds (a.interval row) := by
        refine lt_of_le_of_lt (le_trans ht hnow) (Int.lt_add_of_pos_right _ ?_)
        unfold seconds
        omega
      simp only [Bool.or_eq_false_iff, Bool.and_eq_false_imp, decide_eq_false_iff_not, not_lt,
        decide_eq_true_eq]
      exact ⟨hlater.le, fun heq => absurd heq hlater.ne'⟩
  unfold ahead
  rw [hbehind, Bool.and_false]

theorem place_foldl {rows : List ProviderInstance}
    (hstored : ∀ row ∈ rows, s.instances.get row.providerInstanceId = some row)
    (hnodup : (rows.map ProviderInstance.providerInstanceId).Nodup)
    (hbehind : ∀ row ∈ rows, ahead r (a.schedule row) = false) :
    place r (rows.foldl a.claimRow s).instances + rows.countP (ahead r) = place r s.instances := by
  induction rows generalizing s with
  | nil => simp
  | cons row rows ih =>
    rw [List.map_cons, List.nodup_cons] at hnodup
    have hput := Table.countP_put (t := s.instances) (r := a.schedule row) (ahead r)
      (hstored row List.mem_cons_self)
    rw [hbehind row List.mem_cons_self] at hput
    have hrest : ∀ row' ∈ rows,
        (a.claimRow s row).instances.get row'.providerInstanceId = some row' := by
      intro row' hmem
      show (s.instances.put (a.schedule row)).get _ = _
      rw [Table.get_put, if_neg]
      · exact hstored row' (List.mem_cons_of_mem row hmem)
      · intro hid
        refine hnodup.1 ?_
        have : row'.providerInstanceId = row.providerInstanceId := hid
        rw [← this]
        exact List.mem_map_of_mem hmem
    have hloop := ih hrest hnodup.2 fun row' hmem => hbehind row' (List.mem_cons_of_mem row hmem)
    have hone : place r (a.claimRow s row).instances + (if ahead r row then 1 else 0) =
        place r s.instances := by
      simp only [Bool.false_eq_true, if_false, Nat.add_zero] at hput
      exact hput
    rw [List.foldl_cons, List.countP_cons]
    omega

theorem get_foldl {rows : List ProviderInstance} {i : String}
    (h : ∀ row ∈ rows, row.providerInstanceId ≠ i) :
    (rows.foldl a.claimRow s).instances.get i = s.instances.get i ∧
      (rows.foldl a.claimRow s).checkpoints.get i = s.checkpoints.get i := by
  induction rows generalizing s with
  | nil => exact ⟨rfl, rfl⟩
  | cons row rows ih =>
    have hne : row.providerInstanceId ≠ i := h row List.mem_cons_self
    obtain ⟨hinst, hcheck⟩ := ih (s := a.claimRow s row) fun row' hmem =>
      h row' (List.mem_cons_of_mem row hmem)
    rw [List.foldl_cons, hinst, hcheck]
    constructor
    · show (s.instances.put (a.schedule row)).get i = _
      rw [Table.get_put, if_neg fun hid => hne hid.symm]
    · show (s.checkpoints.put (a.lease _)).get i = _
      have hid : (a.lease (checkpointOf s.checkpoints row.providerInstanceId)).providerInstanceId =
          row.providerInstanceId := checkpointOf_id _ _
      rw [Table.get_put, hid, if_neg fun hid => hne hid.symm]

theorem forward_foldl {rows : List ProviderInstance} (hf : Forward s.instances)
    (h : ∀ row ∈ rows, ∀ n, row.intervalSeconds = some n → 0 ≤ n) :
    Forward (rows.foldl a.claimRow s).instances := by
  induction rows generalizing s with
  | nil => exact hf
  | cons row rows ih =>
    refine ih ?_ fun row' hmem => h row' (List.mem_cons_of_mem row hmem)
    intro row' hmem n hn
    have hmem' : row' ∈ s.instances.put (a.schedule row) := hmem
    rw [Table.mem_put] at hmem'
    rcases hmem' with rfl | ⟨hold, -⟩
    · exact h row List.mem_cons_self n hn
    · exact hf row' hold n hn

end Place

/-! ### What the other transactions leave -/

section Others

variable [Runtime] {std : Stdlib} {lib : WorldState.Library} {maxAttempts : ℕ} {t₀ : Time}
  {r : ProviderInstance} {w : World} {db db' : Db}

/-- The schedule is as it was, and no lease has been taken. -/
structure Unscheduled (t₀ : Time) (db db' : Db) : Prop where
  instances : db'.instances = db.instances
  free : ∀ i, leaseOver t₀ (checkpointOf db.checkpoints i) = true →
    leaseOver t₀ (checkpointOf db'.checkpoints i) = true

omit [Runtime] in
theorem Unscheduled.refl (t₀ : Time) (db : Db) : Unscheduled t₀ db db := ⟨rfl, fun _ => id⟩

omit [Runtime] in
theorem Unscheduled.trans {db'' : Db} (h : Unscheduled t₀ db db') (h' : Unscheduled t₀ db' db'') :
    Unscheduled t₀ db db'' :=
  ⟨h'.instances.trans h.instances, fun i hi => h'.free i (h.free i hi)⟩

omit [Runtime] in
theorem unscheduled_put {c : ProviderCheckpoint} (hinst : db'.instances = db.instances)
    (hput : db'.checkpoints = db.checkpoints.put c)
    (h : leaseOver t₀ (checkpointOf db.checkpoints c.providerInstanceId) = true →
      leaseOver t₀ c = true) : Unscheduled t₀ db db' := by
  refine ⟨hinst, fun i hi => ?_⟩
  rw [hput, checkpointOf_put]
  split_ifs with hid
  · rw [hid] at hi
    exact h hi
  · exact hi

omit [Runtime] in
theorem checkpointOf_of_get {checkpoints : ProviderCheckpoints} {i : String}
    {c : ProviderCheckpoint} (h : checkpoints.get i = some c) : checkpointOf checkpoints i = c := by
  unfold checkpointOf
  rw [h]
  rfl

omit [Runtime] in
theorem unscheduled_release (t₀ : Time) (owner : String) (db : Db) (i : String) :
    Unscheduled t₀ db (release owner db i).1 := by
  rcases release_cases owner db i with ⟨checkpoint, hget, -, hrelease⟩ | ⟨-, hrelease⟩
  · rw [hrelease]
    exact unscheduled_put (c := free checkpoint) rfl rfl fun _ => rfl
  · rw [hrelease]
    exact .refl t₀ db

omit [Runtime] in
theorem unscheduled_recordLeaseFailure {poll : Poll} {lease : ProviderLease}
    (h : recordLeaseFailure poll lease db = .ok ((), db')) : Unscheduled t₀ db db' := by
  unfold recordLeaseFailure at h
  simp only [bind_eq_ok, mapError_eq_ok] at h
  obtain ⟨db₁, hfail, h⟩ := h
  cases h
  obtain ⟨checkpoint, hget, rfl⟩ := Observations.recordFailure_ok hfail
  have hid : checkpoint.providerInstanceId = lease.providerInstanceId := Table.key_of_get hget
  have hcount : Unscheduled t₀ db
      { db with checkpoints := db.checkpoints.put (countFailure checkpoint) } := by
    refine unscheduled_put (c := countFailure checkpoint) rfl rfl fun hover => ?_
    have hc : checkpointOf db.checkpoints (countFailure checkpoint).providerInstanceId =
        checkpoint :=
      checkpointOf_of_get (hid ▸ hget)
    rw [hc] at hover
    exact hover
  exact hcount.trans (unscheduled_release t₀ poll.owner _ lease.providerInstanceId)

theorem unscheduled_process {call : Process Raw} {done : Processed}
    (h : process (registry std) db call = .ok done) : Unscheduled t₀ db done.db := by
  obtain ⟨row, provider, -, -, -, -, hprocess⟩ := Observations.process_ok h
  obtain ⟨-, hinst, hput⟩ := Observations.processObservation_ok hprocess
  rcases hput with ⟨-, -, -, hput⟩ | ⟨-, hput, -⟩
  · refine unscheduled_put hinst hput fun hover => ?_
    have hid : (touch (checkpointOf db.checkpoints call.providerInstanceId)
        done.current).providerInstanceId = call.providerInstanceId := checkpointOf_id _ _
    rw [hid] at hover
    exact hover
  · refine unscheduled_put hinst hput fun hover => ?_
    have hid : (advance (checkpointOf db.checkpoints call.providerInstanceId)
        done.current).providerInstanceId = call.providerInstanceId := checkpointOf_id _ _
    rw [hid] at hover
    exact hover

/-- A transaction that is not a claim leaves the schedule as it is, and takes no lease. -/
theorem unscheduled_next {e : Event} (he : ∀ poll locked, e ≠ .claim poll locked) :
    Unscheduled t₀ w.base.db (next std lib maxAttempts w e).base.db := by
  cases e with
  | claim poll locked => exact absurd rfl (he poll locked)
  | process poll lease payload =>
    unfold next
    simp only
    cases WorldState.extract lib lease.providerKey payload with
    | error e => exact .refl _ _
    | ok raw =>
      simp only
      cases hdone : process (registry std) w.base.db (processCall poll lease raw) with
      | error e => exact .refl _ _
      | ok done =>
        simp only
        have hfree := unscheduled_release t₀ poll.owner done.db lease.providerInstanceId
        cases hrelease : release poll.owner done.db lease.providerInstanceId with
        | mk db released =>
          rw [hrelease] at hfree
          cases released with
          | false => exact .refl _ _
          | true => exact (unscheduled_process hdone).trans hfree
  | recordFailure poll lease =>
    unfold next
    simp only
    cases hfail : recordLeaseFailure poll lease w.base.db with
    | error e => exact .refl _ _
    | ok r => exact unscheduled_recordLeaseFailure hfail
  | request op => exact ⟨rfl, fun _ => id⟩

omit [Runtime] in
theorem all_leaseOver (checkpoints : ProviderCheckpoints) (i : String) :
    (checkpoints.get i).all (leaseOver t₀) = leaseOver t₀ (checkpointOf checkpoints i) := by
  unfold checkpointOf
  cases checkpoints.get i <;> rfl

omit [Runtime] in
theorem Waits.unscheduled (h : Waits t₀ r db) (hu : Unscheduled t₀ db db') : Waits t₀ r db' := by
  obtain ⟨hget, hdue⟩ := h
  refine ⟨by rw [hu.instances, hget], ?_⟩
  simp only [due, all_leaseOver, Bool.and_eq_true] at hdue ⊢
  exact ⟨hdue.1, hu.free _ hdue.2⟩

end Others

/-! ### Runs -/

section Runs

variable [Runtime] {std : Stdlib} {lib : WorldState.Library} {maxAttempts : ℕ} {t₀ : Time}
  {r : ProviderInstance} {w : World} {poll : Poll} {locked : String → Bool}

omit [Runtime] in
theorem mem_claims {row : ProviderInstance} {db : Db} (h : row ∈ claims db (.claim poll locked)) :
    db.instances.get row.providerInstanceId = some row ∧
      due poll.now row (db.checkpoints.get row.providerInstanceId) = true :=
  ⟨(mem_dueProviderStatement h).1, (mem_dueProviderStatement h).2.2⟩

omit [Runtime] in
theorem nodup_claims (db : Db) (poll : Poll) (locked : String → Bool) :
    ((claims db (.claim poll locked)).map ProviderInstance.providerInstanceId).Nodup :=
  nodup_dueProviderStatement

/-- What holds in between: `r` waits, and no interval is negative. -/
def Pending (t₀ : Time) (r : ProviderInstance) (w : World) : Prop :=
  Waits t₀ r w.base.db ∧ Forward w.base.db.instances

theorem pending_next {e : Event} (h : Pending t₀ r w) (hout : r ∉ claims w.base.db e) :
    Pending t₀ r (next std lib maxAttempts w e) := by
  by_cases he : ∃ poll locked, e = .claim poll locked
  · obtain ⟨poll, locked, rfl⟩ := he
    have hother : ∀ row ∈ claims w.base.db (.claim poll locked),
        row.providerInstanceId ≠ r.providerInstanceId := by
      intro row hmem hid
      have hget := (mem_claims hmem).1
      rw [hid, h.1.1, Option.some_inj] at hget
      exact hout (hget ▸ hmem)
    obtain ⟨hinst, hcheck⟩ := get_foldl (a := poll.claim) (s := tables w.base.db) hother
    have hget : (next std lib maxAttempts w (.claim poll locked)).base.db.checkpoints.get
        r.providerInstanceId = w.base.db.checkpoints.get r.providerInstanceId := hcheck
    refine ⟨⟨hinst.trans h.1.1, by rw [hget, h.1.2]⟩, ?_⟩
    refine forward_foldl (a := poll.claim) (s := tables w.base.db) h.2 fun row hmem => ?_
    exact h.2 row (Table.mem_of_get (mem_claims hmem).1)
  · have hu : Unscheduled t₀ w.base.db (next std lib maxAttempts w e).base.db :=
      unscheduled_next fun poll locked heq => he ⟨poll, locked, heq⟩
    refine ⟨h.1.unscheduled hu, ?_⟩
    rw [hu.instances]
    exact h.2

variable (std lib maxAttempts) in
/-- What a claim takes from the instances ahead of `r` it puts behind it. -/
theorem place_claim (locked : String → Bool) (h : Pending t₀ r w) (hnow : t₀ ≤ poll.now) :
    place r (next std lib maxAttempts w (.claim poll locked)).base.db.instances +
      (claims w.base.db (.claim poll locked)).countP (ahead r) = place r w.base.db.instances := by
  refine place_foldl (a := poll.claim) (s := tables w.base.db) (fun row hmem => (mem_claims hmem).1)
    (nodup_claims w.base.db poll locked) fun row hmem => ?_
  have hdue : dueAt t₀ r = true := by
    have := h.1.2
    simp only [due, Bool.and_eq_true] at this
    exact this.1.2
  refine not_ahead_schedule (a := poll.claim) ?_ hnow hdue ?_
  · show (0 : ℤ) < 60
    decide
  · exact h.2 row (Table.mem_of_get (mem_claims hmem).1)

variable (std lib maxAttempts) in
/-- No transaction puts an instance ahead of `r`. -/
theorem place_next {e : Event} (h : Pending t₀ r w) (he : Prompt t₀ e) :
    place r (next std lib maxAttempts w e).base.db.instances ≤ place r w.base.db.instances := by
  by_cases hclaim : ∃ poll locked, e = .claim poll locked
  · obtain ⟨poll, locked, rfl⟩ := hclaim
    have hplace := place_claim std lib maxAttempts locked h he
    omega
  · have hu : Unscheduled t₀ w.base.db (next std lib maxAttempts w e).base.db :=
      unscheduled_next fun poll locked heq => hclaim ⟨poll, locked, heq⟩
    rw [hu.instances]

omit [Runtime] in
/-- **A claim that leaves `r` out** takes as many instances that are ahead of it as it may. -/
theorem countP_left_out (h : Pending t₀ r w) (hnow : t₀ ≤ poll.now)
    (hunlocked : locked r.providerInstanceId = false)
    (hout : r ∉ claims w.base.db (.claim poll locked)) :
    (claims w.base.db (.claim poll locked)).countP (ahead r) = poll.limit := by
  have hdue : due poll.now r (w.base.db.checkpoints.get r.providerInstanceId) = true := by
    have hdue₀ := h.1.2
    simp only [due, Bool.and_eq_true, all_leaseOver] at hdue₀ ⊢
    obtain ⟨⟨henabled, hat⟩, hover⟩ := hdue₀
    refine ⟨⟨henabled, ?_⟩, ?_⟩
    · unfold dueAt at hat ⊢
      cases hn : r.nextRunAt with
      | none => rfl
      | some t =>
        simp only [hn, decide_eq_true_eq] at hat ⊢
        exact le_trans hat hnow
    · unfold leaseOver at hover ⊢
      cases hl : (checkpointOf w.base.db.checkpoints r.providerInstanceId).leaseUntil with
      | none => rfl
      | some t =>
        simp only [hl, decide_eq_true_eq] at hover ⊢
        exact lt_of_lt_of_le hover hnow
  have hqueue : r ∈ queue (tables w.base.db) locked poll.now := by
    unfold queue
    rw [List.mem_insertionSort, List.mem_filter]
    exact ⟨Table.mem_of_get
      h.1.1, by simp only [hunlocked, Bool.not_false, Bool.true_and]; exact hdue⟩
  obtain ⟨hlength, hbefore⟩ := claims_full hqueue hout
  rw [← hlength, List.countP_eq_length]
  intro row hmem
  have henabled : row.enabled = true := by
    have := (mem_claims hmem).2
    simp only [due, Bool.and_eq_true] at this
    exact this.1.1
  have hne : row.providerInstanceId ≠ r.providerInstanceId := by
    intro hid
    have hget := (mem_claims hmem).1
    rw [hid, h.1.1, Option.some_inj] at hget
    exact hout (hget ▸ hmem)
  simp [ahead, henabled, hne, hbefore row hmem]

/-- A claim with room for `l` instances costs `l`. -/
def claimCost (r : ProviderInstance) (l : ℕ) (_ : World) (e : Event) : ℕ :=
  if roomyClaim r l e then l else 0

variable (std lib maxAttempts) in
/-- **Claims that leave `r` out use up its place.** -/
theorem claims_left_out (l : ℕ) {events : List Event} (h : Pending t₀ r w)
    (hprompt : ∀ e ∈ events, Prompt t₀ e)
    (hout : Along (next std lib maxAttempts) (fun w e => r ∉ claims w.base.db e) w events) :
    l * events.countP (roomyClaim r l) ≤ place r w.base.db.instances := by
  have hcost : l * events.countP (roomyClaim r l) ≤
      total (next std lib maxAttempts) (claimCost r l) w events :=
    mul_countP_le_total (fun _ _ he => by rw [claimCost, if_pos he]) w events
  have hboth : Along (next std lib maxAttempts)
      (fun w e => Prompt t₀ e ∧ r ∉ claims w.base.db e) w events := by
    intro pre e post he
    exact ⟨hprompt e (he ▸ by simp), hout pre e post he⟩
  have hpaid : total (next std lib maxAttempts) (claimCost r l) w events +
      place r (run (next std lib maxAttempts) w events).base.db.instances ≤
        place r w.base.db.instances := by
    refine total_add_le (Φ := fun w => place r w.base.db.instances) (I := Pending t₀ r)
      (fun w e h ⟨hp, ho⟩ => ?_) h hboth
    refine ⟨pending_next h ho, ?_⟩
    unfold claimCost
    split_ifs with hroomy
    · cases e with
      | claim poll locked =>
        simp only [roomyClaim, Bool.and_eq_true, decide_eq_true_eq, Bool.not_eq_true'] at hroomy
        have hplace := place_claim std lib maxAttempts locked h hp
        have htaken := countP_left_out h hp hroomy.2 ho
        omega
      | process | recordFailure | request => cases hroomy
    · have hplace := place_next std lib maxAttempts h hp
      omega
  omega

/-- **No starvation.** An instance that is due and not leased is claimed within as many claims as
its place in the schedule takes: in a run of the transactions of any number of runners whose claims,
while `r` is not locked, have room for more than the instances ahead of it, one of the claims takes
it. -/
theorem claimed_within {l : ℕ} {events : List Event} (hwaits : Waits t₀ r w.base.db)
    (hforward : Forward w.base.db.instances) (hprompt : ∀ e ∈ events, Prompt t₀ e)
    (hroom : place r w.base.db.instances < l * events.countP (roomyClaim r l)) :
    ∃ pre poll locked post, events = pre ++ .claim poll locked :: post ∧
      r ∈ claims (run (next std lib maxAttempts) w pre).base.db (.claim poll locked) := by
  by_contra hnone
  have hout : Along (next std lib maxAttempts) (fun w e => r ∉ claims w.base.db e) w events := by
    intro pre e post he hclaimed
    cases e with
    | claim poll locked => exact hnone ⟨pre, poll, locked, post, he, hclaimed⟩
    | process | recordFailure | request => exact absurd hclaimed List.not_mem_nil
  have hpaid := claims_left_out std lib maxAttempts l ⟨hwaits, hforward⟩ hprompt hout
  omega

end Runs

/-! ### A sample -/

section Sample

/-- A poll of one instance. -/
def samplePoll (now : ℤ) : Poll := { PollBatch.samplePoll with limit := 1, now := seconds now }

/-- The instance that is due first is claimed, and nothing is heard of it any more. -/
def sampleEvents : List Event :=
  [.claim (samplePoll 1789396400) fun _ => false, .claim (samplePoll 1789396401) fun _ => false]

/-- The instance that is due second is claimed by one of two claims. -/
theorem claimed_within_sample : ∃ pre poll locked post,
    sampleEvents = pre ++ .claim poll locked :: post ∧
      PollBatch.sampleGhoul ∈ claims (run
        (@next .sample PollBatch.samplePollLib WorldState.sampleLibrary 5)
        { base := { db := PollBatch.samplePollDb } } pre).base.db (.claim poll locked) := by
  have hplace : place PollBatch.sampleGhoul PollBatch.samplePollDb.instances = 1 := by decide
  refine @claimed_within .sample PollBatch.samplePollLib WorldState.sampleLibrary 5
    (seconds 1789396400)
    PollBatch.sampleGhoul { base := { db := PollBatch.samplePollDb } } 1 sampleEvents
      ⟨rfl, by decide⟩ ?_ ?_
    (by rw [hplace]; decide)
  · intro row hmem n hn
    have hrows : row ∈ [PollBatch.sampleGhoul, PollBatch.sampleCetus] := hmem
    simp only [List.mem_cons, List.not_mem_nil, or_false] at hrows
    rcases hrows with rfl | rfl <;> cases hn
  · simp [sampleEvents, Prompt, samplePoll, seconds]

end Sample

end EventServer.Scheduler.Fairness
