import EventServer.Deliveries.Steps

/-! # The bound on resending

`attempts` counts the claims that handed a delivery out (`attempts_run`). A reported failure gives a
delivery back only while `attempts` is below `max_attempts`; a lease that runs out gives it back
whatever `attempts` is. So the bound holds in the runs in which no claim meets a spent lease: one
that is over, on a delivery that has used up its attempts (`resending_bounded`). -/

namespace EventServer.Deliveries.Attempts

open EventServer.Db EventServer.Lib EventServer.Python
open EventServer.Deliveries.Outbox EventServer.Deliveries.Steps

/-- The lease of `d` is over and no attempt is left. -/
def spentLease (n : ℕ) (now : Time) (d : Delivery) : Bool :=
  d.status = .leased && leaseOver now d && n ≤ d.attempts

/-- The call is a claim for the platform of `k`, whose lease is spent. -/
def MeetsSpentLease (n : ℕ) (t : Deliveries) (k : String) : Call → Prop
  | .claim a => ∃ d, t.get k = some d ∧ d.platform = a.platform ∧ spentLease n a.now d = true
  | _ => False

instance (n : ℕ) (t : Deliveries) (k : String)
    (c : Call) : Decidable (MeetsSpentLease n t k c) := by
  cases c <;> unfold MeetsSpentLease <;> infer_instance

variable [Runtime]

/-- How many claims of a run hand out `k`. -/
def handouts (n : ℕ) (t : Deliveries) (k : String) : List Call → ℕ
  | [] => 0
  | c :: calls => (if Returns t k c then 1 else 0) + handouts n (step n t c) k calls

theorem handouts_append {n : ℕ} {t : Deliveries} {k : String} {calls calls' : List Call} :
    handouts n t k (calls ++ calls') =
      handouts n t k calls + handouts n (run (step n) t calls) k calls' := by
  induction calls generalizing t with
  | nil => simp [handouts]
  | cons c calls ih => rw [List.cons_append, handouts, handouts, ih, run_cons, Nat.add_assoc]

theorem handouts_eq_zero {n : ℕ} {t : Deliveries} {k : String} {calls : List Call} :
    handouts n t k calls = 0 ↔ Along (step n) (fun t c => ¬ Returns t k c) t calls := by
  induction calls generalizing t with
  | nil => simp [handouts, along_nil]
  | cons c calls ih =>
    rw [handouts, Nat.add_eq_zero_iff, ih, along_cons]
    simp

/-! ### Attempts -/

omit [Runtime] in
/-- The attempts of `k`, none if it is not stored. -/
def attemptsOf (t : Deliveries) (k : String) : ℕ := ((t.get k).map (·.attempts)).getD 0

omit [Runtime] in
theorem attempts_ack (a : Ack) (d : Delivery) : (a.apply d).attempts = d.attempts := rfl

omit [Runtime] in
theorem attempts_fail (a : Fail) (n : ℕ) (d : Delivery) :
    (a.apply n d).attempts = d.attempts := by
  simp only [Fail.apply, clearLease]; split_ifs <;> rfl

theorem attempts_step (n : ℕ) (t : Deliveries) (k : String) (c : Call) :
    attemptsOf (step n t c) k = attemptsOf t k + if Returns t k c then 1 else 0 := by
  cases step_cases n t k c with
  | keep h hr => simp [attemptsOf, h, hr]
  | enqueue d _ h h' => simp [attemptsOf, h, h', d.property.attempts, Returns, returned]
  | claim d h _ _ hc h' =>
    have hk : d.deliveryId = k := Table.key_of_get h
    have hr : Returns t k (.claim _) := ⟨_, hc, hk⟩
    simp [attemptsOf, h, h', hr, Claim.lease]
  | ack d _ h _ h' => simp [attemptsOf, h, h', attempts_ack, Returns, returned]
  | fail d _ h _ h' => simp [attemptsOf, h, h', attempts_fail, Returns, returned]

/-- **Attempts count claims.** -/
theorem attempts_run (n : ℕ) (t : Deliveries) (k : String) (calls : List Call) :
    attemptsOf (run (step n) t calls) k = attemptsOf t k + handouts n t k calls := by
  induction calls generalizing t with
  | nil => rfl
  | cons c calls ih => rw [run_cons, ih, attempts_step, handouts, Nat.add_assoc]

/-! ### The invariant -/

/-- What the bound on resending rests on: a delivery that waits for an attempt has one left. -/
structure Bounded (n : ℕ) (d : Delivery) : Prop where
  attempts : d.attempts ≤ n
  pending : d.status = .pending → d.attempts = 0
  retry : d.status = .retry → d.attempts < n

omit [Runtime] in
theorem bounded_new {n : ℕ} (d : NewDelivery) : Bounded n d.val where
  attempts := by rw [d.property.attempts]; exact Nat.zero_le n
  pending _ := d.property.attempts
  retry h := by rw [d.property.status] at h; cases h

theorem bounded_lease {n : ℕ} (hn : 1 ≤ n) {a : Claim} {d : Delivery} (hd : Bounded n d)
    (he : eligible a.now d = true) (hs : ¬ spentLease n a.now d = true) :
    Bounded n (a.lease d) where
  attempts := by
    have hlt : d.attempts < n := by
      cases hst : d.status with
      | pending => rw [hd.pending hst]; exact hn
      | retry => exact hd.retry hst
      | leased =>
        have hover : leaseOver a.now d = true := by simpa [eligible, hst] using he
        simpa [spentLease, hst, hover] using hs
      | sent => simp [eligible, hst] at he
      | dead => simp [eligible, hst] at he
    exact hlt
  pending h := by cases h
  retry h := by cases h

omit [Runtime] in
theorem bounded_ack {n : ℕ} (a : Ack) {d : Delivery} (hd : Bounded n d) :
    Bounded n (a.apply d) where
  attempts := hd.attempts
  pending h := by cases h
  retry h := by cases h

omit [Runtime] in
theorem bounded_fail {n : ℕ} (a : Fail) {d : Delivery} (hd : Bounded n d) :
    Bounded n (a.apply n d) := by
  by_cases h : a.retryable ∧ d.attempts < n
  · exact
      { attempts := by rw [attempts_fail]; exact hd.attempts
        pending := by simp [Fail.apply, clearLease, h]
        retry := by rw [attempts_fail]; exact fun _ => h.2 }
  · exact
      { attempts := by rw [attempts_fail]; exact hd.attempts
        pending := by simp [Fail.apply, clearLease, h]
        retry := by simp [Fail.apply, clearLease, h] }

/-- `Bounded`, if `k` is stored. -/
def BoundedAt (n : ℕ) (k : String) (t : Deliveries) : Prop := ∀ d, t.get k = some d → Bounded n d

theorem bounded_step {n : ℕ} (hn : 1 ≤ n) {t : Deliveries} {k : String} {c : Call}
    (h : BoundedAt n k t) (hc : ¬ MeetsSpentLease n t k c) : BoundedAt n k (step n t c) := by
  intro d' hd'
  cases step_cases n t k c with
  | keep h' => rw [h'] at hd'; exact h d' hd'
  | enqueue d _ _ h' =>
    rw [h'] at hd'
    cases hd'
    exact bounded_new d
  | claim d hg he hp _ h' =>
    rw [h'] at hd'
    cases hd'
    exact bounded_lease hn (h d hg) he fun hs => hc ⟨d, hg, hp, hs⟩
  | @ack a d _ hg _ h' =>
    rw [h'] at hd'
    cases hd'
    exact bounded_ack a (h d hg)
  | @fail a d _ hg _ h' =>
    rw [h'] at hd'
    cases hd'
    exact bounded_fail a (h d hg)

theorem bounded_run {n : ℕ} (hn : 1 ≤ n) {k : String} {calls : List Call}
    (hc : Along (step n) (fun t c => ¬ MeetsSpentLease n t k c) .empty calls) :
    BoundedAt n k (run (step n) .empty calls) :=
  run_invariant (fun _ _ h hc => bounded_step hn h hc) (fun d hd => by cases hd) hc

theorem handouts_le {n : ℕ} (hn : 1 ≤ n) {k : String} {calls : List Call}
    (hc : Along (step n) (fun t c => ¬ MeetsSpentLease n t k c) .empty calls) :
    handouts n .empty k calls ≤ n := by
  have hrun := attempts_run n .empty k calls
  have hz : attemptsOf (.empty : Deliveries) k = 0 := rfl
  rw [hz, Nat.zero_add] at hrun
  rw [← hrun]
  unfold attemptsOf
  cases hg : (run (step n) .empty calls).get k with
  | none => exact Nat.zero_le n
  | some d => exact (bounded_run hn hc d hg).attempts

/-- A claim with room for every row hands out a delivery whose lease is spent. -/
theorem returns_spent {n : ℕ} {t : Deliveries} {k : String} {a : Claim}
    (h : MeetsSpentLease n t k (.claim a)) (hl : t.rows.length ≤ a.limit) :
    Returns t k (.claim a) := by
  obtain ⟨d, hg, hp, hs⟩ := h
  simp only [spentLease, Bool.and_eq_true, decide_eq_true_eq] at hs
  have he : eligible a.now d = true := by simp [eligible, hs]
  rw [returns_claim, ← Table.key_of_get hg]
  exact List.mem_map_of_mem (mem_claimStatement_of_limit hl (Table.mem_of_get hg) hp he)

/-- **Resending is bounded exactly where no claim meets a spent lease.** In a run without such a
claim `attempts` never exceeds `n`, `k` is handed out at most `n` times, and after the `n`-th time
never again; a claim that does meet one, with room for every row, hands `k` out once too often. -/
theorem resending_bounded {n : ℕ} (hn : 1 ≤ n) (k : String) (calls : List Call) :
    (Along (step n) (fun t c => ¬ MeetsSpentLease n t k c) .empty calls →
      (∀ pre post d, calls = pre ++ post → (run (step n) .empty pre).get k = some d →
        d.attempts ≤ n) ∧
      handouts n .empty k calls ≤ n ∧
      ∀ pre post, calls = pre ++ post → handouts n .empty k pre = n →
        Along (step n) (fun t c => ¬ Returns t k c) (run (step n) .empty pre) post) ∧
    ∀ pre a post, calls = pre ++ .claim a :: post →
      MeetsSpentLease n (run (step n) .empty pre) k (.claim a) →
      (run (step n) .empty pre).rows.length ≤ a.limit →
        n < handouts n .empty k (pre ++ [.claim a]) := by
  refine ⟨fun hc => ⟨?_, handouts_le hn hc, ?_⟩, ?_⟩
  · rintro pre post d rfl hd
    exact (bounded_run hn hc.of_append d hd).attempts
  · rintro pre post rfl hpre
    have hle := handouts_le hn hc
    rw [handouts_append] at hle
    exact handouts_eq_zero.mp (by omega)
  · rintro pre a post - hm hl
    have hret := returns_spent hm hl
    obtain ⟨d, hg, -, hs⟩ := hm
    have hat : n ≤ d.attempts := by
      simp only [spentLease, Bool.and_eq_true, decide_eq_true_eq] at hs
      exact hs.2
    have hrun := attempts_run n .empty k pre
    rw [show attemptsOf (.empty : Deliveries) k = 0 from rfl, Nat.zero_add] at hrun
    rw [handouts_append, ← hrun]
    simp only [attemptsOf, hg, Option.map_some, Option.getD_some, handouts, hret, if_true]
    omega

/-! ### Two crashed workers -/

omit [Runtime] in
/-- A worker that claims deliveries for ten seconds at `now` and never reports back. -/
def crash (now : Time) (token : String) : Call :=
  .claim
    { workerId := "w-1", platform := "qqbot", limit := 10, leaseSeconds := 10, now := now,
      token := fun _ => token }

omit [Runtime] in
def sampleCrashes : List Call :=
  [.enqueue 0 [sampleDelivery], crash 0 "token-1", crash (seconds 11) "token-2"]

omit [Runtime] in
theorem resending_bounded_sample : @handouts .sample 2 .empty "d-1" sampleCrashes ≤ 2 := by
  let _ := Runtime.sample
  exact ((resending_bounded (by decide) "d-1" sampleCrashes).1 (by decide)).2.1

omit [Runtime] in
/-- With `max_attempts = 1` the delivery is handed out twice, and has then been attempted twice. -/
theorem handed_out_beyond_bound :
    Clocked sampleCrashes ∧ @handouts .sample 1 .empty "d-1" sampleCrashes = 2 ∧
      ∃ d, (run (@step .sample 1) .empty sampleCrashes).get "d-1" = some d ∧ ¬ d.attempts ≤ 1 :=
  ⟨by decide, by decide, _, rfl, by decide⟩

end EventServer.Deliveries.Attempts
