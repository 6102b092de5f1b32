import EventServer.Deliveries.Spacing
import EventServer.Lib.Potential
import EventServer.Services.Isolation

/-! # No delivery is overtaken forever

A claim takes the deliveries that have been due for the longest time. So a delivery that waits is
handed out once the deliveries ahead of it are: a claim that does not take it takes as many of them
as it may, a failure puts one of them behind it, and so are those that are published meanwhile. A
lease that runs out puts a delivery back in its old place; as long as that does not happen, the
delivery is handed out within as many claims as its place in the queue takes
(`handed_out_within`). -/

namespace EventServer.Deliveries.Fairness

open EventServer.Db EventServer.Lib EventServer.Python
open EventServer.Deliveries.Outbox EventServer.Deliveries.Steps
open EventServer.Deliveries.Spacing (five_le_retryDelay)
open EventServer.Services.Isolation (rank before_iff)

/-- Neither leased nor done. -/
def waiting (d : Delivery) : Bool := d.status = .pending || d.status = .retry

/-- `r` waits on the platform of `d`, and a claim may take it before `d`. -/
def ahead (d r : Delivery) : Bool :=
  waiting r && r.platform = d.platform && r.deliveryId ≠ d.deliveryId &&
    (r.nextAttemptAt < d.nextAttemptAt ||
      (r.nextAttemptAt = d.nextAttemptAt && r.createdAt ≤ d.createdAt))

/-- The place of `d` in the queue of its platform. -/
def place (d : Delivery) (t : Deliveries) : ℕ := t.rows.countP (ahead d)

/-- The call comes after `d` is due and stored; what is published with it is due then at the
earliest, and a claim meets no lease that is over. -/
def Prompt (d : Delivery) (t : Deliveries) : Call → Prop
  | .enqueue now ds => d.nextAttemptAt ≤ now ∧ d.createdAt < now ∧
      ∀ e ∈ ds, now ≤ e.val.nextAttemptAt ∧ e.val.createdAt = now
  | .claim a => d.nextAttemptAt ≤ a.now ∧
      ∀ r ∈ t.rows, r.platform = a.platform → r.status = .leased → leaseOver a.now r = false
  | .ack _ => True
  | .fail a => d.nextAttemptAt ≤ a.now

instance (d : Delivery) (t : Deliveries) : (c : Call) → Decidable (Prompt d t c)
  | .enqueue now ds => inferInstanceAs (Decidable (d.nextAttemptAt ≤ now ∧ d.createdAt < now ∧
      ∀ e ∈ ds, now ≤ e.val.nextAttemptAt ∧ e.val.createdAt = now))
  | .claim a => inferInstanceAs (Decidable (d.nextAttemptAt ≤ a.now ∧
      ∀ r ∈ t.rows, r.platform = a.platform → r.status = .leased → leaseOver a.now r = false))
  | .ack _ => inferInstanceAs (Decidable True)
  | .fail a => inferInstanceAs (Decidable (d.nextAttemptAt ≤ a.now))

/-- A claim for the platform of `d` with room for `l` deliveries. -/
def roomyClaim (d : Delivery) (l : ℕ) : Call → Bool
  | .claim a => a.platform = d.platform && l ≤ a.limit
  | _ => false

/-! ### The order of a claim -/

section Order

variable {a : Claim} {rows : List Delivery} {d r : Delivery}

/-- The rows a claim could take, in its order. -/
def queue (a : Claim) (rows : List Delivery) : List Delivery :=
  (rows.filter fun d => d.platform = a.platform && eligible a.now d).insertionSort
    fun d d' => a.before d d'

theorem mem_queue : d ∈ queue a rows ↔ d ∈ rows ∧ d.platform = a.platform ∧
    eligible a.now d = true := by
  unfold queue
  rw [List.mem_insertionSort, List.mem_filter]
  simp

theorem pairwise_queue (a : Claim) (rows : List Delivery) :
    (queue a rows).Pairwise fun d d' => a.before d d' = true := by
  unfold queue
  simp only [before_iff]
  have htotal : Std.Total fun d d' : Delivery => rank a d ≤ rank a d' := ⟨fun _ _ => le_total _ _⟩
  have htrans : IsTrans Delivery fun d d' => rank a d ≤ rank a d' := ⟨fun _ _ _ => le_trans⟩
  exact List.pairwise_insertionSort _ _

theorem nodup_queue {a : Claim} (t : Deliveries) : (queue a t.rows).Nodup := by
  unfold queue
  exact ((List.perm_insertionSort _ _).nodup_iff).mpr ((List.Nodup.of_map _ t.key_nodup).filter _)

/-- A claim that leaves out a row it could take has taken as many as it may, each of them no later
in its order. -/
theorem claimStatement_full (hd : d ∈ queue a rows) (hout : d ∉ claimStatement a rows) :
    (claimStatement a rows).length = a.limit ∧
      ∀ r ∈ claimStatement a rows, a.before r d = true := by
  have htake : claimStatement a rows = (queue a rows).take a.limit := rfl
  rw [htake] at hout ⊢
  refine ⟨length_take_of_left_out hd hout, fun r hr => ?_⟩
  have hbefore := le_of_mem_take (pairwise_queue a rows) hd hout hr
  exact hbefore

end Order

/-! ### What a call does to the place of a delivery -/

section Place

variable {d r : Delivery} {t : Deliveries} {now : Time}

theorem status_of_waiting (h : waiting d = true) : d.status = .pending ∨ d.status = .retry := by
  simpa [waiting] using h

theorem eligible_of_waiting (h : waiting d = true) (hdue : d.nextAttemptAt ≤ now) :
    eligible now d = true := by
  rcases status_of_waiting h with hs | hs <;> simp [eligible, hs, hdue]

/-- A row that a claim prefers, and whose lease is not over, is ahead. -/
theorem ahead_of_before {a : Claim} (hne : r.deliveryId ≠ d.deliveryId)
    (hp : r.platform = d.platform) (he : eligible a.now r = true)
    (hlease : r.status = .leased → leaseOver a.now r = false) (hb : a.before r d = true) :
    ahead d r = true := by
  have hw : waiting r = true := by
    simp only [eligible, Bool.or_eq_true, Bool.and_eq_true, decide_eq_true_eq] at he
    rcases he with ⟨hs, -⟩ | ⟨hs, hover⟩
    · simpa [waiting] using hs
    · rw [hlease hs] at hover
      cases hover
  simp only [Claim.before, Bool.or_eq_true, Bool.and_eq_true, decide_eq_true_eq] at hb
  simp only [ahead, hw, hp, hne, Bool.and_eq_true, Bool.or_eq_true, decide_eq_true_eq, ne_eq,
    not_false_eq_true, true_and]
  rcases hb with hlt | ⟨heq, hlt | ⟨hcreated, -⟩⟩
  · exact Or.inl hlt
  · exact Or.inr ⟨heq, le_of_lt hlt⟩
  · exact Or.inr ⟨heq, le_of_eq hcreated⟩

theorem not_ahead_of_later (h : d.nextAttemptAt < r.nextAttemptAt ∨
    (d.nextAttemptAt = r.nextAttemptAt ∧ d.createdAt < r.createdAt)) : ahead d r = false := by
  by_contra hahead
  simp only [ahead, Bool.not_eq_false, Bool.and_eq_true, Bool.or_eq_true,
    decide_eq_true_eq] at hahead
  rcases hahead.2 with hlt | ⟨heq, hle⟩
  · rcases h with h | ⟨h, -⟩
    · exact absurd hlt (not_lt.mpr (le_of_lt h))
    · exact absurd h.symm (ne_of_lt hlt)
  · rcases h with h | ⟨-, h⟩
    · exact absurd heq.symm (ne_of_lt h)
    · exact absurd hle (not_le.mpr h)

theorem not_ahead_of_not_waiting (h : waiting r = false) : ahead d r = false := by
  simp [ahead, h]

variable [Runtime]

omit [Runtime] in
theorem place_modifyIf (p : Delivery → Bool) {f : Delivery → Delivery} (hk ha)
    (h : ∀ r ∈ t, p r = true → ahead d (f r) = false) :
    place d (t.modifyIf p f hk ha) ≤ place d t := by
  unfold place
  have hrows : (t.modifyIf p f hk ha).rows = t.rows.map fun r => if p r then f r else r := rfl
  rw [hrows, List.countP_map]
  refine List.countP_mono_left fun r hr hahead => ?_
  simp only [Function.comp_apply] at hahead
  split_ifs at hahead with hp
  · rw [h r hr hp] at hahead
    cases hahead
  · exact hahead

/-- A claim removes the rows it takes from those ahead. -/
theorem place_claim (d : Delivery) (t : Deliveries) (a : Claim) :
    ((t.rows.filter fun r => r.deliveryId ∈ (claimStatement a t.rows).map (·.deliveryId)).countP
      (ahead d)) + place d (claim t a).1 = place d t := by
  have hrows : (claim t a).1.rows = t.rows.map fun r =>
      if r.deliveryId ∈ (claimStatement a t.rows).map (·.deliveryId) then a.lease r else r := by
    show t.rows.map _ = _
    simp only [decide_eq_true_eq]
  unfold place
  rw [hrows, List.countP_map, List.countP_eq_countP_filter_add t.rows (ahead d)
    (fun r => r.deliveryId ∈ (claimStatement a t.rows).map (·.deliveryId)), Nat.add_left_cancel_iff,
    List.countP_filter]
  refine List.countP_congr fun r _ => ?_
  simp only [Function.comp_apply, Bool.and_eq_true, Bool.not_eq_true', decide_eq_false_iff_not]
  split_ifs with hr
  · have hleased : ahead d (a.lease r) = false := not_ahead_of_not_waiting rfl
    rw [hleased]
    exact iff_of_false (by simp) fun h => h.2 hr
  · exact (and_iff_left hr).symm

/-- **A claim with room that leaves `d` out** takes as many deliveries that are ahead of `d` as it
may. -/
theorem place_claim_left_out {k : String} {a : Claim} (hget : t.get k = some d)
    (hw : waiting d = true) (hp : a.platform = d.platform) (hprompt : Prompt d t (.claim a))
    (hout : ¬ Returns t k (.claim a)) :
    a.limit + place d (claim t a).1 ≤ place d t := by
  have hk : d.deliveryId = k := Table.key_of_get hget
  have hqueue : d ∈ queue a t.rows :=
    mem_queue.mpr ⟨Table.mem_of_get hget, hp.symm, eligible_of_waiting hw hprompt.1⟩
  have hnot : d ∉ claimStatement a t.rows := by
    intro hmem
    rw [returns_claim, ← hk] at hout
    exact hout (List.mem_map_of_mem hmem)
  obtain ⟨hlength, hbefore⟩ := claimStatement_full hqueue hnot
  -- the rows that are taken are among those that are taken and ahead
  have hsub : claimStatement a t.rows ⊆ (t.rows.filter fun r =>
      r.deliveryId ∈ (claimStatement a t.rows).map (·.deliveryId)).filter (ahead d) := by
    intro r hr
    obtain ⟨hmem, hplatform, heligible⟩ := mem_claimStatement hr
    have hne : r.deliveryId ≠ d.deliveryId := by
      intro he
      have hrd : r = d := Table.key_inj hmem (Table.mem_of_get hget) he
      exact hnot (hrd ▸ hr)
    have hahead : ahead d r = true := ahead_of_before hne (hplatform.trans hp) heligible
      (hprompt.2 r hmem hplatform) (hbefore r hr)
    rw [List.mem_filter, List.mem_filter, decide_eq_true_eq]
    exact ⟨⟨hmem, List.mem_map_of_mem hr⟩, hahead⟩
  have hnodup : (claimStatement a t.rows).Nodup :=
    (List.take_sublist _ _).nodup (nodup_queue t)
  have hle := (List.subperm_of_subset hnodup hsub).length_le
  have htaken := place_claim d t a
  rw [List.countP_eq_length_filter] at htaken
  omega

/-- **No other call moves `d` back.** -/
theorem place_call {n : ℕ} {c : Call} (hprompt : Prompt d t c) :
    place d (step n t c) ≤ place d t := by
  cases c with
  | enqueue now ds =>
    obtain ⟨hdue, hcreated, hds⟩ := hprompt
    simp only [step]
    cases hinsert : t.insertAll? (ds.map Subtype.val) with
    | none => exact le_refl _
    | some t' =>
      unfold place
      rw [Option.getD_some, Table.rows_of_insertAll? hinsert, List.countP_append]
      have hzero : (ds.map Subtype.val).countP (ahead d) = 0 := by
        rw [List.countP_eq_zero]
        intro r hr
        obtain ⟨e, he, rfl⟩ := List.mem_map.mp hr
        obtain ⟨hnext, hat⟩ := hds e he
        rw [not_ahead_of_later ?_]
        · simp
        · rcases lt_or_eq_of_le (le_trans hdue hnext) with hlt | heq
          · exact Or.inl hlt
          · exact Or.inr ⟨heq, by rw [hat]; exact hcreated⟩
      omega
  | claim a =>
    have htaken := place_claim d t a
    show place d (claim t a).1 ≤ _
    omega
  | ack a =>
    simp only [step, Outbox.ack]
    cases leased t a.deliveryId a.leaseToken a.now with
    | error e => exact le_refl _
    | ok d₀ =>
      exact place_modifyIf _ a.apply_key a.apply_target fun r _ _ => not_ahead_of_not_waiting rfl
  | fail a =>
    simp only [step, Outbox.fail]
    cases leased t a.deliveryId a.leaseToken a.now with
    | error e => exact le_refl _
    | ok d₀ =>
      refine place_modifyIf _ (a.apply_key n) (a.apply_target n) fun r _ _ => ?_
      by_cases hretry : a.retryable ∧ r.attempts < n
      · refine not_ahead_of_later (Or.inl ?_)
        have happly := (Spacing.apply_of_retry hretry).2
        have hdelay := five_le_retryDelay r.attempts
        rw [happly]
        have hdue : d.nextAttemptAt ≤ a.now := hprompt
        refine lt_of_le_of_lt hdue (Int.lt_add_of_pos_right _ ?_)
        unfold seconds
        omega
      · refine not_ahead_of_not_waiting ?_
        have hdead := Spacing.apply_of_not_retry hretry
        simp [waiting, hdead]

end Place

/-! ### Runs -/

section Runs

variable [Runtime] {n : ℕ} {t : Deliveries} {k : String} {d : Delivery}

theorem get_of_left_out (hget : t.get k = some d) (hw : waiting d = true) {c : Call}
    (hout : ¬ Returns t k c) : (step n t c).get k = some d := by
  have hnot : d.status ≠ .leased := by
    rcases status_of_waiting hw with hs | hs <;> simp [hs]
  cases step_cases n t k c with
  | keep h => rw [h, hget]
  | enqueue _ _ h =>
    rw [hget] at h
    cases h
  | claim d' h _ _ hc =>
    have hk : d'.deliveryId = k := Table.key_of_get h
    exact absurd ⟨_, hc, hk⟩ hout
  | ack d' _ h hl =>
    rw [hget, Option.some_inj] at h
    rw [h] at hnot
    exact absurd (status_of_holdsLease hl) hnot
  | fail d' _ h hl =>
    rw [hget, Option.some_inj] at h
    rw [h] at hnot
    exact absurd (status_of_holdsLease hl) hnot

omit [Runtime] in
/-- A claim with room for `l` deliveries costs `l`. -/
def claimCost (d : Delivery) (l : ℕ) (_ : Deliveries)
    (c : Call) : ℕ := if roomyClaim d l c then l else 0

/-- **Claims that leave `d` out use up its place.** -/
theorem claims_left_out {l : ℕ} {calls : List Call} (hget : t.get k = some d)
    (hw : waiting d = true) (hprompt : Along (step n) (Prompt d) t calls)
    (hout : Along (step n) (fun t c => ¬ Returns t k c) t calls) :
    l * calls.countP (roomyClaim d l) ≤ place d t := by
  have hcost : l * calls.countP (roomyClaim d l) ≤ total (step n) (claimCost d l) t calls :=
    mul_countP_le_total (fun _ _ h => by rw [claimCost, if_pos h]) t calls
  have hboth : Along (step n) (fun t c => Prompt d t c ∧ ¬ Returns t k c) t calls :=
    fun pre c post he => ⟨hprompt pre c post he, hout pre c post he⟩
  have hpaid : total (step n) (claimCost d l) t calls +
      place d (run (step n) t calls) ≤ place d t := by
    refine total_add_le (I := fun t => t.get k = some d) (fun t c hget ⟨hp, ho⟩ => ?_) hget hboth
    refine ⟨get_of_left_out hget hw ho, ?_⟩
    unfold claimCost
    split_ifs with hroomy
    · cases c with
      | claim a =>
        simp only [roomyClaim, Bool.and_eq_true, decide_eq_true_eq] at hroomy
        have hplace := place_claim_left_out hget hw hroomy.1 hp ho
        show l + place d (claim t a).1 ≤ _
        omega
      | enqueue | ack | fail => cases hroomy
    · have hplace := place_call (n := n) hp
      omega
  omega

/-- **No starvation.** A delivery that waits is handed out within as many claims as its place in the
queue takes, if no lease runs out meanwhile: in a run whose claims for its platform have room for
more than the deliveries ahead of it, one of the claims hands it out. -/
theorem handed_out_within {l : ℕ} {calls : List Call} (hget : t.get k = some d)
    (hw : waiting d = true) (hprompt : Along (step n) (Prompt d) t calls)
    (hroom : place d t < l * calls.countP (roomyClaim d l)) :
    ∃ pre a post, calls = pre ++ .claim a :: post ∧ Returns (run (step n) t pre) k (.claim a) := by
  by_contra hnone
  refine absurd (claims_left_out hget hw hprompt fun pre c post he hret => hnone ?_)
    (not_le.mpr hroom)
  cases c with
  | claim a => exact ⟨pre, a, post, he, hret⟩
  | enqueue | ack | fail => simp [Returns, returned] at hret

end Runs

/-! ### A sample -/

section Sample

/-- A second delivery, stored after the first. -/
def sampleSecond : NewDelivery where
  val :=
    { deliveryId := "d-2", eventId := "e-2", eventKey := "build.pipeline.failed",
      platform := "qqbot",
      openid := "alice", message := .null, nextAttemptAt := 0, createdAt := 1 }
  property := ⟨rfl, rfl, rfl, rfl, rfl, rfl⟩

def sampleTable : Deliveries := @step .sample 5 .empty (.enqueue 0 [sampleDelivery, sampleSecond])

/-- A worker that asks for one delivery. -/
def sampleClaim (now : Time) : Call :=
  .claim
    { workerId := "worker-1", platform := "qqbot", limit := 1, leaseSeconds := 60, now := now,
      token := fun _ => "token-1" }

/-- The second delivery is handed out by one of two claims. -/
theorem handed_out_within_sample :
    ∃ pre a post, [sampleClaim 2, sampleClaim 3] = pre ++ .claim a :: post ∧
      @Returns .sample (run (@step .sample 5) sampleTable pre) "d-2" (.claim a) := by
  have hget : (sampleTable.get "d-2").isSome = true := by decide
  have hrow : sampleTable.get "d-2" = some sampleSecond.val := by
    have hmem : sampleSecond.val ∈ sampleTable.rows := by
      show _ ∈ ([sampleDelivery.val, sampleSecond.val] : List Delivery)
      simp
    exact Table.mem_iff_get.mp hmem
  have hplace : place sampleSecond.val sampleTable = 1 := by decide
  exact @handed_out_within .sample 5 sampleTable "d-2" sampleSecond.val 1
    [sampleClaim 2, sampleClaim 3] hrow (by decide) (by decide) (by rw [hplace]; decide)

end Sample

end EventServer.Deliveries.Fairness
