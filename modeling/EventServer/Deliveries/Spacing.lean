import EventServer.Deliveries.Attempts
import EventServer.Deliveries.LeaseSafety

/-! # The spacing of retries

The delay before the next attempt is computed by `fail` from `attempts`, which only `claim` raises,
and it is `claim` again that keeps to it, through `next_attempt_at`. Whatever happens in between,
leases that run out included, `attempts` is the number of claims that handed the delivery out
(`attempts_run`), so the exponent of the delay is the number of the claim that failed
(`retry_spacing`). -/

namespace EventServer.Deliveries.Spacing

open EventServer.Db EventServer.Lib EventServer.Python
open EventServer.Deliveries.Outbox EventServer.Deliveries.Steps
open EventServer.Deliveries.Attempts EventServer.Deliveries.LeaseSafety

/-! ### The delays -/

theorem five_le_retryDelay (k : ℕ) : 5 ≤ retryDelay k := by
  have hpow : (1 : ℤ) ≤ 2 ^ (k - 1) := one_le_pow₀ (by decide)
  have hfive : (5 : ℤ) ≤ 5 * 2 ^ (k - 1) := by omega
  exact le_min (by decide) hfive

theorem retryDelay_le (k : ℕ) : retryDelay k ≤ 3600 := min_le_left _ _

theorem retryDelay_mono (j k : ℕ) (h : j ≤ k) : retryDelay j ≤ retryDelay k := by
  have hexp : j - 1 ≤ k - 1 := Nat.sub_le_sub_right h 1
  have hpow : (2 : ℤ) ^ (j - 1) ≤ 2 ^ (k - 1) := pow_le_pow_right₀ (by decide) hexp
  have hfive : 5 * (2 : ℤ) ^ (j - 1) ≤ 5 * 2 ^ (k - 1) := by omega
  exact min_le_min_left 3600 hfive

/-! ### Clocks -/

theorem clocked_cons {c : Call} {calls : List Call} :
    Clocked (c :: calls) ↔ (∀ c' ∈ calls, c.now ≤ c'.now) ∧ Clocked calls := by
  unfold Clocked
  rw [List.map_cons, List.pairwise_cons, List.forall_mem_map]

theorem clocked_of_append {calls calls' : List Call}
    (h : Clocked (calls ++ calls')) : Clocked calls' := by
  unfold Clocked at h ⊢
  rw [List.map_append, List.pairwise_append] at h
  exact h.2.1

variable [Runtime]

/-! ### Waiting -/

/-- The call does not hand out `k` before `u`. -/
def NotBefore (u : Time) (k : String) (t : Deliveries)
    (c : Call) : Prop := Returns t k c → u ≤ c.now

/-- Once a call has been made at `u` or later, the clocks alone keep every later call from being
early. -/
theorem notBefore_of_clock {n : ℕ} {t : Deliveries} {k : String} {u : Time} {calls : List Call}
    (h : ∀ c ∈ calls, u ≤ c.now) : Along (step n) (NotBefore u k) t calls := by
  rintro pre c post rfl -
  exact h c (by simp)

/-- **A delivery that waits for its next attempt** is not handed out before the attempt is due. -/
theorem waiting_run {n : ℕ} {t : Deliveries} {k : String} {d : Delivery} {calls : List Call}
    (h : t.get k = some d) (hs : d.status = .retry) (hc : Clocked calls) :
    Along (step n) (NotBefore d.nextAttemptAt k) t calls := by
  induction calls generalizing t with
  | nil => exact along_nil
  | cons c calls ih =>
    obtain ⟨hle, hc⟩ := clocked_cons.mp hc
    rw [along_cons]
    cases step_cases n t k c with
    | keep h' hr _ =>
      exact ⟨fun hret => absurd hret hr, ih (by rw [h', h]) hc⟩
    | enqueue _ _ h' => rw [h] at h'; cases h'
    | @claim a d' hg he =>
      rw [h] at hg
      cases hg
      have hdue : d.nextAttemptAt ≤ a.now := due_of_eligible he hs
      exact ⟨fun _ => hdue, notBefore_of_clock fun c' hc' => hdue.trans (hle c' hc')⟩
    | ack d' _ hg hl =>
      rw [h] at hg
      cases hg
      simp [status_of_holdsLease hl] at hs
    | fail d' _ hg hl =>
      rw [h] at hg
      cases hg
      simp [status_of_holdsLease hl] at hs

/-! ### Accepted failures -/

theorem get_of_accepts_fail {n : ℕ} {t : Deliveries} {a : Fail}
    (h : Accepts n t a.deliveryId (.fail a)) :
    ∃ d, t.get a.deliveryId = some d ∧
      (step n t (.fail a)).get a.deliveryId = some (a.apply n d) := by
  obtain ⟨-, r, hr⟩ := h
  obtain ⟨d, hg, -, -, hget⟩ := fail_eq_ok hr
  refine ⟨d, hg, ?_⟩
  have hstep : step n t (.fail a) = r.1 := by simp [step, hr]
  rw [hstep, hget, if_pos rfl]

omit [Runtime] in
theorem apply_of_retry {a : Fail} {n : ℕ} {d : Delivery} (h : a.retryable ∧ d.attempts < n) :
    (a.apply n d).status = .retry ∧
      (a.apply n d).nextAttemptAt = a.now + seconds (retryDelay d.attempts) := by
  simp [Fail.apply, clearLease, h]

omit [Runtime] in
theorem apply_of_not_retry {a : Fail} {n : ℕ} {d : Delivery}
    (h : ¬ (a.retryable ∧ d.attempts < n)) :
    (a.apply n d).status = .dead := by
  simp only [Fail.apply, clearLease, if_neg h]

theorem one_le_handouts {n : ℕ} {k : String} {c : Call} {calls : List Call}
    (h : Accepts n (run (step n) .empty calls) k c) : 1 ≤ handouts n .empty k calls := by
  obtain ⟨d, token, hg, -, hl⟩ := accepts_holds h
  have hempty : ∀ k, Unleased (.empty : Deliveries) k := fun k d hd => by cases hd
  obtain ⟨pre, a, mid, d₀, rfl, hx, hk, -, -⟩ := last_claim hempty hg (status_of_holdsLease hl)
  have hret : Returns (run (step n) .empty pre) k (.claim a) := ⟨_, hx, hk⟩
  rw [handouts_append, handouts, if_pos hret]
  omega

/-! ### The promises -/

/-- What the outbox promises about the attempts of the delivery `k` over the run `calls`. -/
structure Spaced (n : ℕ) (k : String) (calls : List Call) : Prop where
  /-- `attempts` counts the claims that handed `k` out. -/
  attempts : ∀ pre post, calls = pre ++ post →
    attemptsOf (run (step n) .empty pre) k = handouts n .empty k pre
  /-- A failure is reported after a first claim. -/
  claimed : ∀ pre a post, calls = pre ++ .fail a :: post →
    Accepts n (run (step n) .empty pre) k (.fail a) → 1 ≤ handouts n .empty k pre
  /-- A retryable failure of the `j`-th attempt, if it is not the last, leaves `k` waiting, and no
  claim hands it out before the delay of `j` has passed. -/
  spacing : ∀ pre a post, calls = pre ++ .fail a :: post →
    Accepts n (run (step n) .empty pre) k (.fail a) →
    a.retryable → handouts n .empty k pre < n →
      (∃ d, (run (step n) .empty (pre ++ [.fail a])).get k = some d ∧ d.status = .retry) ∧
      Along (step n) (NotBefore (a.now + seconds (retryDelay (handouts n .empty k pre))) k)
        (run (step n) .empty (pre ++ [.fail a])) post
  /-- Any other failure is the end of `k`. -/
  given_up : ∀ pre a post, calls = pre ++ .fail a :: post →
    Accepts n (run (step n) .empty pre) k (.fail a) →
    a.retryable = false ∨ n ≤ handouts n .empty k pre →
      (∃ d, (run (step n) .empty (pre ++ [.fail a])).get k = some d ∧ d.status = .dead) ∧
      Along (step n) (fun t c => ¬ Returns t k c) (run (step n) .empty (pre ++ [.fail a])) post

section Run

variable {n : ℕ} {k : String} {calls pre post : List Call} {a : Fail}

theorem attempts_eq_handouts : attemptsOf (run (step n) .empty pre) k =
    handouts n .empty k pre := by
  have hrun := attempts_run n .empty k pre
  have hzero : attemptsOf (.empty : Deliveries) k = 0 := rfl
  rw [hrun, hzero, Nat.zero_add]

/-- The row a failure meets and the row it leaves, with the number of its attempts. -/
theorem get_of_failed (ha : Accepts n (run (step n) .empty pre) k (.fail a)) :
    ∃ d, d.attempts = handouts n .empty k pre ∧
      (run (step n) .empty (pre ++ [.fail a])).get k = some (a.apply n d) := by
  obtain ⟨rfl, -⟩ := id ha
  obtain ⟨d, hg, hget⟩ := get_of_accepts_fail ha
  refine ⟨d, ?_, by rw [run_concat, hget]⟩
  rw [← attempts_eq_handouts]
  simp [attemptsOf, hg]

theorem spacing (hc : Clocked calls) (he : calls = pre ++ .fail a :: post)
    (ha : Accepts n (run (step n) .empty pre) k (.fail a)) (hr : a.retryable)
    (hlt : handouts n .empty k pre < n) :
    (∃ d, (run (step n) .empty (pre ++ [.fail a])).get k = some d ∧ d.status = .retry) ∧
      Along (step n) (NotBefore (a.now + seconds (retryDelay (handouts n .empty k pre))) k)
        (run (step n) .empty (pre ++ [.fail a])) post := by
  obtain ⟨d, hd, hget⟩ := get_of_failed ha
  rw [← hd] at hlt ⊢
  obtain ⟨hs, hnext⟩ := apply_of_retry (a := a) ⟨hr, hlt⟩
  have hpost : Clocked post := by
    rw [he] at hc
    exact (clocked_cons.mp (clocked_of_append hc)).2
  refine ⟨⟨_, hget, hs⟩, ?_⟩
  rw [← hnext]
  exact waiting_run hget hs hpost

theorem given_up (ha : Accepts n (run (step n) .empty pre) k (.fail a))
    (h : a.retryable = false ∨ n ≤ handouts n .empty k pre) :
    (∃ d, (run (step n) .empty (pre ++ [.fail a])).get k = some d ∧ d.status = .dead) ∧
      Along (step n) (fun t c => ¬ Returns t k c)
        (run (step n) .empty (pre ++ [.fail a])) post := by
  obtain ⟨d, hd, hget⟩ := get_of_failed ha
  rw [← hd] at h
  have hnot : ¬ (a.retryable ∧ d.attempts < n) := by
    rintro ⟨hr, hlt⟩
    rcases h with h | h
    · rw [h] at hr; cases hr
    · omega
  have hs := apply_of_not_retry hnot
  exact ⟨⟨_, hget, hs⟩, (final_run hget (Or.inr hs) post).2⟩

end Run

/-- **Retry spacing.** In every run whose clock readings never go back, the attempts of a delivery
are the claims that handed it out, and after the `j`-th of them failed the next one comes no earlier
than the delay of `j`, if there is one at all; the delays lie between 5 and 3600 seconds and never
shrink. -/
theorem retry_spacing (n : ℕ) (k : String) (calls : List Call) (hc : Clocked calls) :
    Spaced n k calls ∧ (∀ j k, j ≤ k → retryDelay j ≤ retryDelay k) ∧
      ∀ j, 5 ≤ retryDelay j ∧ retryDelay j ≤ 3600 where
  left :=
    { attempts := fun _ _ _ => attempts_eq_handouts
      claimed := fun _ _ _ _ ha => one_le_handouts ha
      spacing := fun _ _ _ he ha hr hlt => spacing hc he ha hr hlt
      given_up := fun _ _ _ _ ha h => given_up ha h }
  right := ⟨retryDelay_mono, fun j => ⟨five_le_retryDelay j, retryDelay_le j⟩⟩

omit [Runtime] in
theorem retry_spacing_sample : @Spaced .sample 5 "d-1" sampleCalls ∧
    (∀ j k, j ≤ k → retryDelay j ≤ retryDelay k) ∧ ∀ j, 5 ≤ retryDelay j ∧ retryDelay j ≤ 3600 := by
  let _ := Runtime.sample
  exact retry_spacing 5 "d-1" sampleCalls (by decide)

end EventServer.Deliveries.Spacing
