import EventServer.Deliveries.LeaseSafety
import EventServer.System

/-! # The columns of a delivery and its status

A claim decides by different columns in different states: by `next_attempt_at` while a delivery is
`pending` or `retry`, by `lease_until` while it is `leased`. Every call leaves the columns as the
status asks for (`Fits`), and so no delivery that is still to be sent is ever out of reach of every
claim. -/

namespace EventServer.Deliveries.Lifecycle

open EventServer.Db EventServer.Lib EventServer.Python EventServer.System
open EventServer.Deliveries.Outbox
open EventServer.Deliveries.Steps hiding step
open EventServer.Deliveries.LeaseSafety (Final status_fail)

/-- The columns are as the status asks for: a lease exactly on a leased delivery, a time of sending
exactly on a sent one, no attempt only before the first claim, and one left for a retry. -/
structure Fits (n : ℕ) (d : Delivery) : Prop where
  owner : d.leaseOwner.isSome = true ↔ d.status = .leased
  hash : d.leaseTokenHash.isSome = true ↔ d.status = .leased
  until_ : d.leaseUntil.isSome = true ↔ d.status = .leased
  sentAt : d.sentAt.isSome = true ↔ d.status = .sent
  attempted : d.status ≠ .pending → 1 ≤ d.attempts
  retry : d.status = .retry → d.attempts < n

/-- From some time on every claim may take the delivery. -/
def Claimable (d : Delivery) : Prop := ∃ t, ∀ now, t ≤ now → eligible now d = true

section Rows

variable {n : ℕ} {d : Delivery}

theorem fits_new (h : IsNew d) : Fits n d where
  owner := by simp [h.owner, h.status]
  hash := by simp [h.hash, h.status]
  until_ := by simp [h.until_, h.status]
  sentAt := by simp [h.sentAt, h.status]
  attempted hs := absurd h.status hs
  retry hs := by rw [h.status] at hs; cases hs

theorem sentAt_of_outstanding (h : Fits n d) (ho : Outstanding d) : d.sentAt = none := by
  have hs : d.status ≠ .sent := by
    rcases ho with hs | hs | hs <;> rw [hs] <;> simp
  have hnone : ¬ d.sentAt.isSome = true := fun hsome => hs (h.sentAt.mp hsome)
  simpa using hnone

variable [Runtime]

theorem fits_lease (h : Fits n d) (a : Claim) (ho : Outstanding d) : Fits n (a.lease d) where
  owner := by simp [Claim.lease]
  hash := by simp [Claim.lease]
  until_ := by simp [Claim.lease]
  sentAt := by simp [Claim.lease, sentAt_of_outstanding h ho]
  attempted _ := Nat.le_add_left 1 d.attempts
  retry hs := by simp [Claim.lease] at hs

omit [Runtime] in
theorem fits_ack (h : Fits n d) (a : Ack) (hs : d.status = .leased) : Fits n (a.apply d) where
  owner := by simp [Ack.apply, clearLease]
  hash := by simp [Ack.apply, clearLease]
  until_ := by simp [Ack.apply, clearLease]
  sentAt := by simp [Ack.apply, clearLease]
  attempted _ := h.attempted (by simp [hs])
  retry hr := by simp [Ack.apply, clearLease] at hr

omit [Runtime] in
theorem fits_fail (h : Fits n d) (a : Fail) (hs : d.status = .leased) : Fits n (a.apply n d) := by
  have hsent : d.sentAt = none := sentAt_of_outstanding h (Or.inr (Or.inr hs))
  have hatt : 1 ≤ d.attempts := h.attempted (by simp [hs])
  by_cases hr : a.retryable ∧ d.attempts < n
  · have happly : a.apply n d = clearLease { d with
        lastErrorCode := some a.errorCode
        status := .retry
        nextAttemptAt := a.now + seconds (retryDelay d.attempts) } := by
      simp [Fail.apply, hr]
    rw [happly]
    exact ⟨by simp [clearLease], by simp [clearLease], by simp [clearLease],
      by simp [clearLease, hsent], fun _ => hatt, fun _ => hr.2⟩
  · have happly : a.apply n d = clearLease { d with
        lastErrorCode := some a.errorCode, status := .dead } := by
      simp [Fail.apply, hr]
    rw [happly]
    exact ⟨by simp [clearLease], by simp [clearLease], by simp [clearLease],
      by simp [clearLease, hsent], fun _ => hatt, fun hs' => by simp [clearLease] at hs'⟩

omit [Runtime] in
/-- **A delivery whose columns fit is done, or claimable from some time on.** -/
theorem final_or_claimable (h : Fits n d) : Final d ∨ Claimable d := by
  cases hs : d.status with
  | pending => exact Or.inr ⟨d.nextAttemptAt, fun now hle => by simp [eligible, hs, hle]⟩
  | retry => exact Or.inr ⟨d.nextAttemptAt, fun now hle => by simp [eligible, hs, hle]⟩
  | leased =>
    obtain ⟨u, hu⟩ := Option.isSome_iff_exists.mp (h.until_.mpr hs)
    refine Or.inr ⟨u + 1, fun now hle => ?_⟩
    have hlt : u < now := lt_of_lt_of_le (Int.lt_succ u) hle
    simp [eligible, hs, leaseOver, hu, hlt]
  | sent => exact Or.inl (Or.inl hs)
  | dead => exact Or.inl (Or.inr hs)

end Rows

variable [Runtime]

/-- Every row of the table has fitting columns. -/
def AllFit (n : ℕ) (t : Deliveries) : Prop := ∀ d ∈ t, Fits n d

theorem allFit_step {n : ℕ} {t : Deliveries} (h : AllFit n t) (c : Call) :
    AllFit n (Steps.step n t c) := by
  intro d hd
  have hg : (Steps.step n t c).get d.deliveryId = some d := Table.mem_iff_get.mp hd
  cases step_cases n t d.deliveryId c with
  | keep h' =>
    rw [h'] at hg
    exact h d (Table.mem_of_get hg)
  | enqueue d' _ _ h' =>
    rw [h', Option.some_inj] at hg
    rw [← hg]
    exact fits_new d'.property
  | @claim a d₀ hg₀ he _ _ h' =>
    rw [h', Option.some_inj] at hg
    rw [← hg]
    exact fits_lease (h d₀ (Table.mem_of_get hg₀)) a (outstanding_of_eligible he)
  | @ack a d₀ _ hg₀ hl h' =>
    rw [h', Option.some_inj] at hg
    rw [← hg]
    exact fits_ack (h d₀ (Table.mem_of_get hg₀)) a (status_of_holdsLease hl)
  | @fail a d₀ _ hg₀ hl h' =>
    rw [h', Option.some_inj] at hg
    rw [← hg]
    exact fits_fail (h d₀ (Table.mem_of_get hg₀)) a (status_of_holdsLease hl)

/-- **No delivery gets stuck.** In a run from a store without deliveries the columns of every
delivery fit its status, and it is sent, dead, or claimable from some time on. -/
theorem never_stuck {n : ℕ} {s₀ : Store} (h₀ : s₀.deliveries.rows = []) (ops : List Op) :
    ∀ d ∈ (run (step n) s₀ ops).deliveries, Fits n d ∧ (Final d ∨ Claimable d) := by
  have hfit : AllFit n (run (step n) s₀ ops).deliveries := by
    rw [deliveries_run]
    refine run_invariant_all (I := AllFit n) (fun _ c h => allFit_step h c) (fun d hd => ?_) _
    rw [← Table.mem_rows, h₀] at hd
    exact absurd hd List.not_mem_nil
  intro d hd
  exact ⟨hfit d hd, final_or_claimable (hfit d hd)⟩

omit [Runtime] in
theorem never_stuck_sample :
    ∃ d ∈ (run (@step .sample 5) {} (sampleSetup ++
      [.publish (seconds 20) samplePublish])).deliveries,
      Fits 5 d ∧ (Final d ∨ Claimable d) := by
  have hsome : ((run (@step .sample 5) {}
      (sampleSetup ++ [.publish (seconds 20) samplePublish])).deliveries.get "d-alice").isSome =
        true := by
    decide
  obtain ⟨d, hget⟩ := Option.isSome_iff_exists.mp hsome
  have hd := Table.mem_of_get hget
  exact ⟨d, hd, @never_stuck .sample 5 {} rfl _ d hd⟩

end EventServer.Deliveries.Lifecycle
