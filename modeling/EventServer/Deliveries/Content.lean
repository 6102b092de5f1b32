import EventServer.Deliveries.Attempts
import EventServer.Deliveries.Lifecycle

/-! # What a delivery says

The calls of the outbox write the columns of a delivery's state and no others, and they remove no
row: a delivery says the same for as long as it is stored (`content_step`). It is as it was
published until it is handed out for the first time (`untouched_step`). -/

namespace EventServer.Deliveries.Content

open EventServer.Db EventServer.Lib EventServer.Python
open EventServer.Deliveries.Outbox EventServer.Deliveries.Steps
open EventServer.Deliveries.Attempts (attempts_fail)
open EventServer.Deliveries.Lifecycle (Fits AllFit)

/-- The columns of a delivery that are written once. -/
structure DeliveryContent where
  deliveryId : String
  eventId : String
  eventKey : String
  platform : String
  openid : String
  message : Json
  createdAt : Time

def contentOf (d : Delivery) : DeliveryContent :=
  ⟨d.deliveryId, d.eventId, d.eventKey, d.platform, d.openid, d.message, d.createdAt⟩

theorem contentOf_fail (a : Fail) (n : ℕ)
    (d : Delivery) : contentOf (a.apply n d) = contentOf d := by
  simp only [Fail.apply, clearLease]
  split_ifs <;> rfl

variable [Runtime] {n : ℕ} {t : Deliveries} {k : String} {d : Delivery}

/-- **A call of the outbox** keeps the row and what it says, and counts an attempt if it hands it
out. -/
theorem content_step (h : t.get k = some d) (c : Call) :
    ∃ d', (step n t c).get k = some d' ∧ contentOf d' = contentOf d ∧
      d'.attempts = d.attempts + if Returns t k c then 1 else 0 := by
  cases step_cases n t k c with
  | keep h' hr => exact ⟨d, by rw [h', h], rfl, by rw [if_neg hr, Nat.add_zero]⟩
  | enqueue _ _ hnone => rw [h] at hnone; cases hnone
  | @claim a d₀ hg _ _ hc h' =>
    rw [h, Option.some_inj] at hg
    subst hg
    have hk : d.deliveryId = k := Table.key_of_get h
    have hr : Returns t k (.claim a) := ⟨_, hc, hk⟩
    exact ⟨_, h', rfl, by rw [if_pos hr]; rfl⟩
  | @ack a d₀ _ hg _ h' =>
    rw [h, Option.some_inj] at hg
    subst hg
    exact ⟨_, h', rfl, by simp [Returns, returned, Ack.apply, clearLease]⟩
  | @fail a d₀ _ hg _ h' =>
    rw [h, Option.some_inj] at hg
    subst hg
    exact ⟨_, h', contentOf_fail a n d, by simp [attempts_fail, Returns, returned]⟩

/-- **No other call than a publication adds a delivery**: what is stored after it was stored before,
and said the same. -/
theorem content_origin {c : Call} (hc : ∀ now ds, c ≠ .enqueue now ds) (h : d ∈ step n t c) :
    ∃ d₀ ∈ t, contentOf d₀ = contentOf d := by
  have hg : (step n t c).get d.deliveryId = some d := Table.mem_iff_get.mp h
  cases hget : t.get d.deliveryId with
  | none =>
    cases step_cases n t d.deliveryId c with
    | keep hkeep => rw [hkeep, hget] at hg; cases hg
    | enqueue => exact absurd rfl (hc _ _)
    | claim _ h₀ => rw [hget] at h₀; cases h₀
    | ack _ _ h₀ => rw [hget] at h₀; cases h₀
    | fail _ _ h₀ => rw [hget] at h₀; cases h₀
  | some d₀ =>
    obtain ⟨d', hd', hcontent, -⟩ := content_step (n := n) hget c
    rw [hg, Option.some_inj] at hd'
    exact ⟨d₀, Table.mem_of_get hget, by rw [hd', hcontent]⟩

/-- A delivery that has not been attempted after a call is as it was before. -/
theorem untouched_step (hfit : AllFit n t) (h : t.get k = some d) {c : Call} {d' : Delivery}
    (h' : (step n t c).get k = some d') (ha : d'.attempts = 0) : d' = d := by
  -- a report needs a lease, and a lease counts an attempt
  have hleased : ∀ token now, holdsLease d token now = true → 1 ≤ d.attempts := by
    intro token now hl
    refine (hfit d (Table.mem_of_get h)).attempted ?_
    rw [status_of_holdsLease hl]
    simp
  cases step_cases n t k c with
  | keep hkeep =>
    rw [hkeep, h, Option.some_inj] at h'
    exact h'.symm
  | enqueue _ _ hnone => rw [h] at hnone; cases hnone
  | claim d₀ _ _ _ _ hlease =>
    rw [hlease, Option.some_inj] at h'
    rw [← h'] at ha
    cases ha
  | @ack a d₀ _ hg hl hack =>
    rw [h, Option.some_inj] at hg
    subst hg
    rw [hack, Option.some_inj] at h'
    rw [← h'] at ha
    have hpos := hleased _ _ hl
    have hzero : d.attempts = 0 := ha
    omega
  | @fail a d₀ _ hg hl hfail =>
    rw [h, Option.some_inj] at hg
    subst hg
    rw [hfail, Option.some_inj] at h'
    rw [← h', attempts_fail] at ha
    have hpos := hleased _ _ hl
    omega

end EventServer.Deliveries.Content
