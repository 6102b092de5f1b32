import EventServer.Lib.Runs
import EventServer.Deliveries.Outbox

/-! # One call of the outbox, seen from one delivery

The outbox as a system that answers one call at a time: new deliveries are enqueued (by a
publication), and workers claim, acknowledge and fail them. A call that raises changes nothing.

`step_cases` says once what a call can do to the delivery `k`: leave it alone, store it, lease it,
acknowledge it or fail it. Every invariant of the outbox is derived from it. -/

namespace EventServer.Deliveries.Steps

open EventServer.Db EventServer.Lib EventServer.Python EventServer.Deliveries.Outbox

/-- As a publication stores it. -/
structure IsNew (d : Delivery) : Prop where
  status : d.status = .pending
  attempts : d.attempts = 0
  owner : d.leaseOwner = none
  hash : d.leaseTokenHash = none
  until_ : d.leaseUntil = none
  sentAt : d.sentAt = none

/-- A delivery that has not been touched since it was stored. -/
abbrev NewDelivery := { d : Delivery // IsNew d }

/-- A delivery of the event `e-1` to the user `alice`. -/
def sampleDelivery : NewDelivery where
  val :=
    { deliveryId := "d-1", eventId := "e-1", eventKey := "build.pipeline.failed",
      platform := "qqbot",
      openid := "alice", message := .null, nextAttemptAt := 0, createdAt := 0 }
  property := ⟨rfl, rfl, rfl, rfl, rfl, rfl⟩

inductive Call where
  | enqueue (now : Time) (ds : List NewDelivery)
  | claim (a : Claim)
  | ack (a : Ack)
  | fail (a : Fail)

/-- The clock reading of a call. -/
def Call.now : Call → Time
  | .enqueue now _ => now
  | .claim a => a.now
  | .ack a => a.now
  | .fail a => a.now

/-- The token a report presents. -/
def Call.token? : Call → Option String
  | .enqueue _ _ | .claim _ => none
  | .ack a => some a.leaseToken
  | .fail a => some a.leaseToken

/-- Clock readings never go back. -/
def Clocked (calls : List Call) : Prop := (calls.map Call.now).Pairwise (· ≤ ·)

instance (calls : List Call) : Decidable (Clocked calls) :=
  inferInstanceAs (Decidable ((calls.map Call.now).Pairwise (· ≤ ·)))

variable [Runtime]

/-- The table after a call. -/
def step (maxAttempts : ℕ) (t : Deliveries) : Call → Deliveries
  | .enqueue _ ds => (t.insertAll? (ds.map Subtype.val)).getD t
  | .claim a => (claim t a).1
  | .ack a => match Outbox.ack t a with
    | .ok r => r.1
    | .error _ => t
  | .fail a => match fail maxAttempts t a with
    | .ok r => r.1
    | .error _ => t

/-- The deliveries a call hands out. -/
def returned (t : Deliveries) : Call → List ClaimedDelivery
  | .claim a => (claim t a).2
  | _ => []

/-- The call is a report on `k` that is accepted. -/
def Accepts (maxAttempts : ℕ) (t : Deliveries) (k : String) : Call → Prop
  | .ack a => a.deliveryId = k ∧ ∃ r, Outbox.ack t a = .ok r
  | .fail a => a.deliveryId = k ∧ ∃ r, fail maxAttempts t a = .ok r
  | _ => False

/-- The call hands out `k`. -/
def Returns (t : Deliveries) (k : String) (c : Call) : Prop :=
  ∃ x ∈ returned t c, x.deliveryId = k

instance (t : Deliveries) (k : String) (c : Call) : Decidable (Returns t k c) := by
  unfold Returns; infer_instance

/-! ### The rows a claim selects -/

omit [Runtime] in
theorem mem_claimStatement {a : Claim} {rows : List Delivery} {d : Delivery}
    (h : d ∈ claimStatement a rows) :
    d ∈ rows ∧ d.platform = a.platform ∧ eligible a.now d = true := by
  have h1 := List.mem_of_mem_take h
  rw [List.mem_insertionSort, List.mem_filter] at h1
  simpa using h1

omit [Runtime] in
/-- A claim with room for every row selects every eligible row of its platform. -/
theorem mem_claimStatement_of_limit {a : Claim} {rows : List Delivery} {d : Delivery}
    (hl : rows.length ≤ a.limit) (hd : d ∈ rows) (hp : d.platform = a.platform)
    (he : eligible a.now d = true) : d ∈ claimStatement a rows := by
  unfold claimStatement
  rw [List.take_of_length_le]
  · rw [List.mem_insertionSort, List.mem_filter]
    simp [hd, hp, he]
  · rw [List.length_insertionSort]
    exact (List.length_filter_le _ _).trans hl

/-! ### What a call does to one delivery -/

theorem get_claim (t : Deliveries) (a : Claim) (k : String) : (claim t a).1.get k =
    (t.get k).map fun d =>
      if k ∈ (claimStatement a t.rows).map (·.deliveryId) then a.lease d else d := by
  have hg : (claim t a).1.get k = _ := Table.get_modifyIf a.lease_key a.lease_target
  rw [hg]
  cases h : t.get k with
  | none => rfl
  | some d =>
    have hk := Table.key_of_get h
    simp only [Option.map_some, hk, decide_eq_true_eq]

theorem returns_claim {t : Deliveries} {a : Claim} {k : String} :
    Returns t k (.claim a) ↔ k ∈ (claimStatement a t.rows).map (·.deliveryId) := by
  simp only [Returns, returned, claim, List.mem_map]
  constructor
  · rintro ⟨x, ⟨d, hd, rfl⟩, hk⟩; exact ⟨d, hd, hk⟩
  · rintro ⟨d, hd, hk⟩; exact ⟨_, ⟨d, hd, rfl⟩, hk⟩

theorem mem_returned {t : Deliveries} {a : Claim} {x : ClaimedDelivery}
    (h : x ∈ (claim t a).2) : ∃ d, t.get x.deliveryId = some d ∧ eligible a.now d = true ∧
      d.platform = a.platform ∧ x = a.claimed d ∧
      (claim t a).1.get x.deliveryId = some (a.lease d) := by
  obtain ⟨d, hd, rfl⟩ := List.mem_map.mp h
  obtain ⟨hm, hp, he⟩ := mem_claimStatement hd
  have hg : t.get d.deliveryId = some d := Table.mem_iff_get.mp hm
  refine ⟨d, hg, he, hp, rfl, ?_⟩
  show (claim t a).1.get d.deliveryId = _
  rw [get_claim, hg, Option.map_some, if_pos (List.mem_map_of_mem hd)]

theorem leased_eq_ok {t : Deliveries} {k token : String} {now : Time} {d : Delivery} :
    leased t k token now = .ok d ↔ t.get k = some d ∧ holdsLease d token now = true := by
  unfold leased
  cases h : t.get k with
  | none => simp
  | some d' =>
    by_cases hl : holdsLease d' token now = true
    · simp only [hl, if_true, Except.ok.injEq, Option.some.injEq]
      constructor
      · rintro rfl; exact ⟨rfl, hl⟩
      · rintro ⟨rfl, -⟩; rfl
    · simp only [hl, Bool.false_eq_true, if_false, reduceCtorEq, Option.some.injEq, false_iff,
        not_and]
      rintro rfl; exact hl

theorem exists_ack {t : Deliveries} {a : Ack} {d : Delivery}
    (h : leased t a.deliveryId a.leaseToken a.now = .ok d) : ∃ r, Outbox.ack t a = .ok r := by
  unfold Outbox.ack
  rw [h]
  exact ⟨_, rfl⟩

theorem exists_fail {n : ℕ} {t : Deliveries} {a : Fail} {d : Delivery}
    (h : leased t a.deliveryId a.leaseToken a.now = .ok d) : ∃ r, fail n t a = .ok r := by
  unfold fail
  rw [h]
  exact ⟨_, rfl⟩

theorem ack_eq_ok {t : Deliveries} {a : Ack} {r : Deliveries × Delivery}
    (h : Outbox.ack t a = .ok r) :
    ∃ d, t.get a.deliveryId = some d ∧ holdsLease d a.leaseToken a.now = true ∧
      r.2 = a.apply d ∧ ∀ k, r.1.get k = if k = a.deliveryId then some (a.apply d)
        else t.get k := by
  unfold Outbox.ack at h
  cases hl : leased t a.deliveryId a.leaseToken a.now with
  | error e => rw [hl] at h; cases h
  | ok d =>
    rw [hl] at h
    cases h
    obtain ⟨hg, hh⟩ := leased_eq_ok.mp hl
    exact ⟨d, hg, hh, rfl, fun k => Table.get_modifyIf_key a.apply_key a.apply_target hg⟩

theorem fail_eq_ok {n : ℕ} {t : Deliveries} {a : Fail} {r : Deliveries × Delivery}
    (h : fail n t a = .ok r) :
    ∃ d, t.get a.deliveryId = some d ∧ holdsLease d a.leaseToken a.now = true ∧
      r.2 = a.apply n d ∧
      ∀ k, r.1.get k = if k = a.deliveryId then some (a.apply n d) else t.get k := by
  unfold fail at h
  cases hl : leased t a.deliveryId a.leaseToken a.now with
  | error e => rw [hl] at h; cases h
  | ok d =>
    rw [hl] at h
    cases h
    obtain ⟨hg, hh⟩ := leased_eq_ok.mp hl
    exact ⟨d, hg, hh, rfl,
      fun k => Table.get_modifyIf_key (a.apply_key n) (a.apply_target n) hg⟩

omit [Runtime] in
theorem get_enqueue (t : Deliveries) (ds : List Delivery) (k : String) :
    ((t.insertAll? ds).getD t).get k = t.get k ∨
      t.get k = none ∧ ∃ d ∈ ds, ((t.insertAll? ds).getD t).get k = some d := by
  cases h : t.insertAll? ds with
  | none => exact Or.inl rfl
  | some t' =>
    have hr := Table.rows_of_insertAll? h
    simp only [Option.getD_some]
    have hmem : ∀ d, d ∈ t' ↔ d ∈ t ∨ d ∈ ds := by
      intro d
      show d ∈ t'.rows ↔ _
      rw [hr, List.mem_append]; exact Iff.rfl
    cases hk : t.get k with
    | some d =>
      obtain ⟨hd, hdk⟩ := Table.get_eq_some.mp hk
      exact Or.inl (Table.get_eq_some.mpr ⟨(hmem d).mpr (Or.inl hd), hdk⟩)
    | none =>
      cases hk' : t'.get k with
      | none => exact Or.inl rfl
      | some d =>
        obtain ⟨hd, hdk⟩ := Table.get_eq_some.mp hk'
        rcases (hmem d).mp hd with hd | hd
        · exact absurd hdk (Table.get_eq_none.mp hk d hd)
        · exact Or.inr ⟨rfl, d, hd, rfl⟩

/-- The ways a call can act on the delivery `k`. -/
inductive RowStep (n : ℕ) (t : Deliveries) (k : String) : Call → Prop
  | keep {c : Call} (h : (step n t c).get k = t.get k) (hr : ¬ Returns t k c)
      (ha : ¬ Accepts n t k c) : RowStep n t k c
  | enqueue {now : Time} {ds : List NewDelivery} (d : NewDelivery) (hd : d ∈ ds)
      (h : t.get k = none) (h' : (step n t (.enqueue now ds)).get k = some d.val) :
        RowStep n t k (.enqueue now ds)
  | claim {a : Claim} (d : Delivery) (h : t.get k = some d) (he : eligible a.now d = true)
      (hp : d.platform = a.platform) (hc : a.claimed d ∈ returned t (.claim a))
      (h' : (step n t (.claim a)).get k = some (a.lease d)) : RowStep n t k (.claim a)
  | ack {a : Ack} (d : Delivery) (hk : a.deliveryId = k) (h : t.get k = some d)
      (hl : holdsLease d a.leaseToken a.now = true)
      (h' : (step n t (.ack a)).get k = some (a.apply d)) : RowStep n t k (.ack a)
  | fail {a : Fail} (d : Delivery) (hk : a.deliveryId = k) (h : t.get k = some d)
      (hl : holdsLease d a.leaseToken a.now = true)
      (h' : (step n t (.fail a)).get k = some (a.apply n d)) : RowStep n t k (.fail a)

/-- **Every call acts on a delivery in one of these ways.** -/
theorem step_cases (n : ℕ) (t : Deliveries) (k : String) (c : Call) : RowStep n t k c := by
  cases c with
  | enqueue now ds =>
    rcases get_enqueue t (ds.map Subtype.val) k with h | ⟨h, d, hd, h'⟩
    · exact .keep h (by simp [Returns, returned]) id
    · obtain ⟨d, hm, rfl⟩ := List.mem_map.mp hd
      exact .enqueue d hm h h'
  | claim a =>
    by_cases hr : Returns t k (.claim a)
    · obtain ⟨x, hx, rfl⟩ := hr
      obtain ⟨d, hg, he, hp, rfl, h'⟩ := mem_returned hx
      exact .claim d hg he hp hx h'
    · refine .keep ?_ hr id
      show (claim t a).1.get k = _
      rw [get_claim]
      rw [returns_claim] at hr
      simp [hr]
  | ack a =>
    cases h : Outbox.ack t a with
    | error e =>
      exact .keep (by simp [step, h]) (by simp [Returns, returned]) (by simp [Accepts, h])
    | ok r =>
      obtain ⟨d, hg, hl, -, hr⟩ := ack_eq_ok h
      have hs : (step n t (.ack a)).get k = r.1.get k := by simp [step, h]
      by_cases hk : a.deliveryId = k
      · exact .ack d hk (by rw [← hk]; exact hg) hl (by rw [hs, hr, if_pos hk.symm])
      · exact .keep (by rw [hs, hr, if_neg (Ne.symm hk)]) (by simp [Returns, returned])
          (fun ha => hk ha.1)
  | fail a =>
    cases h : Outbox.fail n t a with
    | error e =>
      exact .keep (by simp [step, h]) (by simp [Returns, returned]) (by simp [Accepts, h])
    | ok r =>
      obtain ⟨d, hg, hl, -, hr⟩ := fail_eq_ok h
      have hs : (step n t (.fail a)).get k = r.1.get k := by simp [step, h]
      by_cases hk : a.deliveryId = k
      · exact .fail d hk (by rw [← hk]; exact hg) hl (by rw [hs, hr, if_pos hk.symm])
      · exact .keep (by rw [hs, hr, if_neg (Ne.symm hk)]) (by simp [Returns, returned])
          (fun ha => hk ha.1)

/-- The delivery is still to be sent. -/
def Outstanding (d : Delivery) : Prop :=
  d.status = .pending ∨ d.status = .retry ∨ d.status = .leased

omit [Runtime] in
theorem outstanding_of_eligible {now : Time} {d : Delivery} (h : eligible now d = true) :
    Outstanding d := by
  unfold Outstanding
  cases hs : d.status <;> simp [eligible, hs] at h ⊢

theorem status_of_holdsLease {d : Delivery} {token : String} {now : Time}
    (h : holdsLease d token now = true) : d.status = .leased := by
  simp only [holdsLease, Bool.and_eq_true, decide_eq_true_eq] at h
  exact h.1

theorem tokenHash_of_holdsLease {d : Delivery} {token : String} {now : Time}
    (h : holdsLease d token now = true) : d.leaseTokenHash = some (tokenHash token) := by
  unfold holdsLease at h
  cases hh : d.leaseTokenHash with
  | none => simp [hh] at h
  | some hash =>
    cases hu : d.leaseUntil with
    | none => simp [hh, hu] at h
    | some u =>
      simp only [hh, hu, Bool.and_eq_true, decide_eq_true_eq] at h
      rw [h.2.2]

theorem outstanding_of_holdsLease {d : Delivery} {token : String} {now : Time}
    (h : holdsLease d token now = true) : Outstanding d :=
  Or.inr (Or.inr (status_of_holdsLease h))

/-- **Where a delivery comes from**: it was there before the call, with the same event and user and
still to be sent if it is now, or the call enqueued it. -/
theorem origin {n : ℕ} {t : Deliveries} {c : Call} {d : Delivery} (h : d ∈ step n t c) :
    (∃ d₀ ∈ t, d₀.target = d.target ∧ (Outstanding d → Outstanding d₀)) ∨
      ∃ now ds d', c = .enqueue now ds ∧ d' ∈ ds ∧ d'.val = d := by
  have hg : (step n t c).get d.deliveryId = some d := Table.mem_iff_get.mp h
  cases step_cases n t d.deliveryId c with
  | keep h' =>
    rw [h'] at hg
    exact Or.inl ⟨d, Table.mem_of_get hg, rfl, id⟩
  | @enqueue now ds d' hd _ h' =>
    rw [h'] at hg
    exact Or.inr ⟨now, ds, d', rfl, hd, Option.some_inj.mp hg⟩
  | @claim a d₀ hg₀ he _ _ h' =>
    rw [h'] at hg
    cases hg
    exact Or.inl ⟨d₀, Table.mem_of_get hg₀, (a.lease_target d₀).symm,
      fun _ => outstanding_of_eligible he⟩
  | @ack a d₀ _ hg₀ hl h' =>
    rw [h'] at hg
    cases hg
    exact Or.inl ⟨d₀, Table.mem_of_get hg₀, (a.apply_target d₀).symm,
      fun _ => outstanding_of_holdsLease hl⟩
  | @fail a d₀ _ hg₀ hl h' =>
    rw [h'] at hg
    cases hg
    exact Or.inl ⟨d₀, Table.mem_of_get hg₀, (a.apply_target n d₀).symm,
      fun _ => outstanding_of_holdsLease hl⟩

end EventServer.Deliveries.Steps
