import EventServer.Deliveries.Steps

/-! # Safety of leases over whole runs

In a run of the outbox whose clock readings never go back and whose tokens are fresh:

* a leased delivery is exactly as its most recent claim left it (`last_claim`), so a report is
  accepted
  only with the token of that claim and before its lease ends;
* what has happened to a delivery since a claim handed it out is one of four things (`Since`), so it
  is
  handed out again only after a retryable failure reported with the token of the claim, and then not
  before the next attempt is due, or after the lease has ended;
* a delivery that is sent or dead stays as it is (`final_step`). -/

namespace EventServer.Deliveries.LeaseSafety

open EventServer.Db EventServer.Lib EventServer.Python
open EventServer.Deliveries.Outbox EventServer.Deliveries.Steps

variable [Runtime]

/-! ### Tokens -/

/-- The tokens handed out by a run, in order. -/
def issued (n : ℕ) : Deliveries → List Call → List String
  | _, [] => []
  | t, c :: calls => (returned t c).map (·.leaseToken) ++ issued n (step n t c) calls

omit [Runtime] in
/-- The tokens workers present in a run. -/
def presented (calls : List Call) : List String := calls.filterMap Call.token?

/-- Every token that occurs in a run. -/
def tokens (n : ℕ) (t : Deliveries) (calls : List Call) : Set String :=
  { x | x ∈ issued n t calls ++ presented calls }

theorem issued_append {n : ℕ} {t : Deliveries} {calls calls' : List Call} :
    issued n t (calls ++ calls') = issued n t calls ++ issued n (run (step n) t calls) calls' := by
  induction calls generalizing t with
  | nil => rfl
  | cons c calls ih => simp only [List.cons_append, issued, ih, run_cons, List.append_assoc]

theorem token_mem_issued {n : ℕ} {t : Deliveries} {pre post : List Call} {a : Claim}
    {x : ClaimedDelivery} (hx : x ∈ (claim (run (step n) t pre) a).2) :
    x.leaseToken ∈ issued n t (pre ++ .claim a :: post) := by
  rw [issued_append, List.mem_append]
  right
  simp only [issued, List.mem_append]
  exact Or.inl (List.mem_map_of_mem hx)

theorem token_ne_of_later {n : ℕ} {t : Deliveries} {pre mid post : List Call} {a b : Claim}
    {x y : ClaimedDelivery} (hf : (issued n t (pre ++ .claim a :: (mid ++ .claim b :: post))).Nodup)
    (hx : x ∈ (claim (run (step n) t pre) a).2)
    (hy : y ∈ (claim (run (step n) t (pre ++ .claim a :: mid)) b).2) :
    x.leaseToken ≠ y.leaseToken := by
  intro he
  rw [show pre ++ Call.claim a :: (mid ++ Call.claim b :: post) =
      (pre ++ [Call.claim a]) ++ (mid ++ Call.claim b :: post) by simp, issued_append,
    List.nodup_append] at hf
  refine hf.2.2 x.leaseToken (token_mem_issued hx) y.leaseToken ?_ he
  refine token_mem_issued ?_
  rw [← run_append]
  simpa using hy

theorem eq_of_token {n : ℕ} {t : Deliveries} {pre post : List Call} {a : Claim}
    {x y : ClaimedDelivery} (hf : (issued n t (pre ++ .claim a :: post)).Nodup)
    (hx : x ∈ (claim (run (step n) t pre) a).2) (hy : y ∈ (claim (run (step n) t pre) a).2)
    (he : x.leaseToken = y.leaseToken) : x = y := by
  rw [issued_append, List.nodup_append] at hf
  have htokens := (List.nodup_append.mp hf.2.1).1
  exact List.inj_on_of_nodup_map htokens hx hy he

/-- **A token names one claim and one delivery.** -/
theorem claim_of_token {n : ℕ} {t : Deliveries} {p₁ q₁ p₂ q₂ : List Call} {a₁ a₂ : Claim}
    {x₁ x₂ : ClaimedDelivery} (hq : p₁ ++ .claim a₁ :: q₁ = p₂ ++ .claim a₂ :: q₂)
    (hf : (issued n t (p₁ ++ .claim a₁ :: q₁)).Nodup)
    (h₁ : x₁ ∈ (claim (run (step n) t p₁) a₁).2) (h₂ : x₂ ∈ (claim (run (step n) t p₂) a₂).2)
    (he : x₁.leaseToken = x₂.leaseToken) : p₁ = p₂ ∧ x₁ = x₂ := by
  rcases List.append_eq_append_iff.mp hq with ⟨m, rfl, hm⟩ | ⟨m, rfl, hm⟩
  · cases m with
    | nil =>
      rw [List.append_nil] at h₂ ⊢
      rw [List.nil_append, List.cons.injEq, Call.claim.injEq] at hm
      obtain ⟨rfl, rfl⟩ := hm
      exact ⟨rfl, eq_of_token hf h₁ h₂ he⟩
    | cons c m =>
      rw [List.cons_append, List.cons.injEq] at hm
      obtain ⟨rfl, rfl⟩ := hm
      exact absurd he (token_ne_of_later hf h₁ h₂)
  · cases m with
    | nil =>
      rw [List.append_nil] at h₁ hf ⊢
      rw [List.nil_append, List.cons.injEq, Call.claim.injEq] at hm
      obtain ⟨rfl, rfl⟩ := hm
      exact ⟨rfl, eq_of_token hf h₁ h₂ he⟩
    | cons c m =>
      rw [List.cons_append, List.cons.injEq] at hm
      obtain ⟨rfl, rfl⟩ := hm
      rw [hq] at hf
      exact absurd he.symm (token_ne_of_later hf h₂ h₁)

/-! ### Leases and reports -/

theorem holdsLease_lease {a : Claim} {d : Delivery} {token : String} {now : Time} :
    holdsLease (a.lease d) token now = true ↔
      now < a.now + seconds a.leaseSeconds ∧
        tokenHash (a.token d.deliveryId) = tokenHash token := by
  simp [holdsLease, Claim.lease]

omit [Runtime] in
theorem status_fail (a : Fail) (n : ℕ) (d : Delivery) :
    (a.apply n d).status = .retry ∨ (a.apply n d).status = .dead := by
  simp only [Fail.apply, clearLease]
  split_ifs
  · exact Or.inl rfl
  · exact Or.inr rfl

/-- An accepted report met a row whose lease it holds. -/
theorem accepts_holds {n : ℕ} {t : Deliveries} {k : String} {c : Call} (h : Accepts n t k c) :
    ∃ d token, t.get k = some d ∧ c.token? = some token ∧ holdsLease d token c.now = true := by
  cases c with
  | ack a =>
    obtain ⟨rfl, r, hr⟩ := h
    obtain ⟨d, hg, hl, -⟩ := ack_eq_ok hr
    exact ⟨d, _, hg, rfl, hl⟩
  | fail a =>
    obtain ⟨rfl, r, hr⟩ := h
    obtain ⟨d, hg, hl, -⟩ := fail_eq_ok hr
    exact ⟨d, _, hg, rfl, hl⟩
  | enqueue => exact h.elim
  | claim => exact h.elim

/-- The delivery `k` is not leased. -/
def Unleased (t : Deliveries) (k : String) : Prop := ∀ d, t.get k = some d → d.status ≠ .leased

theorem unleased_of_accepts {n : ℕ} {t : Deliveries} {k : String} {c : Call}
    (h : Accepts n t k c) : Unleased (step n t c) k := by
  cases step_cases n t k c with
  | keep _ _ ha => exact absurd h ha
  | enqueue => exact h.elim
  | claim => exact h.elim
  | ack d _ _ _ h' =>
    intro d' hd'
    rw [h'] at hd'
    cases hd'
    simp [Ack.apply, clearLease]
  | @fail a d _ _ _ h' =>
    intro d' hd'
    rw [h'] at hd'
    cases hd'
    rcases status_fail a n d with hs | hs <;> simp [hs]

theorem unleased_step {n : ℕ} {t : Deliveries} {k : String} {c : Call} (h : Unleased t k)
    (hr : ¬ Returns t k c) : Unleased (step n t c) k := by
  cases step_cases n t k c with
  | keep h' => intro d hd; rw [h'] at hd; exact h d hd
  | enqueue d _ _ h' =>
    intro d' hd'
    rw [h'] at hd'
    cases hd'
    simp [d.property.status]
  | claim d hg _ _ hc =>
    have hk : d.deliveryId = k := Table.key_of_get hg
    exact absurd ⟨_, hc, hk⟩ hr
  | ack d _ hg hl => exact absurd (status_of_holdsLease hl) (h d hg)
  | fail d _ hg hl => exact absurd (status_of_holdsLease hl) (h d hg)

/-- **The most recent claim.** A leased delivery is as the claim left it that handed it out last. -/
theorem last_claim {n : ℕ} {t₀ : Deliveries} (h₀ : ∀ k, Unleased t₀ k) {calls : List Call}
    {k : String} {d : Delivery} (h : (run (step n) t₀ calls).get k = some d)
    (hl : d.status = .leased) :
    ∃ pre a mid d₀, calls = pre ++ .claim a :: mid ∧
      a.claimed d₀ ∈ (claim (run (step n) t₀ pre) a).2 ∧ d₀.deliveryId = k ∧ d = a.lease d₀ ∧
      Along (step n) (fun t c => ¬ Returns t k c)
        (step n (run (step n) t₀ pre) (.claim a)) mid := by
  induction calls using List.reverseRecOn generalizing d with
  | nil => exact absurd hl (h₀ k d h)
  | append_singleton calls c ih =>
    rw [run_concat] at h
    cases step_cases n (run (step n) t₀ calls) k c with
    | keep h' hr _ =>
      obtain ⟨pre, a, mid, d₀, rfl, hc, hk, rfl, hal⟩ := ih (h' ▸ h) hl
      refine ⟨pre, a, mid ++ [c], d₀, by simp, hc, hk, rfl, along_concat.mpr ⟨hal, ?_⟩⟩
      rwa [run_append] at hr
    | enqueue d' _ _ h' =>
      rw [h'] at h
      cases h
      rw [d'.property.status] at hl
      cases hl
    | @claim a d' hg _ _ hc h' =>
      rw [h'] at h
      cases h
      exact ⟨calls, a, [], d', rfl, hc, Table.key_of_get hg, rfl, along_nil⟩
    | ack d' _ _ _ h' =>
      rw [h'] at h
      cases h
      simp [Ack.apply, clearLease] at hl
    | @fail a d' _ _ _ h' =>
      rw [h'] at h
      cases h
      rcases status_fail a n d' with hs | hs <;> simp [hs] at hl

/-! ### Final states -/

omit [Runtime] in
/-- The delivery has been delivered or given up. -/
def Final (d : Delivery) : Prop := d.status = .sent ∨ d.status = .dead

theorem final_step {n : ℕ} {t : Deliveries} {k : String} {d : Delivery} (h : t.get k = some d)
    (hf : Final d) (c : Call) : (step n t c).get k = some d ∧ ¬ Returns t k c := by
  cases step_cases n t k c with
  | keep h' hr _ => exact ⟨by rw [h', h], hr⟩
  | enqueue _ _ h' => rw [h] at h'; cases h'
  | claim d' hg he =>
    rw [h] at hg
    cases hg
    rcases hf with hs | hs <;> simp [eligible, hs] at he
  | ack d' _ hg hl =>
    rw [h] at hg
    cases hg
    rcases hf with hs | hs <;> simp [status_of_holdsLease hl] at hs
  | fail d' _ hg hl =>
    rw [h] at hg
    cases hg
    rcases hf with hs | hs <;> simp [status_of_holdsLease hl] at hs

/-- **A delivery that is sent or dead** is never handed out or changed again. -/
theorem final_run {n : ℕ} {t : Deliveries} {k : String} {d : Delivery} (h : t.get k = some d)
    (hf : Final d) (calls : List Call) : (run (step n) t calls).get k = some d ∧
      Along (step n) (fun t c => ¬ Returns t k c) t calls := by
  induction calls generalizing t with
  | nil => exact ⟨h, along_nil⟩
  | cons c calls ih =>
    obtain ⟨h1, h2⟩ := final_step h hf c (n := n)
    obtain ⟨h3, h4⟩ := ih h1
    exact ⟨h3, along_cons.mpr ⟨h2, h4⟩⟩

/-! ### Since a claim -/

/-- Among the calls after a claim of `k`, a failure reported with its token was accepted and set the
next attempt to `next`. -/
def ReleasedAt (n : ℕ) (t : Deliveries) (k token : String) (calls : List Call)
    (next : Time) : Prop :=
  ∃ pre f post r, calls = pre ++ .fail f :: post ∧ f.deliveryId = k ∧ f.leaseToken = token ∧
    fail n (run (step n) t pre) f = .ok r ∧ r.2.status = .retry ∧ r.2.nextAttemptAt = next

theorem ReleasedAt.append {n : ℕ} {t : Deliveries} {k token : String} {calls : List Call}
    {next : Time} (h : ReleasedAt n t k token calls next) (c : Call) :
    ReleasedAt n t k token (calls ++ [c]) next := by
  obtain ⟨pre, f, post, r, rfl, h⟩ := h
  exact ⟨pre, f, post ++ [c], r, by simp, h⟩

/-- **What can have happened** to `k` since the claim `a` handed it out as `a.lease d₀`: nothing; a
release for another attempt, which is due at `next` or has been made; another claim after the end of
the lease; or the end of the delivery. -/
def Since (n : ℕ) (t : Deliveries) (k : String) (a : Claim) (d₀ : Delivery) (calls : List Call) :
    Prop :=
  (run (step n) t calls).get k = some (a.lease d₀) ∨
  (∃ next, ReleasedAt n t k (a.token k) calls next ∧
    ((∃ d, (run (step n) t calls).get k = some d ∧ d.status = .retry ∧ d.nextAttemptAt = next) ∨
      ∃ b, .claim b ∈ calls ∧ next ≤ b.now)) ∨
  (∃ b, .claim b ∈ calls ∧ a.now + seconds a.leaseSeconds < b.now) ∨
  ∃ d, (run (step n) t calls).get k = some d ∧ Final d

omit [Runtime] in
theorem due_of_eligible {now : Time} {d : Delivery} (h : eligible now d = true)
    (hs : d.status = .retry) : d.nextAttemptAt ≤ now := by
  simpa [eligible, hs] using h

/-- The row left by a claim is eligible again only after the end of its lease. -/
theorem eligible_lease {a : Claim} {d : Delivery} {now : Time}
    (h : eligible now (a.lease d) = true) : a.now + seconds a.leaseSeconds < now := by
  simpa [eligible, Claim.lease, leaseOver] using h

section Since

variable {n : ℕ} {t : Deliveries} {k : String} {a : Claim} {d₀ : Delivery}
  {calls : List Call} {c : Call}

theorem released_of_fail {f : Fail} (hget : (run (step n) t calls).get k = some (a.lease d₀))
    (hfk : f.deliveryId = k) (hl : holdsLease (a.lease d₀) f.leaseToken f.now = true)
    (htok : f.leaseToken = a.token k) (hs : (f.apply n (a.lease d₀)).status = .retry) :
    ReleasedAt n t k (a.token k) (calls ++ [.fail f]) (f.apply n (a.lease d₀)).nextAttemptAt := by
  obtain ⟨r, hr⟩ : ∃ r, fail n (run (step n) t calls) f = .ok r := by
    refine exists_fail (d := a.lease d₀) ?_
    rw [hfk]
    exact leased_eq_ok.mpr ⟨hget, hl⟩
  have hr2 : r.2 = f.apply n (a.lease d₀) := by
    obtain ⟨d', hg', -, hr2, -⟩ := fail_eq_ok hr
    rw [hfk, hget] at hg'
    cases hg'
    exact hr2
  exact ⟨calls, f, [], r, rfl, hfk, htok, hr, by rw [hr2, hs], by rw [hr2]⟩

/-- One call on a row that is as the claim left it. -/
theorem since_held (hget : (run (step n) t calls).get k = some (a.lease d₀))
    (hk : d₀.deliveryId = k) (hinj : ∀ f, c = .fail f →
      tokenHash (a.token k) = tokenHash f.leaseToken →
      f.leaseToken = a.token k) : Since n t k a d₀ (calls ++ [c]) := by
  cases hc : step_cases n (run (step n) t calls) k c with
  | keep h' => exact Or.inl (by rw [run_concat, h', hget])
  | enqueue _ _ h' => rw [hget] at h'; cases h'
  | @claim b d hg he =>
    rw [hget] at hg
    cases hg
    exact Or.inr (Or.inr (Or.inl ⟨b, by simp, eligible_lease he⟩))
  | ack d _ hg hl h' =>
    exact Or.inr (Or.inr (Or.inr ⟨_, by rw [run_concat, h'], Or.inl rfl⟩))
  | @fail f d hfk hg hl h' =>
    rw [hget] at hg
    cases hg
    rcases status_fail f n (a.lease d₀) with hs | hs
    · have htok : f.leaseToken = a.token k := by
        refine hinj f rfl ?_
        rw [← hk]
        exact (holdsLease_lease.mp hl).2
      exact Or.inr (Or.inl ⟨_, released_of_fail hget hfk hl htok hs,
        Or.inl ⟨_, by rw [run_concat, h'], hs, rfl⟩⟩)
    · exact Or.inr (Or.inr (Or.inr ⟨_, by rw [run_concat, h'], Or.inr hs⟩))

theorem since_waiting {d : Delivery} (hget : (run (step n) t calls).get k = some d)
    (hs : d.status = .retry) (hrel : ReleasedAt n t k (a.token k) calls d.nextAttemptAt) :
    Since n t k a d₀ (calls ++ [c]) := by
  refine Or.inr (Or.inl ⟨d.nextAttemptAt, hrel.append c, ?_⟩)
  cases step_cases n (run (step n) t calls) k c with
  | keep h' => exact Or.inl ⟨d, by rw [run_concat, h', hget], hs, rfl⟩
  | enqueue _ _ h' => rw [hget] at h'; cases h'
  | @claim b d' hg he =>
    rw [hget] at hg
    cases hg
    exact Or.inr ⟨b, by simp, due_of_eligible he hs⟩
  | ack d' _ hg hl =>
    rw [hget] at hg
    cases hg
    simp [status_of_holdsLease hl] at hs
  | fail d' _ hg hl =>
    rw [hget] at hg
    cases hg
    simp [status_of_holdsLease hl] at hs

theorem since (h : t.get k = some (a.lease d₀)) (hk : d₀.deliveryId = k)
    (hinj : ∀ f, .fail f ∈ calls → tokenHash (a.token k) = tokenHash f.leaseToken →
      f.leaseToken = a.token k) : Since n t k a d₀ calls := by
  induction calls using List.reverseRecOn with
  | nil => exact Or.inl h
  | append_singleton calls c ih =>
    have ih := ih fun f hf => hinj f (by simp [hf])
    have mem {b : Claim} (hb : .claim b ∈ calls) : .claim b ∈ calls ++ [c] := by simp [hb]
    rcases ih with hheld | ⟨next, hrel, hnext⟩ | ⟨b, hb, hover⟩ | ⟨d, hd, hf⟩
    · exact since_held hheld hk fun f hf => hinj f (by simp [hf])
    · rcases hnext with ⟨d, hd, hs, rfl⟩ | ⟨b, hb, hle⟩
      · exact since_waiting hd hs hrel
      · exact Or.inr (Or.inl ⟨next, hrel.append c, Or.inr ⟨b, mem hb, hle⟩⟩)
    · exact Or.inr (Or.inr (Or.inl ⟨b, mem hb, hover⟩))
    · exact Or.inr (Or.inr (Or.inr ⟨d, by rw [run_concat, (final_step hd hf c).1], hf⟩))

end Since

/-! ### The promises -/

/-- What the outbox promises over the run `calls` from `t`. -/
structure LeaseSafe (n : ℕ) (t : Deliveries) (calls : List Call) : Prop where
  /-- A delivery is handed out again only after a failure reported with the token of the earlier
  claim made it due for another attempt, or after the end of the earlier lease. -/
  handed_out_again : ∀ pre a mid b post x y,
    calls = pre ++ .claim a :: (mid ++ .claim b :: post) →
    x ∈ (claim (run (step n) t pre) a).2 →
    y ∈ (claim (run (step n) t (pre ++ .claim a :: mid)) b).2 → y.deliveryId = x.deliveryId →
    (∃ next, ReleasedAt n (run (step n) t (pre ++ [.claim a])) x.deliveryId x.leaseToken mid next ∧
      next ≤ b.now) ∨ a.now + seconds a.leaseSeconds < b.now
  /-- A report is accepted only with the token of the most recent claim, before its lease ends. -/
  accepted : ∀ pre c post k, calls = pre ++ c :: post → Accepts n (run (step n) t pre) k c →
    ∃ p a m x, pre = p ++ .claim a :: m ∧ x ∈ (claim (run (step n) t p) a).2 ∧ x.deliveryId = k ∧
      c.token? = some x.leaseToken ∧ c.now < a.now + seconds a.leaseSeconds ∧
      Along (step n) (fun t c => ¬ Returns t k c) (run (step n) t (p ++ [.claim a])) m
  /-- No token is accepted twice. -/
  accepted_once : ∀ pre c mid c' post k k', calls = pre ++ c :: (mid ++ c' :: post) →
    Accepts n (run (step n) t pre) k c → Accepts n (run (step n) t (pre ++ c :: mid)) k' c' →
    c.token? ≠ c'.token?
  /-- A delivery that is sent or dead is never handed out or changed again. -/
  final : ∀ pre post k d, calls = pre ++ post → (run (step n) t pre).get k = some d → Final d →
    (run (step n) t calls).get k = some d ∧
      Along (step n) (fun t c => ¬ Returns t k c) (run (step n) t pre) post

omit [Runtime] in
theorem now_le_of_clocked {pre mid post : List Call} {c c' : Call}
    (h : Clocked (pre ++ c :: (mid ++ c' :: post))) {b : Call} (hb : b ∈ mid) : b.now ≤ c'.now := by
  unfold Clocked at h
  rw [List.map_append, List.pairwise_append, List.map_cons, List.pairwise_cons, List.map_append,
    List.pairwise_append] at h
  exact h.2.1.2.2.2 _ (List.mem_map_of_mem hb) _ (by simp)

theorem token_mem_tokens {n : ℕ} {t : Deliveries} {calls : List Call} {c : Call} {token : String}
    (hc : c ∈ calls) (ht : c.token? = some token) : token ∈ tokens n t calls := by
  show token ∈ issued n t calls ++ presented calls
  rw [List.mem_append]
  exact Or.inr (List.mem_filterMap.mpr ⟨c, hc, ht⟩)

theorem claimed_mem_tokens {n : ℕ} {t : Deliveries} {pre post : List Call} {a : Claim}
    {x : ClaimedDelivery} (hx : x ∈ (claim (run (step n) t pre) a).2) :
    x.leaseToken ∈ tokens n t (pre ++ .claim a :: post) := by
  show x.leaseToken ∈ issued n t _ ++ presented _
  rw [List.mem_append]
  exact Or.inl (token_mem_issued hx)

section Run

variable {n : ℕ} {t : Deliveries} {calls : List Call}

theorem handed_out_again (hc : Clocked calls) (hinj : Set.InjOn tokenHash (tokens n t calls))
    {pre : List Call} {a : Claim} {mid : List Call} {b : Claim} {post : List Call}
    {x y : ClaimedDelivery} (he : calls = pre ++ .claim a :: (mid ++ .claim b :: post))
    (hx : x ∈ (claim (run (step n) t pre) a).2)
    (hy : y ∈ (claim (run (step n) t (pre ++ .claim a :: mid)) b).2)
    (hk : y.deliveryId = x.deliveryId) :
    (∃ next, ReleasedAt n (run (step n) t (pre ++ [.claim a])) x.deliveryId x.leaseToken mid next ∧
      next ≤ b.now) ∨ a.now + seconds a.leaseSeconds < b.now := by
  subst he
  obtain ⟨d₀, hg₀, -, -, rfl, hg⟩ := mem_returned hx
  obtain ⟨d, hgd, hd, -⟩ := mem_returned hy
  have hrun : run (step n) t (pre ++ .claim a :: mid) =
      run (step n) (run (step n) t (pre ++ [.claim a])) mid := by
    rw [← run_append]; simp
  have hgl : (run (step n) t (pre ++ [.claim a])).get d₀.deliveryId = some (a.lease d₀) := by
    rw [run_concat]; exact hg
  rw [hk, hrun] at hgd
  have hle : ∀ b', .claim b' ∈ mid → b'.now ≤ b.now := fun b' hb' => now_le_of_clocked hc hb'
  have htok : ∀ f, Call.fail f ∈ mid → tokenHash (a.token d₀.deliveryId) = tokenHash f.leaseToken →
      f.leaseToken = a.token d₀.deliveryId := by
    intro f hf hh
    refine (hinj (claimed_mem_tokens hx) (token_mem_tokens (c := .fail f) ?_ rfl) hh).symm
    simp [hf]
  rcases since hgl rfl htok with hsame | ⟨next, hrel, ⟨d', hd', hs, rfl⟩ | ⟨b', hb', hle'⟩⟩ |
    ⟨b', hb', hover⟩ | ⟨d', hd', hf⟩
  · rw [show (a.claimed d₀).deliveryId = d₀.deliveryId from rfl, hsame] at hgd
    cases hgd
    exact Or.inr (eligible_lease hd)
  · rw [show (a.claimed d₀).deliveryId = d₀.deliveryId from rfl, hd'] at hgd
    cases hgd
    exact Or.inl ⟨_, hrel, due_of_eligible hd hs⟩
  · exact Or.inl ⟨next, hrel, hle'.trans (hle b' hb')⟩
  · exact Or.inr (lt_of_lt_of_le hover (hle b' hb'))
  · rw [show (a.claimed d₀).deliveryId = d₀.deliveryId from rfl, hd'] at hgd
    cases hgd
    rcases hf with hs | hs <;> simp [eligible, hs] at hd

theorem accepted_most_recent (h₀ : ∀ k, Unleased t k)
    (hinj : Set.InjOn tokenHash (tokens n t calls)) {pre : List Call} {c : Call} {post : List Call}
    {k : String} (he : calls = pre ++ c :: post) (ha : Accepts n (run (step n) t pre) k c) :
    ∃ p a m x, pre = p ++ .claim a :: m ∧ x ∈ (claim (run (step n) t p) a).2 ∧ x.deliveryId = k ∧
      c.token? = some x.leaseToken ∧ c.now < a.now + seconds a.leaseSeconds ∧
      Along (step n) (fun t c => ¬ Returns t k c) (run (step n) t (p ++ [.claim a])) m := by
  obtain ⟨d, token, hg, ht, hl⟩ := accepts_holds ha
  obtain ⟨p, a, m, d₀, rfl, hx, hk, rfl, hal⟩ := last_claim h₀ hg (status_of_holdsLease hl)
  obtain ⟨hnow, hh⟩ := holdsLease_lease.mp hl
  have heq : a.token d₀.deliveryId = token := by
    subst he
    refine hinj ?_ (token_mem_tokens (by simp) ht) hh
    rw [List.append_assoc, List.cons_append]
    exact claimed_mem_tokens hx
  refine ⟨p, a, m, _, rfl, hx, hk, by rw [ht, ← heq]; rfl, hnow, ?_⟩
  rwa [run_concat]

theorem accepted_once (h₀ : ∀ k, Unleased t k) (hf : (issued n t calls).Nodup)
    (hinj : Set.InjOn tokenHash (tokens n t calls)) {pre : List Call} {c : Call} {mid : List Call}
    {c' : Call} {post : List Call} {k k' : String} (he : calls = pre ++ c :: (mid ++ c' :: post))
    (ha : Accepts n (run (step n) t pre) k c)
    (ha' : Accepts n (run (step n) t (pre ++ c :: mid)) k' c') : c.token? ≠ c'.token? := by
  intro ht
  obtain ⟨p, a, m, x, rfl, hx, rfl, htx, -⟩ := accepted_most_recent h₀ hinj he ha
  have he' : calls = p ++ .claim a :: m ++ c :: mid ++ c' :: post := he.trans (by simp)
  obtain ⟨p', a', m', x', hp, hx', rfl, htx', -, hal⟩ := accepted_most_recent h₀ hinj he' ha'
  have htok : x.leaseToken = x'.leaseToken := by rw [htx, htx'] at ht; exact Option.some_inj.mp ht
  -- both tokens are of one claim, and the earlier report lies after it
  have hq : p ++ .claim a :: (m ++ c :: mid ++ c' :: post) =
      p' ++ .claim a' :: (m' ++ c' :: post) := by
    have : p ++ .claim a :: (m ++ c :: mid) ++ c' :: post =
        p' ++ .claim a' :: m' ++ c' :: post := by rw [← hp]; simp
    simpa using this
  obtain ⟨rfl, rfl⟩ := claim_of_token hq (by rw [he] at hf; simpa using hf) hx hx' htok
  have hm : a = a' ∧ m ++ c :: mid = m' := by
    have : Call.claim a :: (m ++ c :: mid) = .claim a' :: m' := by
      refine List.append_cancel_left (?_ : p ++ _ = p ++ _)
      rw [← hp]; simp
    simpa using this
  obtain ⟨rfl, rfl⟩ := hm
  have hu : Unleased (run (step n) t (p ++ .claim a :: m ++ c :: mid)) x.deliveryId := by
    have hcm := (show m ++ c :: mid = (m ++ [c]) ++ mid by simp) ▸ hal
    have h1 : Unleased (run (step n) t (p ++ .claim a :: m ++ [c])) x.deliveryId := by
      rw [run_concat]; exact unleased_of_accepts ha
    rw [show p ++ Call.claim a :: m ++ c :: mid = (p ++ .claim a :: m ++ [c]) ++ mid by simp,
      run_append]
    refine run_invariant (I := fun t => Unleased t x.deliveryId)
      (fun t c hu hr => unleased_step hu hr) h1 ?_
    have := hcm.right
    rw [← run_append] at this
    simpa using this
  obtain ⟨d, token, hg, -, hl⟩ := accepts_holds ha'
  exact hu d hg (status_of_holdsLease hl)

/-- **Lease safety.** In every run whose clock readings never go back, whose tokens are fresh and
whose tokens have different digests, from a table in which nothing is leased. -/
theorem lease_safety (h₀ : ∀ k, Unleased t k) (hc : Clocked calls) (hf : (issued n t calls).Nodup)
    (hinj : Set.InjOn tokenHash (tokens n t calls)) : LeaseSafe n t calls where
  handed_out_again _ _ _ _ _ _ _ he hx hy hk := handed_out_again hc hinj he hx hy hk
  accepted _ _ _ _ he ha := accepted_most_recent h₀ hinj he ha
  accepted_once _ _ _ _ _ _ _ he ha ha' := accepted_once h₀ hf hinj he ha ha'
  final pre post k d he hd hs := by
    subst he
    rw [run_append]
    exact final_run hd hs post

end Run

/-- A worker claims a delivery and reports a failure; another claims it ten seconds later and
reports success. -/
def sampleCalls : List Call :=
  [.enqueue 0 [sampleDelivery],
    .claim
      { workerId := "w-1", platform := "qqbot", limit := 10, leaseSeconds := 60, now := seconds 1,
        token := fun _ => "token-1" },
    .fail
      { deliveryId := "d-1", leaseToken := "token-1", now := seconds 2, errorCode := "timeout",
        retryable := true },
    .claim
      { workerId := "w-2", platform := "qqbot", limit := 10, leaseSeconds := 60, now := seconds 11,
        token := fun _ => "token-2" },
    .ack { deliveryId := "d-1", leaseToken := "token-2", now := seconds 12 }]

omit [Runtime] in
theorem lease_safety_sample : @LeaseSafe .sample 5 .empty sampleCalls := by
  let _ := Runtime.sample
  have htok : tokens 5 .empty sampleCalls =
      { x | x ∈ ["token-1", "token-2", "token-1", "token-2"] } := by
    have h : issued 5 .empty sampleCalls ++ presented sampleCalls =
        ["token-1", "token-2", "token-1", "token-2"] := by decide
    unfold tokens
    rw [h]
  refine lease_safety ?_ ?_ ?_ ?_
  · intro k d hd; cases hd
  · decide
  · decide
  · rw [htok]
    show ∀ x ∈ ["token-1", "token-2", "token-1", "token-2"],
      ∀ y ∈ ["token-1", "token-2", "token-1", "token-2"], tokenHash x = tokenHash y → x = y
    decide

end EventServer.Deliveries.LeaseSafety
