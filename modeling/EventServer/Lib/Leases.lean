import EventServer.Lib.Runs

/-! # The history of leases

A lease of the key `k` is granted to `w` on the terms `t`, and `w` releases it in the way `r`; the
history is the list of these events. `lastGrant` is the last grant of a key, and `holder` the one
whose owner has not released the key since: what others release does not count. -/

namespace EventServer.Lib.Leases

inductive Event (κ ι τ ρ : Type) where
  | grant (k : κ) (w : ι) (t : τ)
  | release (k : κ) (w : ι) (r : ρ)

variable {κ ι τ ρ : Type} [DecidableEq κ]

/-- The last grant after one more event. -/
def grantStep (k : κ) (last : Option (ι × τ)) : Event κ ι τ ρ → Option (ι × τ)
  | .grant k' w t => if k' = k then some (w, t) else last
  | .release _ _ _ => last

def lastGrant (k : κ) (es : List (Event κ ι τ ρ)) : Option (ι × τ) := es.foldl (grantStep k) none

/-- The holder after one more event. -/
def holderStep [DecidableEq ι] (k : κ) (last : Option (ι × τ)) : Event κ ι τ ρ → Option (ι × τ)
  | .grant k' w t => if k' = k then some (w, t) else last
  | .release k' w _ => if k' = k ∧ last.map (·.1) = some w then none else last

def holder [DecidableEq ι] (k : κ) (es : List (Event κ ι τ ρ)) : Option (ι × τ) :=
  es.foldl (holderStep k) none

omit [DecidableEq κ] in
/-- The key `k` is not granted. -/
def NoGrant (k : κ) (es : List (Event κ ι τ ρ)) : Prop := ∀ w t, .grant k w t ∉ es

omit [DecidableEq κ] in
/-- The key `k` is not released by `w`. -/
def NoRelease (k : κ) (w : ι) (es : List (Event κ ι τ ρ)) : Prop := ∀ r, .release k w r ∉ es

@[simp] theorem lastGrant_concat (k : κ) (es : List (Event κ ι τ ρ)) (e : Event κ ι τ ρ) :
    lastGrant k (es ++ [e]) = grantStep k (lastGrant k es) e := by
  unfold lastGrant
  rw [List.foldl_append]
  rfl

omit [DecidableEq κ] in
theorem noGrant_concat {k : κ} {es : List (Event κ ι τ ρ)} {e : Event κ ι τ ρ} :
    NoGrant k (es ++ [e]) ↔ NoGrant k es ∧ ∀ w t, e ≠ .grant k w t := by
  simp only [NoGrant, List.mem_append, List.mem_singleton, not_or, forall_and]
  exact and_congr_right fun _ => ⟨fun h w t he => h w t he.symm, fun h w t he => h w t he.symm⟩

omit [DecidableEq κ] in
theorem noRelease_concat {k : κ} {w : ι} {es : List (Event κ ι τ ρ)} {e : Event κ ι τ ρ} :
    NoRelease k w (es ++ [e]) ↔ NoRelease k w es ∧ ∀ r, e ≠ .release k w r := by
  simp only [NoRelease, List.mem_append, List.mem_singleton, not_or, forall_and]
  exact and_congr_right fun _ => ⟨fun h r he => h r he.symm, fun h r he => h r he.symm⟩

theorem lastGrant_of_noGrant {k : κ} {pre post : List (Event κ ι τ ρ)} {w : ι} {t : τ}
    (h : NoGrant k post) : lastGrant k (pre ++ .grant k w t :: post) = some (w, t) := by
  induction post using List.reverseRecOn with
  | nil => simp [grantStep]
  | append_singleton post e ih =>
    obtain ⟨hpost, he⟩ := noGrant_concat.mp h
    rw [← List.cons_append, ← List.append_assoc, lastGrant_concat, ih hpost]
    cases e with
    | release => rfl
    | grant k' w' t' =>
      have hk : k' ≠ k := fun hk => he w' t' (hk ▸ rfl)
      simp [grantStep, hk]

section Holder

variable [DecidableEq ι]

@[simp] theorem holder_concat (k : κ) (es : List (Event κ ι τ ρ)) (e : Event κ ι τ ρ) :
    holder k (es ++ [e]) = holderStep k (holder k es) e := by
  unfold holder
  rw [List.foldl_append]
  rfl

/-- A grant that no other follows, and no release by its owner, makes the holder. -/
theorem holder_of_noGrant {k : κ} {pre post : List (Event κ ι τ ρ)} {w : ι} {t : τ}
    (hg : NoGrant k post) (hr : NoRelease k w post) :
    holder k (pre ++ .grant k w t :: post) = some (w, t) := by
  induction post using List.reverseRecOn with
  | nil => simp [holderStep]
  | append_singleton post e ih =>
    obtain ⟨hg, he⟩ := noGrant_concat.mp hg
    obtain ⟨hr, he'⟩ := noRelease_concat.mp hr
    rw [← List.cons_append, ← List.append_assoc, holder_concat, ih hg hr]
    cases e with
    | grant k' w' t' =>
      have hk : k' ≠ k := fun hk => he w' t' (hk ▸ rfl)
      simp [holderStep, hk]
    | release k' w' r =>
      have hkw : ¬ (k' = k ∧ w = w') := fun ⟨hk, hw⟩ => he' r (hk ▸ hw ▸ rfl)
      simp [holderStep, hkw]

/-- **The holder** has been granted the key last and has not released it since. -/
theorem exists_grant_of_holder {k : κ} {es : List (Event κ ι τ ρ)} {w : ι} {t : τ}
    (h : holder k es = some (w, t)) :
    ∃ pre post, es = pre ++ .grant k w t :: post ∧ NoGrant k post ∧ NoRelease k w post := by
  induction es using List.reverseRecOn with
  | nil => simp [holder] at h
  | append_singleton es e ih =>
    rw [holder_concat] at h
    -- an event that leaves the holder comes after its grant
    have hlater : holder k es = some (w, t) → (∀ w' t', e ≠ .grant k w' t') →
        (∀ r, e ≠ .release k w r) → ∃ pre post, es ++ [e] = pre ++ .grant k w t :: post ∧
          NoGrant k post ∧ NoRelease k w post := by
      intro hes hg hr
      obtain ⟨pre, post, rfl, hpost, hpost'⟩ := ih hes
      exact ⟨pre, post ++ [e], by simp, noGrant_concat.mpr ⟨hpost, hg⟩,
        noRelease_concat.mpr ⟨hpost', hr⟩⟩
    cases e with
    | grant k' w' t' =>
      by_cases hk : k' = k
      · subst hk
        simp only [holderStep, if_true, Option.some.injEq, Prod.mk.injEq] at h
        obtain ⟨rfl, rfl⟩ := h
        exact ⟨es, [], rfl, by simp [NoGrant], by simp [NoRelease]⟩
      · simp only [holderStep, if_neg hk] at h
        exact hlater h (by simp [hk]) (by simp)
    | release k' w' r =>
      by_cases hkw : k' = k ∧ (holder k es).map (·.1) = some w'
      · simp [holderStep, hkw] at h
      · simp only [holderStep, if_neg hkw] at h
        refine hlater h (by simp) ?_
        rintro r' ⟨⟩
        exact hkw ⟨rfl, by rw [h]; rfl⟩

theorem holder_append_none {k : κ} {es mid : List (Event κ ι τ ρ)} (h : holder k es = none)
    (hmid : NoGrant k mid) : holder k (es ++ mid) = none := by
  induction mid using List.reverseRecOn with
  | nil => simpa using h
  | append_singleton mid e ih =>
    obtain ⟨hmid, he⟩ := noGrant_concat.mp hmid
    rw [← List.append_assoc, holder_concat, ih hmid]
    cases e with
    | release => simp [holderStep]
    | grant k' w' t' =>
      have hk : k' ≠ k := fun hk => he w' t' (hk ▸ rfl)
      simp [holderStep, hk]

/-- **One release for a grant**: between a release by the holder and a later holder there is a
grant. -/
theorem exists_grant_between {k : κ} {pre mid : List (Event κ ι τ ρ)} {w w' : ι} {t t' : τ} {r : ρ}
    (h : holder k pre = some (w, t))
    (h' : holder k (pre ++ .release k w r :: mid) = some (w', t')) : ¬ NoGrant k mid := by
  intro hmid
  have hnone : holder k (pre ++ [.release k w r]) = none := by
    rw [holder_concat, h]
    simp [holderStep]
  rw [List.append_cons, holder_append_none hnone hmid] at h'
  cases h'

end Holder

end EventServer.Lib.Leases
