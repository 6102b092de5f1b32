import EventServer.Lib.Table

/-! # What a table keeps

`Retains R t t'`: every row of `t` is still in `t'` under its key, changed at most as `R` allows.
The operations of a session that remove no row keep to it. A foreign key `f` of the rows of `t` that
refers to the rows of another table, `Refers f t parent`, outlives a change in which the rows that
are referred to are retained and every new reference has a row (`Refers.step`). -/

namespace EventServer.Lib.Table

variable {ρ κ υ : Type} {key : ρ → κ} {alt : ρ → υ} {R : ρ → ρ → Prop}

section Rows

variable [DecidableEq κ] {t t' t'' : Table key alt}

/-- Every row of `t` is in `t'`, as `R` allows it to change. -/
def Retains (R : ρ → ρ → Prop) (t t' : Table key alt) : Prop :=
  ∀ k r, t.get k = some r → ∃ r', t'.get k = some r' ∧ R r r'

theorem Retains.refl (hR : ∀ r, R r r) (t : Table key alt) : Retains R t t :=
  fun _ r h => ⟨r, h, hR r⟩

theorem Retains.trans (hR : ∀ r₁ r₂ r₃, R r₁ r₂ → R r₂ r₃ → R r₁ r₃) (h : Retains R t t')
    (h' : Retains R t' t'') : Retains R t t'' := by
  intro k r hr
  obtain ⟨r', hr', hR'⟩ := h k r hr
  obtain ⟨r'', hr'', hR''⟩ := h' k r' hr'
  exact ⟨r'', hr'', hR _ _ _ hR' hR''⟩

theorem retains_modifyIf {p : ρ → Bool} {f : ρ → ρ} (hk : ∀ r, key (f r) = key r)
    (ha : ∀ r, alt (f r) = alt r) (hR : ∀ r, R r r) (hf : ∀ r, R r (f r)) :
    Retains R t (t.modifyIf p f hk ha) := by
  intro k r hr
  refine ⟨if p r then f r else r, by rw [get_modifyIf hk ha, hr]; rfl, ?_⟩
  split_ifs
  · exact hf r
  · exact hR r

theorem retains_insert? [DecidableEq υ] (hR : ∀ r, R r r) {r : ρ} (h : t.insert? r = some t') :
    Retains R t t' := by
  intro k r₀ hr₀
  have hmem : r₀ ∈ t' := by
    rw [← mem_rows, (insert?_eq_some.mp h).2.2]
    exact List.mem_append_left _ (mem_of_get hr₀)
  refine ⟨r₀, ?_, hR r₀⟩
  rw [← key_of_get hr₀]
  exact mem_iff_get.mp hmem

end Rows

section Put

variable [DecidableEq κ] {t : Table key key}

/-- A row that replaces the one with its key as `R` allows. -/
theorem retains_put (hR : ∀ r, R r r) {r : ρ} (h : ∀ r₀, t.get (key r) = some r₀ → R r₀ r) :
    Retains R t (t.put r) := by
  intro k r₀ hr₀
  rw [get_put]
  split_ifs with hk
  · subst hk
    exact ⟨r, rfl, h r₀ hr₀⟩
  · exact ⟨r₀, hr₀, hR r₀⟩

theorem retains_foldl {α : Type} (hR : ∀ r, R r r)
    (htrans : ∀ r₁ r₂ r₃, R r₁ r₂ → R r₂ r₃ → R r₁ r₃) {f : Table key key → α → Table key key}
    (h : ∀ t x, Retains R t (f t x)) (xs : List α)
    (t : Table key key) : Retains R t (xs.foldl f t) := by
  induction xs generalizing t with
  | nil => exact .refl hR t
  | cons x xs ih => exact (h t x).trans htrans (ih (f t x))

/-- A row of a table that several rows were put into was there before, or is one of them. -/
theorem mem_foldl_put {α : Type} {P : ρ → Prop} {g : Table key key → α → ρ} (hg : ∀ t x, P (g t x))
    {xs : List α} {t : Table key key} {r : ρ} (hr : r ∈ xs.foldl (fun t x => t.put (g t x)) t) :
    r ∈ t ∨ P r := by
  induction xs generalizing t with
  | nil => exact Or.inl hr
  | cons x xs ih =>
    rcases ih hr with h | h
    · rcases mem_put.mp h with rfl | ⟨h, -⟩
      · exact Or.inr (hg t x)
      · exact Or.inl h
    · exact Or.inr h

end Put

section Refers

variable {σ μ ν : Type} [DecidableEq μ] {key' : σ → μ} {alt' : σ → ν} {f : ρ → μ}
  {t t' : Table key alt} {parent parent' : Table key' alt'}

/-- The rows of `t` refer to rows of `parent`. -/
def Refers (f : ρ → μ) (t : Table key alt) (parent : Table key' alt') : Prop :=
  ∀ r ∈ t, ∃ p, parent.get (f r) = some p

theorem Refers.step {Q : σ → σ → Prop} (h : Refers f t parent) (hp : Retains Q parent parent')
    (hnew : ∀ r ∈ t', (∃ r₀ ∈ t, f r₀ = f r) ∨ ∃ p, parent'.get (f r) = some p) :
    Refers f t' parent' := by
  intro r hr
  rcases hnew r hr with ⟨r₀, hr₀, hf⟩ | hnew
  · obtain ⟨p, hget⟩ := h r₀ hr₀
    obtain ⟨p', hget', -⟩ := hp _ p hget
    exact ⟨p', by rw [← hf]; exact hget'⟩
  · exact hnew

end Refers

end EventServer.Lib.Table
