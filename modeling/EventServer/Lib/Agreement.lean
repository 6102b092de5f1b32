import EventServer.Lib.Table
import Mathlib.Data.List.Sort

/-! # Tables that agree on a part of their rows

Two tables agree on `P` if they hold the same rows among those that satisfy `P`; the order of the
rows and all others may differ. What is read from that part is the same in both, and writing the
same to it keeps the agreement; a table agrees with itself after writes outside of `P`. -/

namespace EventServer.Lib

/-- Sorting by an order that does not tie the entries forgets how they were arranged. -/
theorem insertionSort_eq_of_perm {α : Type} {r : α → α → Prop} [DecidableRel r] {l l' : List α}
    (htotal : ∀ a b, r a b ∨ r b a) (htrans : ∀ a b c, r a b → r b c → r a c)
    (hanti : ∀ a ∈ l, ∀ b ∈ l, r a b → r b a → a = b) (h : l.Perm l') :
    l.insertionSort r = l'.insertionSort r := by
  have : Std.Total r := ⟨htotal⟩
  have : IsTrans α r := ⟨htrans⟩
  have hp : (l.insertionSort r).Perm (l'.insertionSort r) :=
    (List.perm_insertionSort r l).trans (h.trans (List.perm_insertionSort r l').symm)
  refine hp.eq_of_pairwise (fun a b ha hb => ?_) (List.pairwise_insertionSort r l)
    (List.pairwise_insertionSort r l')
  rw [List.mem_insertionSort] at ha hb
  exact hanti a ha b (h.mem_iff.mpr hb)

namespace Table

variable {ρ κ υ : Type} {key : ρ → κ} {alt : ρ → υ} {P : ρ → Prop}

/-- The tables hold the same rows among those that satisfy `P`. -/
def AgreeOn (P : ρ → Prop) (t t' : Table key alt) : Prop := ∀ r, P r → (r ∈ t ↔ r ∈ t')

theorem AgreeOn.refl (t : Table key alt) : AgreeOn P t t := fun _ _ => Iff.rfl

theorem AgreeOn.trans {t₁ t₂ t₃ : Table key alt} (h : AgreeOn P t₁ t₂) (h' : AgreeOn P t₂ t₃) :
    AgreeOn P t₁ t₃ := fun r hr => (h r hr).trans (h' r hr)

theorem AgreeOn.perm_filter {t t' : Table key alt} (h : AgreeOn P t t') {q : ρ → Bool}
    (hq : ∀ r, q r = true → P r) : (t.rows.filter q).Perm (t'.rows.filter q) := by
  have hnodup : ∀ t : Table key alt, (t.rows.filter q).Nodup :=
    fun t => (List.Nodup.of_map _ t.key_nodup).filter _
  rw [List.perm_ext_iff_of_nodup (hnodup t) (hnodup t')]
  intro r
  rw [List.mem_filter, List.mem_filter]
  exact and_congr_left fun hr => h r (hq r hr)

theorem AgreeOn.modifyIf {t t' : Table key alt} (h : AgreeOn P t t') {p : ρ → Bool} {f : ρ → ρ}
    (hk : ∀ r, key (f r) = key r) (ha : ∀ r, alt (f r) = alt r) (hf : ∀ r, P (f r) → P r) :
    AgreeOn P (t.modifyIf p f hk ha) (t'.modifyIf p f hk ha) := by
  have hback : ∀ r, P (if p r = true then f r else r) → P r := by
    intro r hr
    split_ifs at hr
    · exact hf r hr
    · exact hr
  intro r hr
  unfold Table.modifyIf
  rw [mem_modify, mem_modify]
  constructor
  · rintro ⟨r₀, h₀, rfl⟩
    exact ⟨r₀, (h r₀ (hback r₀ hr)).mp h₀, rfl⟩
  · rintro ⟨r₀, h₀, rfl⟩
    exact ⟨r₀, (h r₀ (hback r₀ hr)).mpr h₀, rfl⟩

theorem agreeOn_modifyIf {t : Table key alt} {p : ρ → Bool} {f : ρ → ρ}
    (hk : ∀ r, key (f r) = key r) (ha : ∀ r, alt (f r) = alt r) (hf : ∀ r, P (f r) → P r)
    (hp : ∀ r ∈ t, p r = true → ¬ P r) : AgreeOn P t (t.modifyIf p f hk ha) := by
  intro r hr
  unfold Table.modifyIf
  rw [mem_modify]
  constructor
  · intro h
    exact ⟨r, h, if_neg fun hpr => hp r h hpr hr⟩
  · rintro ⟨r₀, h₀, rfl⟩
    split_ifs at hr ⊢ with hpr
    · exact absurd (hf r₀ hr) (hp r₀ h₀ hpr)
    · exact h₀

section Keys

variable [DecidableEq κ]

/-- If the key of a row tells whether it belongs to the part, agreement is to answer alike. -/
theorem agreeOn_iff_get {t t' : Table key alt} {Q : κ → Prop} (hQ : ∀ r, P r ↔ Q (key r)) :
    AgreeOn P t t' ↔ ∀ k, Q k → t.get k = t'.get k := by
  constructor
  · intro h k hk
    ext r
    rw [get_eq_some, get_eq_some]
    refine and_congr_left fun hr => h r ((hQ r).mpr ?_)
    rw [hr]
    exact hk
  · intro h r hr
    rw [mem_iff_get, mem_iff_get, h _ ((hQ r).mp hr)]

theorem AgreeOn.erase {t t' : Table key alt} (h : AgreeOn P t t') (k : κ) :
    AgreeOn P (t.erase k) (t'.erase k) := by
  intro r hr
  rw [mem_erase, mem_erase, h r hr]

theorem agreeOn_erase {t : Table key alt} {k : κ} (hk : ∀ r ∈ t, key r = k → ¬ P r) :
    AgreeOn P t (t.erase k) := by
  intro r hr
  rw [mem_erase]
  exact ⟨fun h => ⟨h, fun he => hk r h he hr⟩, And.left⟩

theorem AgreeOn.put {t t' : Table key key} (h : AgreeOn P t t') (r : ρ) :
    AgreeOn P (t.put r) (t'.put r) := by
  intro x hx
  rw [mem_put, mem_put, h x hx]

/-- A row outside of the part is written over another such row, or added. -/
theorem agreeOn_put {t : Table key key} {r : ρ} (hr : ¬ P r)
    (ht : ∀ x ∈ t, key x = key r → ¬ P x) : AgreeOn P t (t.put r) := by
  intro x hx
  rw [mem_put]
  constructor
  · intro h
    exact Or.inr ⟨h, fun he => ht x h he hx⟩
  · rintro (rfl | ⟨h, -⟩)
    · exact absurd hx hr
    · exact h

variable [DecidableEq υ]

theorem AgreeOn.insert? {t t' : Table key key} (h : AgreeOn P t t') {r : ρ}
    (ht : ∀ x ∈ t, key x = key r → P x) (ht' : ∀ x ∈ t', key x = key r → P x) :
    (t.insert? r = none ∧ t'.insert? r = none) ∨
      ∃ u u', t.insert? r = some u ∧ t'.insert? r = some u' ∧ AgreeOn P u u' := by
  have hfree : t.get (key r) = none ↔ t'.get (key r) = none := by
    rw [get_eq_none, get_eq_none]
    constructor
    · exact fun hn x hx he => hn x ((h x (ht' x hx he)).mpr hx) he
    · exact fun hn x hx he => hn x ((h x (ht x hx he)).mp hx) he
  cases hi : t.insert? r with
  | none =>
    refine Or.inl ⟨rfl, ?_⟩
    cases hi' : t'.insert? r with
    | none => rfl
    | some u' =>
      obtain ⟨u, hu⟩ := exists_insert? (hfree.mpr (get_eq_none_of_insert? hi'))
      cases hi.symm.trans hu
  | some u =>
    obtain ⟨u', hu'⟩ := exists_insert? (hfree.mp (get_eq_none_of_insert? hi))
    refine Or.inr ⟨u, u', rfl, hu', fun x hx => ?_⟩
    rw [← mem_rows, ← mem_rows, (insert?_eq_some.mp hi).2.2, (insert?_eq_some.mp hu').2.2,
      List.mem_append, List.mem_append]
    exact or_congr_left (h x hx)

theorem agreeOn_of_insert? {t u : Table key alt} {r : ρ} (h : t.insert? r = some u) (hr : ¬ P r) :
    AgreeOn P t u := by
  intro x hx
  rw [← mem_rows, ← mem_rows, (insert?_eq_some.mp h).2.2, List.mem_append, List.mem_singleton]
  constructor
  · exact Or.inl
  · rintro (h | rfl)
    · exact h
    · exact absurd hx hr

end Keys

end Table

end EventServer.Lib
