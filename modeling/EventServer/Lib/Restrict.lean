import EventServer.Lib.Table

/-! # A part of a table

`t.restrict p` is what is left of a table when only the rows that satisfy `p` are seen. A write of a
row of that part is the same write of the part, if every row it can collide with belongs to the part
as well (`insert?_restrict`, `insertAll?_restrict`, `put_restrict`); a write of another row is not
seen there. -/

namespace EventServer.Lib.Table

section Rows

variable {ρ κ υ : Type} {key : ρ → κ} {alt : ρ → υ}

open Classical in
/-- The rows that satisfy `p`. -/
noncomputable def restrict (t : Table key alt) (p : ρ → Prop) : Table key alt where
  rows := t.rows.filter fun r => p r
  key_nodup := (List.filter_sublist.map key).nodup t.key_nodup
  alt_nodup := (List.filter_sublist.map alt).nodup t.alt_nodup

variable {t t' : Table key alt} {p : ρ → Prop}

theorem mem_restrict {r : ρ} : r ∈ t.restrict p ↔ r ∈ t ∧ p r := by
  classical
  show r ∈ t.rows.filter _ ↔ _
  rw [List.mem_filter, decide_eq_true_eq]
  exact Iff.rfl

open Classical in
theorem find?_restrict {q : ρ → Bool} (h : ∀ r, q r = true → p r) :
    (t.restrict p).rows.find? q = t.rows.find? q := by
  show (t.rows.filter fun r => p r).find? q = _
  rw [List.find?_filter]
  congr 1
  funext r
  cases hq : q r with
  | false => simp
  | true => simpa using h r hq

open Classical in
theorem filter_restrict {q : ρ → Bool} (h : ∀ r, q r = true → p r) :
    (t.restrict p).rows.filter q = t.rows.filter q := by
  show (t.rows.filter fun r => p r).filter q = _
  rw [List.filter_filter]
  congr 1
  funext r
  cases hq : q r with
  | false => simp
  | true => simpa using h r hq

open Classical in
/-- Rows that are appended are seen as far as they belong to the part. -/
theorem restrict_of_append {rs : List ρ} (h : t'.rows = t.rows ++ rs) :
    (t'.restrict p).rows = (t.restrict p).rows ++ rs.filter fun r => p r := by
  show t'.rows.filter _ = t.rows.filter _ ++ _
  rw [h, List.filter_append]

theorem restrict_of_append_other {rs : List ρ} (h : t'.rows = t.rows ++ rs) (hp : ∀ r ∈ rs, ¬ p r) :
    t'.restrict p = t.restrict p := by
  classical
  refine ext_rows ?_
  rw [restrict_of_append h]
  have hnone : (rs.filter fun r => p r) = [] := by
    rw [List.filter_eq_nil_iff]
    intro r hr
    simpa using hp r hr
  rw [hnone, List.append_nil]

/-- Everything that a row can collide with belongs to the part. -/
def Covers (key : ρ → κ) (alt : ρ → υ) (p : ρ → Prop) (r : ρ) : Prop :=
  ∀ r', key r' = key r ∨ alt r' = alt r → p r'

theorem Covers.self {r : ρ} (h : Covers key alt p r) : p r := h r (Or.inl rfl)

end Rows

section Keys

variable {ρ κ υ : Type} [DecidableEq κ] {key : ρ → κ} {alt : ρ → υ}
  {t : Table key alt} {p : ρ → Prop}

theorem get_restrict {k : κ} (h : ∀ r, key r = k → p r) : (t.restrict p).get k = t.get k :=
  find?_restrict fun r hr => h r (by simpa using hr)

end Keys

section Insert

variable {ρ κ υ : Type} [DecidableEq κ] [DecidableEq υ] {key : ρ → κ} {alt : ρ → υ}
  {t t' : Table key alt} {p : ρ → Prop}

theorem insert?_restrict {r : ρ} (h : Covers key alt p r) :
    (t.restrict p).insert? r = (t.insert? r).map fun t' => t'.restrict p := by
  classical
  cases hi : t.insert? r with
  | some t' =>
    obtain ⟨hk, ha, hrows⟩ := insert?_eq_some.mp hi
    rw [Option.map_some, insert?_eq_some]
    refine ⟨fun r' hr' => hk r' (mem_restrict.mp hr').1, fun r' hr' =>
      ha r' (mem_restrict.mp hr').1, ?_⟩
    rw [restrict_of_append hrows]
    simp [h.self]
  | none =>
    rw [Option.map_none, insert?_eq_none]
    rcases insert?_eq_none.mp hi with ⟨r', hr', hk⟩ | ⟨r', hr', ha⟩
    · exact Or.inl ⟨r', mem_restrict.mpr ⟨hr', h r' (Or.inl hk)⟩, hk⟩
    · exact Or.inr ⟨r', mem_restrict.mpr ⟨hr', h r' (Or.inr ha)⟩, ha⟩

theorem insertAll?_restrict {rs : List ρ} (h : ∀ r ∈ rs, Covers key alt p r) :
    (t.restrict p).insertAll? rs = (t.insertAll? rs).map fun t' => t'.restrict p := by
  induction rs generalizing t with
  | nil => rfl
  | cons r rs ih =>
    have hhead := insert?_restrict (t := t) (h r List.mem_cons_self)
    have htail := fun t₁ : Table key alt => ih (t := t₁) fun r' hr' =>
      h r' (List.mem_cons_of_mem r hr')
    simp only [insertAll?, List.foldlM_cons, Option.bind_eq_bind, hhead] at htail ⊢
    cases hi : t.insert? r with
    | none => rfl
    | some t₁ =>
      rw [Option.map_some, Option.bind_some, Option.bind_some]
      exact htail t₁

theorem restrict_of_insert? {r : ρ} (h : t.insert? r = some t') (hp : ¬ p r) :
    t'.restrict p = t.restrict p := by
  refine restrict_of_append_other (insert?_eq_some.mp h).2.2 ?_
  simpa using hp

theorem restrict_of_insertAll? {rs : List ρ} (h : t.insertAll? rs = some t')
    (hp : ∀ r ∈ rs, ¬ p r) :
    t'.restrict p = t.restrict p := restrict_of_append_other (rows_of_insertAll? h) hp

end Insert

section Put

variable {ρ κ : Type} [DecidableEq κ] {key : ρ → κ} {t : Table key key} {p : ρ → Prop} {r : ρ}

theorem rows_put : (t.put r).rows =
    if key r ∈ t.rows.map key then t.rows.map fun r' => if key r' = key r then r else r'
    else t.rows ++ [r] := by
  unfold put
  split_ifs <;> rfl

theorem put_restrict (h : ∀ r', key r' = key r → p r') :
    (t.put r).restrict p = (t.restrict p).put r := by
  classical
  have hself : p r := h r rfl
  have hmem : key r ∈ (t.restrict p).rows.map key ↔ key r ∈ t.rows.map key := by
    rw [List.mem_map, List.mem_map]
    constructor
    · rintro ⟨r', hr', hk⟩
      exact ⟨r', (mem_restrict.mp hr').1, hk⟩
    · rintro ⟨r', hr', hk⟩
      exact ⟨r', mem_restrict.mpr ⟨hr', h r' hk⟩, hk⟩
  refine ext_rows ?_
  show (t.put r).rows.filter _ = _
  rw [rows_put, rows_put]
  by_cases hstored : key r ∈ t.rows.map key
  · rw [if_pos hstored, if_pos (hmem.mpr hstored), List.filter_map]
    have hkept : ((fun r' => decide (p r')) ∘ fun r' => if key r' = key r then r else r') =
        fun r' => decide (p r') := by
      funext r'
      by_cases hk : key r' = key r
      · simp [hk, hself, h r' hk]
      · simp [hk]
    rw [hkept]
    rfl
  · rw [if_neg hstored, if_neg (mt hmem.mp hstored), List.filter_append]
    simp only [List.filter_singleton, decide_eq_true hself]
    rfl

theorem restrict_put_other (h : ∀ r', key r' = key r → ¬ p r') :
    (t.put r).restrict p = t.restrict p := by
  classical
  refine ext_rows ?_
  show (t.put r).rows.filter _ = t.rows.filter _
  rw [rows_put]
  split_ifs with hstored
  · have hseen : ((fun r' => decide (p r')) ∘ fun r' => if key r' = key r then r else r') =
        fun r' => decide (p r') := by
      funext r'
      by_cases hk : key r' = key r
      · simp [hk, h r rfl, h r' hk]
      · simp [hk]
    rw [List.filter_map, hseen]
    refine (List.map_congr_left fun r' hr' => ?_).trans (List.map_id _)
    have hp : p r' := by simpa using (List.mem_filter.mp hr').2
    exact if_neg fun hk => h r' hk hp
  · rw [List.filter_append]
    simp [h r rfl]

end Put

end EventServer.Lib.Table
