import Mathlib.Data.List.Nodup
import Mathlib.Tactic.Common

/-! # Tables with a primary key and a second unique index

A table is the list of its rows in storage order, together with the proofs that no two rows share
the primary key `key` and no two rows share the second unique index `alt` (a table without a second
index takes `alt := key`). The operations are those a session makes on one table:

* `get k`: the row with the primary key `k`;
* `insert? r`: a new row, refused if it collides on one of the two indices;
* `insertAll? rs`: several new rows, all or none;
* `put r`: the row `r` in place of the one with its key, or as a new row (tables with one index);
* `modify f`, `modifyIf p f`: an update of every row, or of the rows that satisfy `p`, that leaves
  both indices alone;
* `erase k`: without the row with the key `k`.

Rows are characterized by `get` and by membership; `mem_iff_get` moves between the two. -/

namespace EventServer.Lib

/-- The rows of a table, no two of them with the same `key` or the same `alt`. -/
structure Table {ρ κ υ : Type} (key : ρ → κ) (alt : ρ → υ) where
  rows : List ρ
  key_nodup : (rows.map key).Nodup
  alt_nodup : (rows.map alt).Nodup

namespace Table

section Rows

variable {ρ κ υ : Type} {key : ρ → κ} {alt : ρ → υ}

instance : Membership ρ (Table key alt) := ⟨fun t r => r ∈ t.rows⟩

theorem mem_rows {t : Table key alt} {r : ρ} : r ∈ t.rows ↔ r ∈ t := Iff.rfl

/-- The table without rows. -/
def empty : Table key alt := ⟨[], List.nodup_nil, List.nodup_nil⟩

theorem ext_rows {t t' : Table key alt} (h : t.rows = t'.rows) : t = t' := by
  cases t; cases t'; cases h; rfl

theorem key_inj {t : Table key alt} {r r' : ρ} (hr : r ∈ t) (hr' : r' ∈ t) (h : key r = key r') :
    r = r' := List.inj_on_of_nodup_map t.key_nodup hr hr' h

theorem alt_inj {t : Table key alt} {r r' : ρ} (hr : r ∈ t) (hr' : r' ∈ t) (h : alt r = alt r') :
    r = r' := List.inj_on_of_nodup_map t.alt_nodup hr hr' h

/-- An update of every row that changes neither index. -/
def modify (t : Table key alt) (f : ρ → ρ) (hk : ∀ r, key (f r) = key r)
    (ha : ∀ r, alt (f r) = alt r) : Table key alt where
  rows := t.rows.map f
  key_nodup := by
    rw [List.map_map, show key ∘ f = key from funext hk]; exact t.key_nodup
  alt_nodup := by
    rw [List.map_map, show alt ∘ f = alt from funext ha]; exact t.alt_nodup

/-- An update of the rows that satisfy `p`. -/
def modifyIf (t : Table key alt) (p : ρ → Bool) (f : ρ → ρ) (hk : ∀ r, key (f r) = key r)
    (ha : ∀ r, alt (f r) = alt r) : Table key alt :=
  t.modify (fun r => if p r then f r else r) (fun r => by split_ifs <;> simp [hk])
    (fun r => by split_ifs <;> simp [ha])

theorem mem_modify {t : Table key alt} {f : ρ → ρ} {hk ha} {r : ρ} :
    r ∈ t.modify f hk ha ↔ ∃ r₀ ∈ t, f r₀ = r := List.mem_map

end Rows

section Keys

variable {ρ κ υ : Type} [DecidableEq κ] {key : ρ → κ} {alt : ρ → υ}

/-- The row with the primary key `k`. -/
def get (t : Table key alt) (k : κ) : Option ρ := t.rows.find? fun r => key r = k

theorem get_eq_some {t : Table key alt} {k : κ} {r : ρ} :
    t.get k = some r ↔ r ∈ t ∧ key r = k := by
  constructor
  · intro h
    exact ⟨List.mem_of_find?_eq_some h, by simpa using List.find?_some h⟩
  · rintro ⟨hr, rfl⟩
    cases hf : t.get (key r) with
    | none =>
      have := List.find?_eq_none.mp hf r hr
      simp at this
    | some r' =>
      have hr' : r' ∈ t := List.mem_of_find?_eq_some hf
      have hk : key r' = key r := by simpa using List.find?_some hf
      rw [key_inj hr' hr hk]

theorem get_eq_none {t : Table key alt} {k : κ} : t.get k = none ↔ ∀ r ∈ t, key r ≠ k := by
  unfold get
  rw [List.find?_eq_none]
  simp only [decide_eq_true_eq]
  exact Iff.rfl

theorem mem_iff_get {t : Table key alt} {r : ρ} : r ∈ t ↔ t.get (key r) = some r := by
  rw [get_eq_some]; simp

theorem key_of_get {t : Table key alt} {k : κ} {r : ρ} (h : t.get k = some r) : key r = k :=
  (get_eq_some.mp h).2

theorem mem_of_get {t : Table key alt} {k : κ} {r : ρ} (h : t.get k = some r) : r ∈ t :=
  (get_eq_some.mp h).1

theorem filter_key (t : Table key alt) (k : κ) :
    t.rows.filter (fun r => key r = k) = (t.get k).toList := by
  have aux : ∀ l : List ρ, (l.map key).Nodup →
      l.filter (fun r => key r = k) = (l.find? fun r => key r = k).toList := by
    intro l hl
    induction l with
    | nil => rfl
    | cons a l ih =>
      rw [List.map_cons, List.nodup_cons] at hl
      by_cases ha : key a = k
      · have hnone : l.filter (fun r => key r = k) = [] := by
          rw [List.filter_eq_nil_iff]
          intro r hr hrk
          have hrk' : key r = k := by simpa using hrk
          exact hl.1 (by rw [ha, ← hrk']; exact List.mem_map_of_mem hr)
        simp [ha, hnone]
      · simp [ha, ih hl.2]
  exact aux t.rows t.key_nodup

theorem get_modify {t : Table key alt} {f : ρ → ρ} {hk ha} {k : κ} :
    (t.modify f hk ha).get k = (t.get k).map f := by
  unfold get modify
  rw [List.find?_map]
  congr 2
  funext r
  simp [hk]

theorem get_modifyIf {t : Table key alt} {p : ρ → Bool} {f : ρ → ρ} (hk : ∀ r, key (f r) = key r)
    (ha : ∀ r, alt (f r) = alt r) {k : κ} :
    (t.modifyIf p f hk ha).get k = (t.get k).map fun r => if p r then f r else r := get_modify

/-- An update of the one row with the primary key `k₀`. -/
theorem get_modifyIf_key {t : Table key alt} {f : ρ → ρ} (hk : ∀ r, key (f r) = key r)
    (ha : ∀ r, alt (f r) = alt r) {k₀ k : κ} {r : ρ} (hr : t.get k₀ = some r) :
    (t.modifyIf (fun r => key r = k₀) f hk ha).get k =
      if k = k₀ then some (f r) else t.get k := by
  rw [get_modifyIf hk ha]
  split_ifs with h
  · subst h; simp [hr, key_of_get hr]
  · cases h' : t.get k with
    | none => rfl
    | some r' => simp [key_of_get h', h]

/-- The table without the row with the primary key `k`. -/
def erase (t : Table key alt) (k : κ) : Table key alt where
  rows := t.rows.filter fun r => key r ≠ k
  key_nodup := (List.filter_sublist.map key).nodup t.key_nodup
  alt_nodup := (List.filter_sublist.map alt).nodup t.alt_nodup

theorem mem_erase {t : Table key alt} {k : κ} {r : ρ} : r ∈ t.erase k ↔ r ∈ t ∧ key r ≠ k := by
  show r ∈ t.rows.filter _ ↔ _
  rw [List.mem_filter]
  simp only [ne_eq, decide_not, Bool.not_eq_true', decide_eq_false_iff_not]
  exact Iff.rfl

theorem get_erase {t : Table key alt} {k k' : κ} :
    (t.erase k).get k' = if k' = k then none else t.get k' := by
  split_ifs with h
  · rw [get_eq_none]
    intro r hr hk
    exact (mem_erase.mp hr).2 (hk.trans h)
  · ext r
    rw [get_eq_some, get_eq_some, mem_erase]
    constructor
    · rintro ⟨⟨hr, -⟩, hk⟩
      exact ⟨hr, hk⟩
    · rintro ⟨hr, rfl⟩
      exact ⟨⟨hr, h⟩, rfl⟩

theorem erase_of_get_eq_none {t : Table key alt} {k : κ} (h : t.get k = none) : t.erase k = t := by
  refine ext_rows (List.filter_eq_self.mpr fun r hr => ?_)
  simpa using get_eq_none.mp h r hr

theorem erase_erase (t : Table key alt) (k : κ) : (t.erase k).erase k = t.erase k := by
  refine ext_rows ?_
  show (t.rows.filter _).filter _ = t.rows.filter _
  rw [List.filter_filter]
  simp

end Keys

section Insert

variable {ρ κ υ : Type} [DecidableEq κ] [DecidableEq υ] {key : ρ → κ} {alt : ρ → υ}

/-- A new row at the end, unless it collides with a stored one on either index. -/
def insert? (t : Table key alt) (r : ρ) : Option (Table key alt) :=
  if h : key r ∉ t.rows.map key ∧ alt r ∉ t.rows.map alt then
    some
      { rows := t.rows ++ [r]
        key_nodup := by
          rw [List.map_append]
          exact List.Nodup.append t.key_nodup (by simp) (by simpa using h.1)
        alt_nodup := by
          rw [List.map_append]
          exact List.Nodup.append t.alt_nodup (by simp) (by simpa using h.2) }
  else none

theorem insert?_eq_some {t t' : Table key alt} {r : ρ} :
    t.insert? r = some t' ↔
      (∀ r' ∈ t, key r' ≠ key r) ∧ (∀ r' ∈ t, alt r' ≠ alt r) ∧ t'.rows = t.rows ++ [r] := by
  have hmem : (key r ∉ t.rows.map key ∧ alt r ∉ t.rows.map alt) ↔
      (∀ r' ∈ t, key r' ≠ key r) ∧ ∀ r' ∈ t, alt r' ≠ alt r := by
    simp only [List.mem_map, not_exists, not_and]
    exact Iff.rfl
  unfold insert?
  split_ifs with h
  · rw [Option.some_inj]
    constructor
    · rintro rfl; exact ⟨(hmem.mp h).1, (hmem.mp h).2, rfl⟩
    · rintro ⟨-, -, h'⟩; exact ext_rows h'.symm
  · constructor
    · intro h'; cases h'
    · rintro ⟨h1, h2, -⟩; exact absurd (hmem.mpr ⟨h1, h2⟩) h

theorem insert?_eq_none {t : Table key alt} {r : ρ} :
    t.insert? r = none ↔ (∃ r' ∈ t, key r' = key r) ∨ ∃ r' ∈ t, alt r' = alt r := by
  unfold insert?
  split_ifs with h
  · simp only [false_iff, not_or, not_exists, not_and]
    simp only [List.mem_map, not_exists, not_and] at h
    exact h
  · simp only [true_iff]
    simp only [List.mem_map, not_and_or, not_not] at h
    exact h

theorem get_of_insert? {t t' : Table key alt} {r : ρ} (h : t.insert? r = some t') (k : κ) :
    t'.get k = if k = key r then some r else t.get k := by
  obtain ⟨-, -, hrows⟩ := insert?_eq_some.mp h
  have hmem : ∀ x, x ∈ t' ↔ x ∈ t ∨ x = r := by
    intro x
    rw [← mem_rows, hrows, List.mem_append, List.mem_singleton]
    exact Iff.rfl
  split_ifs with hk
  · rw [get_eq_some, hmem]
    exact ⟨Or.inr rfl, hk.symm⟩
  · ext x
    rw [get_eq_some, get_eq_some, hmem]
    constructor
    · rintro ⟨hx | rfl, hxk⟩
      · exact ⟨hx, hxk⟩
      · exact absurd hxk.symm hk
    · rintro ⟨hx, hxk⟩
      exact ⟨Or.inl hx, hxk⟩

theorem get_eq_none_of_insert? {t t' : Table key alt} {r : ρ} (h : t.insert? r = some t') :
    t.get (key r) = none := get_eq_none.mpr (insert?_eq_some.mp h).1

theorem exists_insert? {t : Table key key} {r : ρ} (h : t.get (key r) = none) :
    ∃ t', t.insert? r = some t' := by
  have hkey := get_eq_none.mp h
  cases hi : t.insert? r with
  | some t' => exact ⟨t', rfl⟩
  | none =>
    rcases insert?_eq_none.mp hi with ⟨r', hr', hk⟩ | ⟨r', hr', hk⟩
    · exact absurd hk (hkey r' hr')
    · exact absurd hk (hkey r' hr')

/-- Several new rows, none of them if one collides. -/
def insertAll? (t : Table key alt) (rs : List ρ) : Option (Table key alt) := rs.foldlM insert? t

theorem rows_of_insertAll? {t t' : Table key alt} {rs : List ρ} (h : t.insertAll? rs = some t') :
    t'.rows = t.rows ++ rs := by
  induction rs generalizing t with
  | nil =>
    simp only [insertAll?, List.foldlM_nil, Option.pure_def, Option.some.injEq] at h
    simp [h]
  | cons r rs ih =>
    simp only [insertAll?, List.foldlM_cons, Option.bind_eq_bind, Option.bind_eq_some_iff] at h
    obtain ⟨t₁, h₁, h₂⟩ := h
    rw [ih h₂, (insert?_eq_some.mp h₁).2.2]
    simp

/-- Rows that collide neither with stored rows nor with one another can be inserted. -/
theorem exists_insertAll? (t : Table key alt) (rs : List ρ)
    (hk : ((t.rows ++ rs).map key).Nodup) (ha : ((t.rows ++ rs).map alt).Nodup) :
    ∃ t', t.insertAll? rs = some t' := by
  induction rs generalizing t with
  | nil => exact ⟨t, rfl⟩
  | cons r rs ih =>
    obtain ⟨t₁, h₁⟩ : ∃ t₁, t.insert? r = some t₁ := by
      refine ⟨⟨t.rows ++ [r], ?_, ?_⟩, insert?_eq_some.mpr ⟨?_, ?_, rfl⟩⟩
      · exact (List.Sublist.map key (List.sublist_append_left (t.rows ++ [r]) rs)).nodup
          (by simpa using hk)
      · exact (List.Sublist.map alt (List.sublist_append_left (t.rows ++ [r]) rs)).nodup
          (by simpa using ha)
      · intro r' hr' he
        rw [List.map_append, List.nodup_append] at hk
        exact hk.2.2 _ (List.mem_map_of_mem hr') _ (List.mem_map_of_mem List.mem_cons_self) he
      · intro r' hr' he
        rw [List.map_append, List.nodup_append] at ha
        exact ha.2.2 _ (List.mem_map_of_mem hr') _ (List.mem_map_of_mem List.mem_cons_self) he
    have hrows := (insert?_eq_some.mp h₁).2.2
    obtain ⟨t', h'⟩ := ih t₁ (by rw [hrows]; simpa using hk) (by rw [hrows]; simpa using ha)
    refine ⟨t', ?_⟩
    simp only [insertAll?, List.foldlM_cons, Option.bind_eq_bind, h₁, Option.bind_some]
    exact h'

theorem insertAll?_iff {t : Table key alt} {rs : List ρ} :
    (∃ t', t.insertAll? rs = some t') ↔
      ((t.rows ++ rs).map key).Nodup ∧ ((t.rows ++ rs).map alt).Nodup := by
  constructor
  · rintro ⟨t', h⟩
    rw [← rows_of_insertAll? h]
    exact ⟨t'.key_nodup, t'.alt_nodup⟩
  · rintro ⟨hk, ha⟩
    exact exists_insertAll? t rs hk ha

theorem exists_insertAll?_of_insertAll? {t t₁ : Table key alt} {rs rs₁ : List ρ}
    (h₁ : t.insertAll? rs₁ = some t₁) (h : ∃ t', t.insertAll? rs = some t')
    (hk : ∀ r₁ ∈ rs₁, ∀ r ∈ rs, key r₁ ≠ key r) (ha : ∀ r₁ ∈ rs₁, ∀ r ∈ rs, alt r₁ ≠ alt r) :
    ∃ t', t₁.insertAll? rs = some t' := by
  have hnodup : ∀ {κ' : Type} (f : ρ → κ'), ((t.rows ++ rs₁).map f).Nodup →
      ((t.rows ++ rs).map f).Nodup → (∀ r₁ ∈ rs₁, ∀ r ∈ rs, f r₁ ≠ f r) →
        ((t.rows ++ rs₁ ++ rs).map f).Nodup := by
    intro κ' f h1 h2 hne
    rw [List.map_append, List.nodup_append] at h2 ⊢
    refine ⟨h1, h2.2.1, fun x hx y hy => ?_⟩
    rw [List.map_append, List.mem_append] at hx
    rcases hx with hx | hx
    · exact h2.2.2 x hx y hy
    · obtain ⟨r₁, hr₁, rfl⟩ := List.mem_map.mp hx
      obtain ⟨r, hr, rfl⟩ := List.mem_map.mp hy
      exact hne r₁ hr₁ r hr
  have hold := insertAll?_iff.mp ⟨t₁, h₁⟩
  have hnew := insertAll?_iff.mp h
  rw [insertAll?_iff, rows_of_insertAll? h₁]
  exact ⟨hnodup key hold.1 hnew.1 hk, hnodup alt hold.2 hnew.2 ha⟩

theorem exists_insertAll?_modify {t : Table key alt} {f : ρ → ρ} (hf : ∀ r, key (f r) = key r)
    (hg : ∀ r, alt (f r) = alt r) {rs : List ρ} (h : ∃ t', t.insertAll? rs = some t') :
    ∃ t', (t.modify f hf hg).insertAll? rs = some t' := by
  have hrows : (t.modify f hf hg).rows = t.rows.map f := rfl
  rw [insertAll?_iff] at h ⊢
  rw [hrows, List.map_append, List.map_append, List.map_map, List.map_map,
    show key ∘ f = key from funext hf, show alt ∘ f = alt from funext hg, ← List.map_append,
    ← List.map_append]
  exact h

/-- A row can still be inserted after another that does not collide with it. -/
theorem exists_insert?_of_insert? {t t₁ : Table key alt} {r r₁ : ρ} (h₁ : t.insert? r₁ = some t₁)
    (h : ∃ t', t.insert? r = some t') (hk : key r₁ ≠ key r) (ha : alt r₁ ≠ alt r) :
    ∃ t', t₁.insert? r = some t' := by
  have hsing : ∀ {t : Table key alt} {x : ρ}, t.insertAll? [x] = t.insert? x := by
    intro t x
    simp only [insertAll?, List.foldlM_cons, List.foldlM_nil, Option.bind_eq_bind, Option.pure_def,
      Option.bind_fun_some]
  rw [← hsing] at h₁
  simp only [← hsing] at h ⊢
  exact exists_insertAll?_of_insertAll? h₁ h (by simpa using hk) (by simpa using ha)

end Insert

section Put

variable {ρ κ : Type} [DecidableEq κ] {key : ρ → κ}

/-- The row `r` in place of the stored row with its key, or as a new row. -/
def put (t : Table key key) (r : ρ) : Table key key :=
  if h : key r ∈ t.rows.map key then
    t.modify (fun r' => if key r' = key r then r else r')
      (fun r' => by by_cases h' : key r' = key r <;> simp [h'])
      (fun r' => by by_cases h' : key r' = key r <;> simp [h'])
  else
    { rows := t.rows ++ [r]
      key_nodup := by
        rw [List.map_append]
        exact List.Nodup.append t.key_nodup (by simp) (by simpa using h)
      alt_nodup := by
        rw [List.map_append]
        exact List.Nodup.append t.key_nodup (by simp) (by simpa using h) }

theorem mem_put {t : Table key key} {r x : ρ} :
    x ∈ t.put r ↔ x = r ∨ (x ∈ t ∧ key x ≠ key r) := by
  unfold put
  split_ifs with h
  · rw [mem_modify]
    constructor
    · rintro ⟨y, hy, rfl⟩
      by_cases hk : key y = key r
      · exact Or.inl (by rw [if_pos hk])
      · exact Or.inr (by rw [if_neg hk]; exact ⟨hy, hk⟩)
    · rintro (rfl | ⟨hx, hk⟩)
      · obtain ⟨y, hy, hyk⟩ := List.mem_map.mp h
        exact ⟨y, hy, by rw [if_pos hyk]⟩
      · exact ⟨x, hx, by rw [if_neg hk]⟩
  · show x ∈ t.rows ++ [r] ↔ _
    rw [List.mem_append, List.mem_singleton]
    constructor
    · rintro (hx | rfl)
      · exact Or.inr ⟨hx, fun hk => h (hk ▸ List.mem_map_of_mem hx)⟩
      · exact Or.inl rfl
    · rintro (rfl | ⟨hx, -⟩)
      · exact Or.inr rfl
      · exact Or.inl hx

@[simp] theorem get_put {t : Table key key} {r : ρ} {k : κ} :
    (t.put r).get k = if k = key r then some r else t.get k := by
  split_ifs with h
  · rw [get_eq_some, mem_put]; exact ⟨Or.inl rfl, h.symm⟩
  · ext x
    rw [get_eq_some, get_eq_some, mem_put]
    constructor
    · rintro ⟨rfl | ⟨hx, -⟩, hk⟩
      · exact absurd hk.symm h
      · exact ⟨hx, hk⟩
    · rintro ⟨hx, hk⟩
      exact ⟨Or.inr ⟨hx, by rw [hk]; exact h⟩, hk⟩

theorem countP_put {t : Table key key} {r old : ρ} (p : ρ → Bool) (h : t.get (key r) = some old) :
    (t.put r).rows.countP p + (if p old then 1 else 0) = t.rows.countP p +
      if p r then 1 else 0 := by
  have hkey : key old = key r := key_of_get h
  have hmem : key r ∈ t.rows.map key := List.mem_map.mpr ⟨old, mem_of_get h, hkey⟩
  have hrows : (t.put r).rows = t.rows.map fun r' => if key r' = key r then r else r' := by
    unfold put
    rw [dif_pos hmem]
    rfl
  obtain ⟨pre, post, hsplit⟩ := List.append_of_mem (mem_of_get h)
  have hnodup := t.key_nodup
  rw [hsplit, List.map_append, List.map_cons, List.nodup_append, List.nodup_cons] at hnodup
  have hpre : pre.map (fun r' => if key r' = key r then r else r') = pre := by
    refine (List.map_congr_left fun r' hr' => if_neg fun hk => ?_).trans (List.map_id pre)
    exact hnodup.2.2 (key r') (List.mem_map_of_mem hr')
      (key old) List.mem_cons_self (hk.trans hkey.symm)
  have hpost : post.map (fun r' => if key r' = key r then r else r') = post := by
    refine (List.map_congr_left fun r' hr' => if_neg fun hk => ?_).trans (List.map_id post)
    exact hnodup.2.1.1 (hkey ▸ hk ▸ List.mem_map_of_mem hr')
  rw [hrows, hsplit, List.map_append, List.map_cons, hpre, hpost, if_pos hkey]
  simp only [List.countP_append, List.countP_cons]
  omega

theorem put_of_insert? {t t' : Table key key} {r : ρ}
    (h : t.insert? r = some t') : t.put r = t' := by
  obtain ⟨hnew, -, hrows⟩ := insert?_eq_some.mp h
  have hmem : key r ∉ t.rows.map key := by
    intro hm
    obtain ⟨r', hr', hk⟩ := List.mem_map.mp hm
    exact hnew r' hr' hk
  refine ext_rows ?_
  unfold put
  rw [dif_neg hmem, hrows]

theorem put_of_get {t : Table key key} {r : ρ} (h : t.get (key r) = some r) : t.put r = t := by
  have hmem : key r ∈ t.rows.map key := List.mem_map_of_mem (mem_of_get h)
  refine ext_rows ?_
  unfold put
  rw [dif_pos hmem]
  show t.rows.map _ = t.rows
  refine (List.map_congr_left fun r' hr' => ?_).trans (List.map_id t.rows)
  split_ifs with hk
  · exact (key_inj hr' (mem_of_get h) hk).symm
  · rfl

/-- A row leaves the table as it is exactly if it is stored already. -/
theorem same_put_iff {t : Table key key} {r : ρ} :
    (∀ k, (t.put r).get k = t.get k) ↔ t.get (key r) = some r := by
  simp only [get_put]
  constructor
  · intro h
    have hr := h (key r)
    rw [if_pos rfl] at hr
    exact hr.symm
  · intro h k
    split_ifs with hk
    · rw [hk, h]
    · rfl

end Put

end Table

end EventServer.Lib
