import EventServer.Lib.Table
import Mathlib.Data.List.Count

/-! # Rows that are added and not yet flushed

A unit of work reads rows through the database and changes them in place. A row it does not find it
adds; what is added is inserted by the flush at its end, and until then it is not found either. So a
key that is asked for twice is added twice if it is not stored, and the flush fails: `exists_flush`
says for which lists of keys it does not, and `get_flush` what it leaves. -/

namespace EventServer.Lib

variable {ρ κ : Type} [DecidableEq κ] {key : ρ → κ}

/-- The stored rows with the changes to them, and the rows that are added. -/
structure UnitOfWork (key : ρ → κ) where
  stored : Table key key
  added : List ρ := []

namespace UnitOfWork

/-- The assignments `f` to the row with the key `k`, which is added if it is not found. -/
def getOrAdd (w : UnitOfWork key) (f : Option ρ → ρ) (k : κ) : UnitOfWork key :=
  match w.stored.get k with
  | some r => { w with stored := w.stored.put (f (some r)) }
  | none => { w with added := w.added ++ [f none] }

/-- The same for each key of a list. -/
def getOrAddAll (f : κ → Option ρ → ρ) (w : UnitOfWork key) (ks : List κ) : UnitOfWork key :=
  ks.foldl (fun w k => w.getOrAdd (f k) k) w

/-- The table after the added rows have been inserted. -/
def flush (w : UnitOfWork key) : Option (Table key key) := w.stored.insertAll? w.added

/-- The assignments do not move a row that is stored. -/
structure KeepsKeys (key : ρ → κ) (f : κ → Option ρ → ρ) : Prop where
  stored : ∀ r, key (f (key r) (some r)) = key r
  /-- Made twice they leave what they leave once. -/
  idem : ∀ k r, f k (some (f k r)) = f k r

section

variable {f : κ → Option ρ → ρ} {w : UnitOfWork key}

theorem get_getOrAdd (hf : KeepsKeys key f) (k k' : κ) : (w.getOrAdd (f k) k).stored.get k' =
    if k' = k then (w.stored.get k').map fun r => f k (some r) else w.stored.get k' := by
  unfold getOrAdd
  cases hg : w.stored.get k with
  | none =>
    dsimp only
    split_ifs with hk
    · rw [hk, hg, Option.map_none]
    · rfl
  | some r =>
    have hkey : key (f k (some r)) = k := by
      have hr : key r = k := Table.key_of_get hg
      rw [← hr]
      exact hf.stored r
    rw [Table.get_put, hkey]
    split_ifs with hk
    · rw [hk, hg, Option.map_some]
    · rfl

theorem added_getOrAdd (k : κ) : (w.getOrAdd (f k) k).added =
    w.added ++ (if w.stored.get k = none then [f k none] else []) := by
  unfold getOrAdd
  cases w.stored.get k <;> simp

/-- **The stored rows** are found, and changed once for all. -/
theorem get_getOrAddAll (hf : KeepsKeys key f) (ks : List κ) (k : κ) :
    (w.getOrAddAll f ks).stored.get k =
      if k ∈ ks then (w.stored.get k).map fun r => f k (some r) else w.stored.get k := by
  induction ks generalizing w with
  | nil => simp [getOrAddAll]
  | cons k' ks ih =>
    have hcons : w.getOrAddAll f (k' :: ks) = (w.getOrAdd (f k') k').getOrAddAll f ks := rfl
    rw [hcons, ih, get_getOrAdd hf]
    by_cases hk : k = k'
    · subst hk
      by_cases hm : k ∈ ks <;> cases w.stored.get k <;> simp [hm, hf.idem]
    · simp [hk]

/-- **The others** are added as often as they are asked for. -/
theorem added_getOrAddAll (hf : KeepsKeys key f) (ks : List κ) : (w.getOrAddAll f ks).added =
    w.added ++ (ks.filter fun k => w.stored.get k = none).map fun k => f k none := by
  induction ks generalizing w with
  | nil => simp [getOrAddAll]
  | cons k' ks ih =>
    have hcons : w.getOrAddAll f (k' :: ks) = (w.getOrAdd (f k') k').getOrAddAll f ks := rfl
    have hsame : ∀ k, (w.getOrAdd (f k') k').stored.get k = none ↔ w.stored.get k = none := by
      intro k
      rw [get_getOrAdd hf]
      split_ifs <;> simp
    rw [hcons, ih, added_getOrAdd]
    simp only [hsame]
    by_cases hk : w.stored.get k' = none <;> simp [hk]

end

/-! ### The flush -/

section

variable {f : κ → Option ρ → ρ} {t : Table key key} {ks : List κ}

/-- **The flush succeeds** exactly if no key that is not stored was asked for twice. -/
theorem exists_flush [BEq κ] [LawfulBEq κ] (hf : KeepsKeys key f)
    (hnew : ∀ k ∈ ks, key (f k none) = k) :
    (∃ t', (getOrAddAll f { stored := t } ks).flush = some t') ↔
      ∀ k, t.get k = none → ks.count k ≤ 1 := by
  have hkeys : ((ks.filter fun k => t.get k = none).map fun k => f k none).map key =
      ks.filter fun k => t.get k = none := by
    rw [List.map_map]
    exact (List.map_congr_left fun k hk => hnew k (List.mem_filter.mp hk).1).trans (List.map_id _)
  have hfresh : ∀ k ∈ ks.filter (fun k => t.get k = none),
      k ∉ (getOrAddAll f { stored := t } ks).stored.rows.map key := by
    intro k hk hmem
    obtain ⟨r, hr, hkr⟩ := List.mem_map.mp hmem
    have hget := Table.get_eq_some.mpr ⟨hr, hkr⟩
    have hnone : t.get k = none := by simpa using (List.mem_filter.mp hk).2
    rw [get_getOrAddAll hf] at hget
    simp [hnone] at hget
  unfold flush
  rw [Table.insertAll?_iff, and_self, added_getOrAddAll hf, List.nil_append, List.map_append, hkeys,
    List.nodup_append]
  constructor
  · rintro ⟨-, hnodup, -⟩ k hk
    have hcount := List.nodup_iff_count_le_one.mp hnodup k
    rwa [List.count_filter (by simpa using hk)] at hcount
  · intro h
    refine ⟨Table.key_nodup _, List.nodup_iff_count_le_one.mpr fun k => ?_, ?_⟩
    · by_cases hk : t.get k = none
      · rw [List.count_filter (by simpa using hk)]
        exact h k hk
      · have hnot : k ∉ ks.filter fun k => t.get k = none := by simp [hk]
        rw [List.count_eq_zero_of_not_mem hnot]
        omega
    · rintro a ha b hb rfl
      exact hfresh a hb ha

/-- **After the flush** every key that was asked for has its row. -/
theorem get_flush (hf : KeepsKeys key f) (hnew : ∀ k ∈ ks, key (f k none) = k) {t' : Table key key}
    (h : (getOrAddAll f { stored := t } ks).flush = some t') (k : κ) :
    t'.get k = if k ∈ ks then some (f k (t.get k)) else t.get k := by
  have hstored := get_getOrAddAll hf (w := { stored := t }) ks
  have hadded := added_getOrAddAll hf (w := { stored := t }) ks
  have hmem : ∀ r, r ∈ t' ↔ r ∈ (getOrAddAll f { stored := t } ks).stored ∨
      r ∈ (getOrAddAll f { stored := t } ks).added := by
    intro r
    rw [← Table.mem_rows, Table.rows_of_insertAll? h, List.mem_append, Table.mem_rows]
  cases hg : t.get k with
  | some r =>
    have hget := hstored k
    rw [hg, Option.map_some] at hget
    split_ifs at hget ⊢ with hk
    all_goals
      obtain ⟨hr, hkr⟩ := Table.get_eq_some.mp hget
      exact Table.get_eq_some.mpr ⟨(hmem _).mpr (Or.inl hr), hkr⟩
  | none =>
    split_ifs with hk
    · have hadd : f k none ∈ (getOrAddAll f { stored := t } ks).added := by
        rw [hadded, List.nil_append]
        exact List.mem_map.mpr ⟨k, by simp [hk, hg], rfl⟩
      exact Table.get_eq_some.mpr ⟨(hmem _).mpr (Or.inr hadd), hnew k hk⟩
    · rw [Table.get_eq_none]
      intro r hr
      rcases (hmem r).mp hr with hr | hr
      · have hget := hstored k
        rw [if_neg hk, hg] at hget
        exact Table.get_eq_none.mp hget r hr
      · rw [hadded, List.nil_append] at hr
        obtain ⟨k', hk', rfl⟩ := List.mem_map.mp hr
        have hk' := (List.mem_filter.mp hk').1
        rw [hnew k' hk']
        rintro rfl
        exact hk hk'

end

end UnitOfWork

end EventServer.Lib
