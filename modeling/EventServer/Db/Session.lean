import EventServer.Db.Models

/-! # What a session flushes and locks

A session that has loaded a row writes back the columns whose values have changed since, and no
others. The row may have been changed by another transaction in the meantime: `column` is what a
column holds afterwards.

Rows that are selected `FOR UPDATE`, and the entries of a unique index for rows that are inserted,
are locked until the transaction ends; `locks k` is the transaction that has locked the key `k`. -/

namespace EventServer.Db

/-- The column after an `UPDATE` that carries it only if it has changed since it was loaded. -/
def column {α : Type} [DecidableEq α] (loaded changed current : α) : α :=
  if changed = loaded then current else changed

/-- On a row that is as it was loaded, the flush stores what the session holds. -/
@[simp] theorem column_self {α : Type} [DecidableEq α] (loaded changed : α) :
    column loaded changed loaded = changed := by
  unfold column
  split_ifs with h
  · exact h.symm
  · rfl

theorem column_of_ne {α : Type} [DecidableEq α] {loaded changed : α} (h : changed ≠ loaded)
    (current : α) : column loaded changed current = changed := if_neg h

@[simp] theorem column_unchanged {α : Type} [DecidableEq α] (loaded current : α) :
    column loaded loaded current = current := if_pos rfl

@[simp] theorem column_changed {α : Type} [DecidableEq α] (loaded changed : α) :
    column loaded changed changed = changed := by
  unfold column
  split_ifs <;> rfl

theorem column_idem {α : Type} [DecidableEq α] (loaded changed current : α) :
    column loaded changed (column loaded changed current) = column loaded changed current := by
  unfold column
  split_ifs <;> rfl

/-! ### Locks -/

section Locks

variable {ι κ : Type}

/-- Transaction `i` has locked the keys `ks` as well. -/
def lockRows [DecidableEq κ] (locks : κ → Option ι) (i : ι) (ks : List κ) : κ → Option ι :=
  fun k => if k ∈ ks then some i else locks k

/-- Transaction `i` has ended. -/
def releaseRows [DecidableEq ι] (locks : κ → Option ι) (i : ι) : κ → Option ι :=
  fun k => if locks k = some i then none else locks k

theorem lockRows_of_mem [DecidableEq κ] {locks : κ → Option ι} {i : ι} {ks : List κ} {k : κ}
    (h : k ∈ ks) : lockRows locks i ks k = some i := if_pos h

theorem lockRows_of_not_mem [DecidableEq κ] {locks : κ → Option ι} {i : ι} {ks : List κ} {k : κ}
    (h : k ∉ ks) : lockRows locks i ks k = locks k := if_neg h

theorem lockRows_other [DecidableEq κ] {locks : κ → Option ι} {i j : ι} {ks : List κ} {k : κ}
    (hfree : ∀ k ∈ ks, locks k = none) (h : locks k = some j) : lockRows locks i ks k = some j := by
  have hk : k ∉ ks := by
    intro hm
    rw [hfree k hm] at h
    cases h
  rw [lockRows_of_not_mem hk, h]

theorem releaseRows_own [DecidableEq ι] {locks : κ → Option ι} {i : ι} {k : κ}
    (h : locks k = some i) : releaseRows locks i k = none := if_pos h

theorem releaseRows_other [DecidableEq ι] {locks : κ → Option ι} {i j : ι} {k : κ}
    (h : locks k = some j) (hij : j ≠ i) : releaseRows locks i k = some j := by
  unfold releaseRows
  rw [if_neg (by simpa [h] using hij), h]

end Locks

end EventServer.Db
