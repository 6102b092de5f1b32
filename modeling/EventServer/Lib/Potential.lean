import EventServer.Lib.Runs
import Mathlib.Algebra.Order.Group.Nat

/-! # Potentials

Each call of a run has a cost. If every call that meets the condition `C` pays its cost out of a
potential `Φ`, then the whole run costs no more than the potential it starts with (`total_add_le`).

A queue whose first entries are taken is such a case: what is left out has as many entries ahead of
it as are taken (`length_take_of_left_out`, `le_of_mem_take`). -/

namespace EventServer.Lib

variable {S O : Type} {step : S → O → S}

/-- The cost of the calls of a run from `s`. -/
def total (step : S → O → S) (cost : S → O → ℕ) : S → List O → ℕ
  | _, [] => 0
  | s, o :: ops => cost s o + total step cost (step s o) ops

/-- **What a run costs is paid out of the potential.** -/
theorem total_add_le {cost : S → O → ℕ} {Φ : S → ℕ} {I : S → Prop} {C : S → O → Prop}
    (hstep : ∀ s o, I s → C s o → I (step s o) ∧ cost s o + Φ (step s o) ≤ Φ s) {s : S}
    {ops : List O} (h0 : I s) (hC : Along step C s ops) :
    total step cost s ops + Φ (run step s ops) ≤ Φ s := by
  induction ops generalizing s with
  | nil => simp [total]
  | cons o ops ih =>
    obtain ⟨h1, h2⟩ := along_cons.mp hC
    obtain ⟨hI, hpaid⟩ := hstep s o h0 h1
    have hrest := ih hI h2
    rw [run_cons, total]
    omega

theorem mul_countP_le_total {cost : S → O → ℕ} {p : O → Bool} {l : ℕ}
    (h : ∀ s o, p o = true → l ≤ cost s o) (s : S) (ops : List O) :
    l * ops.countP p ≤ total step cost s ops := by
  induction ops generalizing s with
  | nil => simp [total]
  | cons o ops ih =>
    have hrest := ih (step s o)
    rw [total, List.countP_cons]
    split_ifs with hp
    · have hcost := h s o hp
      rw [Nat.mul_add, Nat.mul_one]
      omega
    · rw [Nat.add_zero]
      omega

/-! ### The first entries of a queue -/

section Queue

variable {α : Type} {l : List α} {n : ℕ} {x y : α}

theorem mem_drop_of_left_out (hx : x ∈ l) (hout : x ∉ l.take n) : x ∈ l.drop n := by
  rw [← List.take_append_drop n l, List.mem_append] at hx
  exact hx.resolve_left hout

theorem length_take_of_left_out (hx : x ∈ l) (hout : x ∉ l.take n) : (l.take n).length = n := by
  have hdrop := mem_drop_of_left_out hx hout
  have hlt : n < l.length := by
    by_contra hle
    rw [List.drop_eq_nil_of_le (not_lt.mp hle)] at hdrop
    exact absurd hdrop List.not_mem_nil
  rw [List.length_take]
  omega

theorem le_of_mem_take {le : α → α → Prop} (hsorted : l.Pairwise le) (hx : x ∈ l)
    (hout : x ∉ l.take n) (hy : y ∈ l.take n) : le y x := by
  rw [← List.take_append_drop n l, List.pairwise_append] at hsorted
  exact hsorted.2.2 y hy x (mem_drop_of_left_out hx hout)

end Queue

end EventServer.Lib
