import Mathlib.Tactic.Common

/-! # Prefixes of separated lists

A list is cut into segments at each separator (`List.splitOn`). A prefix that ends with the
separator is a namespace: it is a prefix of exactly the lists whose segments start with its own and
go on (`isPrefix_iff_segments`). -/

namespace EventServer.Lib

variable {α : Type} [DecidableEq α]

/-- The segments `ws` come first among the segments `vs`, and are not all of them. -/
def ProperInitial (ws vs : List (List α)) : Prop := ∃ t, t ≠ [] ∧ vs = ws ++ t

omit [DecidableEq α] in
theorem intercalate_append (sep : List α) {ws vs : List (List α)} (hw : ws ≠ []) (hv : vs ≠ []) :
    sep.intercalate (ws ++ vs) = sep.intercalate ws ++ sep ++ sep.intercalate vs := by
  induction ws with
  | nil => exact absurd rfl hw
  | cons w ws ih =>
    rw [List.cons_append]
    cases ws with
    | nil => rw [List.nil_append, List.intercalate_cons_of_ne_nil hv, List.intercalate_singleton]
    | cons w' ws =>
      rw [List.cons_append, List.intercalate_cons_cons, List.intercalate_cons_cons,
        ← List.cons_append, ih (List.cons_ne_nil _ _)]
      simp only [List.append_assoc]

/-- A list of at least two segments of which the last one is empty ends with the separator. -/
theorem eq_concat_of_splitOn {x : α} {l : List α} {w : List α} {ws : List (List α)}
    (h : l.splitOn x = w :: ws) (hlast : ws.getLast? = some []) :
    ∃ q, l = q ++ [x] ∧ l.splitOn x = q.splitOn x ++ [[]] := by
  obtain ⟨vs, rfl⟩ : ∃ vs, ws = vs ++ [[]] := by
    rw [List.getLast?_eq_some_iff] at hlast
    exact hlast
  have hl : l = [x].intercalate (w :: vs) ++ [x] := by
    have hjoin : [x].intercalate (l.splitOn x) = l := List.intercalate_splitOn x
    rw [← hjoin, h, ← List.cons_append,
      intercalate_append [x] (List.cons_ne_nil _ _) (List.cons_ne_nil _ _),
      List.intercalate_singleton, List.append_nil]
  refine ⟨[x].intercalate (w :: vs), hl, ?_⟩
  have hsplit := List.splitOn_append_cons_self (a := x) ([x].intercalate (w :: vs)) []
  rw [← hl, List.splitOn_nil] at hsplit
  exact hsplit

/-- **A prefix that ends with the separator is a namespace.** -/
theorem isPrefix_iff_segments {x : α} {q l : List α} :
    q ++ [x] <+: l ↔ ProperInitial (q.splitOn x) (l.splitOn x) := by
  constructor
  · rintro ⟨rest, rfl⟩
    refine ⟨rest.splitOn x, List.splitOn_ne_nil x rest, ?_⟩
    rw [List.append_assoc, List.singleton_append, List.splitOn_append_cons_self]
  · rintro ⟨t, ht, hl⟩
    have hcat : l = q ++ [x] ++ [x].intercalate t := by
      have hjoin : [x].intercalate (l.splitOn x) = l := List.intercalate_splitOn x
      rw [← hjoin, hl,
        intercalate_append [x] (List.splitOn_ne_nil x q) ht, List.intercalate_splitOn]
    exact ⟨_, hcat.symm⟩

end EventServer.Lib
