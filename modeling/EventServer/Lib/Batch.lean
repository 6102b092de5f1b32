import EventServer.Lib.Runs

/-! # Batches of steps that do not see each other

A batch is a run of one step for each item of a list. `only i s` is what is left of a state when
just the item `i` is looked at. In a local batch the step of an item does there what it does on the
whole state, and the step of another item is not seen there. Then each item ends as if its step were
the only one (`only_run`), and every outcome is the one the step has on the first state
(`outcomes_eq_map`). -/

namespace EventServer.Lib

variable {ι S O : Type}

/-- The steps of the items of `l` are local, on the states in `I`. -/
structure Local (I : S → Prop) (l : List ι) (only : ι → S → S) (step : S → ι → S) : Prop where
  keeps : ∀ {s i}, I s → i ∈ l → I (step s i)
  frame : ∀ {s i j}, I s → i ∈ l → j ∈ l → i ≠ j → only i (step s j) = only i s
  own : ∀ {s i}, I s → i ∈ l → only i (step s i) = step (only i s) i

/-- The outcomes of the steps, each on the state it meets. -/
def outcomes (step : S → ι → S) (out : S → ι → O) : S → List ι → List O
  | _, [] => []
  | s, i :: l => out s i :: outcomes step out (step s i) l

section Outcomes

variable {step : S → ι → S} {out : S → ι → O}

theorem length_outcomes (s : S) (l : List ι) : (outcomes step out s l).length = l.length := by
  induction l generalizing s with
  | nil => rfl
  | cons i l ih => rw [outcomes, List.length_cons, List.length_cons, ih]

theorem outcomes_forall {P : O → Prop} (h : ∀ s i, P (out s i)) (s : S) (l : List ι) :
    ∀ o ∈ outcomes step out s l, P o := by
  induction l generalizing s with
  | nil =>
    intro o ho
    cases ho
  | cons i l ih =>
    intro o ho
    rw [outcomes, List.mem_cons] at ho
    rcases ho with rfl | ho
    · exact h s i
    · exact ih (step s i) o ho

theorem outcomes_map {κ : Type} (f : κ → ι) (s : S) (l : List κ) :
    outcomes step out s (l.map f) =
      outcomes (fun s k => step s (f k)) (fun s k => out s (f k)) s l := by
  induction l generalizing s with
  | nil => rfl
  | cons k l ih => rw [List.map_cons, outcomes, outcomes, ih]

theorem run_map {κ : Type} (f : κ → ι) (s : S) (l : List κ) :
    run step s (l.map f) = run (fun s k => step s (f k)) s l := List.foldl_map

end Outcomes

namespace Local

variable {I : S → Prop} {l l' : List ι} {only : ι → S → S} {step : S → ι → S} {out : S → ι → O}
  {s : S} {i : ι}

theorem only_run_of_not_mem (h : Local I l only step) (hs : I s) (hi : i ∈ l) (hl : l' ⊆ l)
    (hnot : i ∉ l') : only i (run step s l') = only i s := by
  induction l' generalizing s with
  | nil => rfl
  | cons j l' ih =>
    obtain ⟨hj, hl⟩ := List.cons_subset.mp hl
    rw [List.mem_cons, not_or] at hnot
    rw [run_cons, ih (h.keeps hs hj) hl hnot.2, h.frame hs hi hj hnot.1]

theorem only_step_step (h : Local I l only step) {j : ι} (hs : I s) (hi : i ∈ l) (hj : j ∈ l)
    (hne : i ≠ j) : only i (step (step s j) i) = only i (step s i) := by
  calc only i (step (step s j) i) = step (only i (step s j)) i := h.own (h.keeps hs hj) hi
    _ = step (only i s) i := by rw [h.frame hs hi hj hne]
    _ = only i (step s i) := (h.own hs hi).symm

/-- **Each item ends as if its step were the only one.** -/
theorem only_run (h : Local I l only step) (hs : I s) (hl : l' ⊆ l) (hnodup : l'.Nodup)
    (hi : i ∈ l') : only i (run step s l') = only i (step s i) := by
  induction l' generalizing s with
  | nil => cases hi
  | cons j l' ih =>
    have hmem : i ∈ l := hl hi
    obtain ⟨hj, hrest⟩ := List.cons_subset.mp hl
    obtain ⟨hnot, hnodup⟩ := List.nodup_cons.mp hnodup
    rw [run_cons]
    by_cases hij : i = j
    · subst hij
      exact h.only_run_of_not_mem (h.keeps hs hj) hmem hrest hnot
    · have hi' : i ∈ l' := by
        rcases List.mem_cons.mp hi with he | hi'
        · exact absurd he hij
        · exact hi'
      rw [ih (h.keeps hs hj) hrest hnodup hi', h.only_step_step hs hmem hj hij]

/-- **Every outcome is the one of the step on the first state**, if it is found in what the item
sees. -/
theorem outcomes_eq_map (h : Local I l only step)
    (hout : ∀ {s i}, I s → i ∈ l → out s i = out (only i s) i) (hs : I s) (hl : l' ⊆ l)
    (hnodup : l'.Nodup) : outcomes step out s l' = l'.map (out s) := by
  induction l' generalizing s with
  | nil => rfl
  | cons j l' ih =>
    obtain ⟨hj, hl⟩ := List.cons_subset.mp hl
    obtain ⟨hnot, hnodup⟩ := List.nodup_cons.mp hnodup
    rw [outcomes, ih (h.keeps hs hj) hl hnodup, List.map_cons]
    congr 1
    refine List.map_congr_left fun i hi => ?_
    have hne : i ≠ j := fun he => hnot (he ▸ hi)
    rw [hout (h.keeps hs hj) (hl hi), h.frame hs (hl hi) hj hne, ← hout hs (hl hi)]

end Local

end EventServer.Lib
