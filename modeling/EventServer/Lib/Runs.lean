import Mathlib.Data.List.Induction
import Mathlib.Tactic.Common

/-! # Runs of a step function

A system that answers one call at a time is a function `step : S → O → S`. The state after a list of
calls is `run step s ops`; a condition `C` on the calls and the states they meet holds `Along` the
run, and `tally` counts the calls that meet it. `run_invariant` is the induction every safety
property is proved by: what the initial state has and each step that meets the condition keeps,
every state of the run has. `exists_last_entry` finds the step after which a property of the final
state has held ever since. -/

namespace EventServer.Lib

/-- The last entry of a history is the one in question, or comes after it. -/
theorem concat_cases {α : Type} {log pre mid : List α} {e e' : α}
    (h : log ++ [e] = pre ++ e' :: mid) :
    (mid = [] ∧ log = pre ∧ e = e') ∨ ∃ mid', mid = mid' ++ [e] ∧ log = pre ++ e' :: mid' := by
  rcases List.eq_nil_or_concat mid with rfl | ⟨mid', x, rfl⟩
  · obtain ⟨h1, h2⟩ := List.append_inj' h rfl
    exact Or.inl ⟨rfl, h1, (List.cons.inj h2).1⟩
  · have h' : log ++ [e] = (pre ++ e' :: mid') ++ [x] := by simpa using h
    obtain ⟨h1, h2⟩ := List.append_inj' h' rfl
    exact Or.inr ⟨mid', by rw [(List.cons.inj h2).1, List.concat_eq_append], h1⟩

/-- Every entry of a history meets `P`, given the history before it. -/
def Each {α : Type} (P : List α → α → Prop) (log : List α) : Prop :=
  ∀ pre e post, log = pre ++ e :: post → P pre e

theorem each_nil {α : Type} {P : List α → α → Prop} : Each P [] := by
  intro pre e post h
  simp at h

theorem Each.concat {α : Type} {P : List α → α → Prop} {log : List α} {e : α} (h : Each P log)
    (he : P log e) : Each P (log ++ [e]) := by
  intro pre e' post hlog
  rcases concat_cases hlog with ⟨-, rfl, rfl⟩ | ⟨post', -, hlog'⟩
  · exact he
  · exact h pre e' post' hlog'

variable {S O : Type} (step : S → O → S)

/-- The state after the calls `ops` from `s`. -/
def run (s : S) (ops : List O) : S := ops.foldl step s

@[simp] theorem run_nil (s : S) : run step s [] = s := rfl

@[simp] theorem run_cons (s : S) (o : O) (ops : List O) :
    run step s (o :: ops) = run step (step s o) ops := rfl

theorem run_append (s : S) (ops ops' : List O) :
    run step s (ops ++ ops') = run step (run step s ops) ops' := List.foldl_append

theorem run_concat (s : S) (ops : List O) (o : O) :
    run step s (ops ++ [o]) = step (run step s ops) o := by rw [run_append]; rfl

/-- Every call of the run from `s` meets `C` in the state it is made in. -/
def Along (C : S → O → Prop) (s : S) (ops : List O) : Prop :=
  ∀ pre o post, ops = pre ++ o :: post → C (run step s pre) o

variable {step}

theorem along_nil {C : S → O → Prop} {s : S} : Along step C s [] := by
  intro pre o post h; simp at h

theorem along_cons {C : S → O → Prop} {s : S} {o : O} {ops : List O} :
    Along step C s (o :: ops) ↔ C s o ∧ Along step C (step s o) ops := by
  constructor
  · intro h
    refine ⟨h [] o ops rfl, fun pre o' post he => ?_⟩
    exact h (o :: pre) o' post (by rw [he, List.cons_append])
  · rintro ⟨h0, h⟩ pre o' post he
    cases pre with
    | nil => cases he; exact h0
    | cons a pre =>
      rw [List.cons_append, List.cons.injEq] at he
      obtain ⟨rfl, rfl⟩ := he
      exact h pre o' post rfl

theorem along_concat {C : S → O → Prop} {s : S} {ops : List O} {o : O} :
    Along step C s (ops ++ [o]) ↔ Along step C s ops ∧ C (run step s ops) o := by
  induction ops generalizing s with
  | nil => rw [List.nil_append, along_cons]; simp [along_nil]
  | cons a ops ih => rw [List.cons_append, along_cons, along_cons, ih, run_cons, and_assoc]

instance decidableAlong {C : S → O → Prop} [∀ s o, Decidable (C s o)] :
    ∀ (s : S) (ops : List O), Decidable (Along step C s ops)
  | _, [] => .isTrue along_nil
  | s, o :: ops =>
    have := decidableAlong (C := C) (step s o) ops
    decidable_of_iff (C s o ∧ Along step C (step s o) ops) along_cons.symm

theorem Along.of_append {C : S → O → Prop} {s : S} {ops ops' : List O}
    (h : Along step C s (ops ++ ops')) : Along step C s ops := by
  rintro pre o post rfl
  exact h pre o (post ++ ops') (by simp)

theorem Along.right {C : S → O → Prop} {s : S} {ops ops' : List O}
    (h : Along step C s (ops ++ ops')) : Along step C (run step s ops) ops' := by
  rintro pre o post rfl
  have := h (ops ++ pre) o post (by simp)
  rwa [run_append] at this

theorem Along.mono {C C' : S → O → Prop} (hC : ∀ s o, C s o → C' s o) {s : S} {ops : List O}
    (h : Along step C s ops) : Along step C' s ops :=
  fun pre o post he => hC _ _ (h pre o post he)

theorem along_of_forall {C : S → O → Prop} (hC : ∀ s o, C s o) (s : S) (ops : List O) :
    Along step C s ops := fun _ _ _ _ => hC _ _

/-- **Invariance over runs**: what holds at the start and is kept by every step that meets the
condition holds after the run. -/
theorem run_invariant {C : S → O → Prop} {I : S → Prop}
    (hstep : ∀ s o, I s → C s o → I (step s o)) {s : S} {ops : List O} (h0 : I s)
    (hC : Along step C s ops) : I (run step s ops) := by
  induction ops generalizing s with
  | nil => exact h0
  | cons o ops ih =>
    obtain ⟨h1, h2⟩ := along_cons.mp hC
    exact ih (hstep s o h0 h1) h2

theorem run_invariant_all {I : S → Prop} (hstep : ∀ s o, I s → I (step s o)) {s : S} (h0 : I s)
    (ops : List O) : I (run step s ops) :=
  run_invariant (C := fun _ _ => True) (fun s o h _ => hstep s o h) h0
    (along_of_forall (fun _ _ => trivial) s ops)

/-- A relation that is reflexive and transitive, and that every step keeps to, relates the first
state of a run to the last. -/
theorem run_related {R : S → S → Prop} (hrefl : ∀ s, R s s)
    (htrans : ∀ s₁ s₂ s₃, R s₁ s₂ → R s₂ s₃ → R s₁ s₃) (hstep : ∀ s o, R s (step s o)) (s : S)
    (ops : List O) : R s (run step s ops) := by
  induction ops generalizing s with
  | nil => exact hrefl s
  | cons o ops ih => exact htrans _ _ _ (hstep s o) (ih (step s o))

/-- **Simulation of runs**: if every step of one system is matched by some steps of another, so is
every run. -/
theorem run_simulated {T P : Type} {step' : T → P → T} {R : S → T → Prop} {C : O → Prop}
    {M : O → List P → Prop}
    (hstep : ∀ s t o, R s t → C o → ∃ ps, M o ps ∧ R (step s o) (run step' t ps)) {s : S} {t : T}
    (h : R s t) {ops : List O} (hC : ∀ o ∈ ops, C o) :
    ∃ pss, List.Forall₂ M ops pss ∧ R (run step s ops) (run step' t pss.flatten) := by
  induction ops generalizing s t with
  | nil => exact ⟨[], .nil, h⟩
  | cons o ops ih =>
    rw [List.forall_mem_cons] at hC
    obtain ⟨ps, hM, hR⟩ := hstep s t o h hC.1
    obtain ⟨pss, hMs, hRs⟩ := ih hR hC.2
    refine ⟨ps :: pss, .cons hM hMs, ?_⟩
    rw [List.flatten_cons, run_append, run_cons]
    exact hRs

/-- How many calls of the run from `s` meet `C` in the state they are made in. -/
def tally (step : S → O → S) (C : S → O → Bool) (s : S) : List O → ℕ
  | [] => 0
  | o :: ops => (if C s o then 1 else 0) + tally step C (step s o) ops

theorem tally_concat {C : S → O → Bool} {s : S} {ops : List O} {o : O} :
    tally step C s (ops ++ [o]) = tally step C s ops + if C (run step s ops) o then 1 else 0 := by
  induction ops generalizing s with
  | nil => rw [List.nil_append, tally, tally, tally, run_nil, Nat.zero_add, Nat.add_zero]
  | cons a ops ih => rw [List.cons_append, tally, ih, tally, run_cons, Nat.add_assoc]

/-- Every state of the run from `s` has `P`, the first and the last included. -/
def Throughout (step : S → O → S) (P : S → Prop) (s : S) (ops : List O) : Prop :=
  ∀ pre post, ops = pre ++ post → P (run step s pre)

theorem throughout_nil {P : S → Prop} {s : S} : Throughout step P s [] ↔ P s := by
  constructor
  · intro h
    exact h [] [] rfl
  · intro h pre post he
    obtain ⟨rfl, -⟩ := List.append_eq_nil_iff.mp he.symm
    exact h

theorem throughout_cons {P : S → Prop} {s : S} {o : O} {ops : List O} :
    Throughout step P s (o :: ops) ↔ P s ∧ Throughout step P (step s o) ops := by
  constructor
  · intro h
    refine ⟨h [] (o :: ops) rfl, fun pre post he => ?_⟩
    exact h (o :: pre) post (by rw [he, List.cons_append])
  · rintro ⟨h0, h⟩ pre post he
    cases pre with
    | nil => exact h0
    | cons a pre =>
      rw [List.cons_append, List.cons.injEq] at he
      obtain ⟨rfl, rfl⟩ := he
      exact h pre post rfl

/-- **The last entry**: a property the start lacks and the end has was made true by some step of the
run and has held after every call since. -/
theorem exists_last_entry {P : S → Prop} {s : S} {ops : List O} (h0 : ¬ P s)
    (h : P (run step s ops)) :
    ∃ pre o post, ops = pre ++ o :: post ∧ ¬ P (run step s pre) ∧
      ∀ mid rest, post = mid ++ rest → P (run step (step (run step s pre) o) mid) := by
  induction ops using List.reverseRecOn with
  | nil => exact absurd h h0
  | append_singleton ops o ih =>
    by_cases hp : P (run step s ops)
    · obtain ⟨pre, o', post, rfl, h1, h2⟩ := ih hp
      refine ⟨pre, o', post ++ [o], by simp, h1, fun mid rest he => ?_⟩
      rcases List.eq_nil_or_concat rest with rfl | ⟨rest', a, rfl⟩
      · rw [List.append_nil] at he
        subst he
        rw [← run_cons, ← run_append]
        simpa using h
      · rw [List.concat_eq_append, ← List.append_assoc] at he
        exact h2 mid rest' (List.append_inj' he rfl).1
    · refine ⟨ops, o, [], rfl, hp, fun mid rest he => ?_⟩
      obtain ⟨rfl, rfl⟩ := List.append_eq_nil_iff.mp he.symm
      rw [run_concat] at h
      exact h

end EventServer.Lib
