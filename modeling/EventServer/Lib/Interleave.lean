import Mathlib.Logic.Function.Basic
import Mathlib.Tactic.Common

/-! # Processes over a shared state

Any number of processes, named by `ι`, work on a shared state `Db`. Process `i` has a local state
`L` (where it stands and what it has read) and moves by `move i ch`, where `ch` settles what the
process does not determine itself (a clock reading, whether it gives up); a move that is not enabled
is `none`, so waiting for a lock is a move that is not enabled yet. Between the moves of the
processes the environment changes the shared state by `env`.

A configuration is `Reach`able under a condition `C` if it is reached by moves that all meet `C`.
Three rules establish invariants: `Reach.invariant` for a property of whole configurations, and
`Reach.interference_free` for a property `G` of the shared state with one assertion `A i` for each
process, where each move must restore the assertion of the process that moves and preserve the
assertions of all others. `Reach.unique` is for a race that only one process can win. -/

namespace EventServer.Lib

/-- Processes over a shared state. -/
structure Sys (ι χ ε Db L : Type) where
  move : ι → χ → Db → L → Option (Db × L)
  env : ε → Db → Option Db

/-- The shared state and the local state of every process. -/
structure Config (ι Db L : Type) where
  db : Db
  loc : ι → L

/-- Who moves next: a process, or the environment. -/
inductive Label (ι χ ε : Type) where
  | proc (i : ι) (ch : χ)
  | env (e : ε)

namespace Sys

variable {ι χ ε Db L : Type} [DecidableEq ι] (P : Sys ι χ ε Db L)

/-- One move. -/
def next (c : Config ι Db L) : Label ι χ ε → Option (Config ι Db L)
  | .proc i ch => (P.move i ch c.db (c.loc i)).map fun r => ⟨r.1, Function.update c.loc i r.2⟩
  | .env e => (P.env e c.db).map fun db => ⟨db, c.loc⟩

/-- The configuration after a schedule, if every move of it is enabled. -/
def exec (c : Config ι Db L) : List (Label ι χ ε) → Option (Config ι Db L)
  | [] => some c
  | l :: ls => (P.next c l).bind fun c' => exec c' ls

/-- Reached from `c₀` by moves that meet `C`. -/
inductive Reach (C : Config ι Db L → Label ι χ ε → Prop) (c₀ : Config ι Db L) :
    Config ι Db L → Prop
  | refl : Reach C c₀ c₀
  | step {c c' : Config ι Db L} {l : Label ι χ ε} : Reach C c₀ c → C c l → P.next c l = some c' →
      Reach C c₀ c'

/-- Reached by any moves. -/
abbrev Reachable (c₀ : Config ι Db L) : Config ι Db L → Prop := P.Reach (fun _ _ => True) c₀

variable {P} {C : Config ι Db L → Label ι χ ε → Prop} {c₀ c c' : Config ι Db L}

theorem next_proc {i : ι} {ch : χ} : P.next c (.proc i ch) = some c' ↔
    ∃ db l, P.move i ch c.db (c.loc i) = some (db, l) ∧
      c' = ⟨db, Function.update c.loc i l⟩ := by
  simp only [next, Option.map_eq_some_iff, Prod.exists]
  constructor
  · rintro ⟨db, l, h, rfl⟩; exact ⟨db, l, h, rfl⟩
  · rintro ⟨db, l, h, rfl⟩; exact ⟨db, l, h, rfl⟩

theorem next_env {e : ε} : P.next c (.env e) = some c' ↔
    ∃ db, P.env e c.db = some db ∧ c' = ⟨db, c.loc⟩ := by
  simp only [next, Option.map_eq_some_iff]
  constructor
  · rintro ⟨db, h, rfl⟩; exact ⟨db, h, rfl⟩
  · rintro ⟨db, h, rfl⟩; exact ⟨db, h, rfl⟩

theorem next_loc {l : Label ι χ ε} (h : P.next c l = some c') (i : ι) : c'.loc i = c.loc i ∨
    ∃ ch, l = .proc i ch ∧ P.move i ch c.db (c.loc i) = some (c'.db, c'.loc i) := by
  cases l with
  | env e =>
    obtain ⟨db, -, rfl⟩ := next_env.mp h
    exact Or.inl rfl
  | proc j ch =>
    obtain ⟨db, l, hm, rfl⟩ := next_proc.mp h
    by_cases hij : i = j
    · subst hij
      have hl : Function.update c.loc i l i = l := Function.update_self i l c.loc
      refine Or.inr ⟨ch, rfl, ?_⟩
      show _ = some (db, Function.update c.loc i l i)
      rw [hl, hm]
    · exact Or.inl (Function.update_of_ne hij l c.loc)

theorem Reach.trans (h : P.Reach C c₀ c) (h' : P.Reach C c c') : P.Reach C c₀ c' := by
  induction h' with
  | refl => exact h
  | step _ hC hn ih => exact .step ih hC hn

theorem Reach.mono {C' : Config ι Db L → Label ι χ ε → Prop} (hC : ∀ c l, C c l → C' c l)
    (h : P.Reach C c₀ c) : P.Reach C' c₀ c := by
  induction h with
  | refl => exact .refl
  | step _ h1 h2 ih => exact .step ih (hC _ _ h1) h2

theorem reachable_of_exec {ls : List (Label ι χ ε)} (h : P.exec c₀ ls = some c) :
    P.Reachable c₀ c := by
  induction ls generalizing c₀ with
  | nil => cases h; exact .refl
  | cons l ls ih =>
    simp only [exec, Option.bind_eq_some_iff] at h
    obtain ⟨c₁, h1, h2⟩ := h
    exact (Reach.step .refl trivial h1).trans (ih h2)

variable (P) in
/-- The moves of process `i` alone, one after the other. -/
def solo (i : ι) (db : Db) (l : L) : List χ → Option (Db × L)
  | [] => some (db, l)
  | ch :: chs => (P.move i ch db l).bind fun r => solo i r.1 r.2 chs

theorem exec_solo (i : ι) (chs : List χ) : P.exec c (chs.map (Label.proc i)) =
    (P.solo i c.db (c.loc i) chs).map fun r => ⟨r.1, Function.update c.loc i r.2⟩ := by
  induction chs generalizing c with
  | nil => simp [exec, solo]
  | cons ch chs ih =>
    simp only [List.map_cons, exec, solo, next]
    cases P.move i ch c.db (c.loc i) with
    | none => rfl
    | some r => simp [ih]

theorem exists_reachable {α : Type} {f : Config ι Db L → α} {x : α} (ls : List (Label ι χ ε))
    (h : (P.exec c₀ ls).map f = some x) : ∃ c, P.Reachable c₀ c ∧ f c = x := by
  obtain ⟨c, hc, hx⟩ := Option.map_eq_some_iff.mp h
  exact ⟨c, reachable_of_exec hc, hx⟩

/-- **Invariance**: what the start has and every move keeps holds in every reachable
configuration. -/
theorem Reach.invariant {I : Config ι Db L → Prop} (h0 : I c₀)
    (hstep : ∀ c l c', P.Reach C c₀ c → I c → C c l → P.next c l = some c' → I c')
    (h : P.Reach C c₀ c) : I c := by
  induction h with
  | refl => exact h0
  | step hr hC hn ih => exact hstep _ _ _ hr ih hC hn

/-- **Freedom from interference**: each move restores `G` and the assertion of the process that
moves, and preserves the assertions of the others. -/
theorem Reach.interference_free {G : Db → Prop} {A : ι → Db → L → Prop} (hG : G c₀.db)
    (hA : ∀ i, A i c₀.db (c₀.loc i))
    (own : ∀ c i ch db l, P.Reach C c₀ c → G c.db → (∀ j, A j c.db (c.loc j)) → C c (.proc i ch) →
      P.move i ch c.db (c.loc i) = some (db, l) → G db ∧ A i db l)
    (others : ∀ c i ch db l, P.Reach C c₀ c → G c.db → (∀ j, A j c.db (c.loc j)) →
      C c (.proc i ch) → P.move i ch c.db (c.loc i) = some (db, l) → ∀ j, j ≠ i → A j db (c.loc j))
    (env : ∀ c e db, P.Reach C c₀ c → G c.db → (∀ j, A j c.db (c.loc j)) → C c (.env e) →
      P.env e c.db = some db → G db ∧ ∀ j, A j db (c.loc j))
    (h : P.Reach C c₀ c) : G c.db ∧ ∀ i, A i c.db (c.loc i) := by
  refine h.invariant (I := fun c => G c.db ∧ ∀ i, A i c.db (c.loc i)) ⟨hG, hA⟩ ?_
  rintro c l c' hr ⟨hg, ha⟩ hC hn
  cases l with
  | proc i ch =>
    obtain ⟨db, l, hm, rfl⟩ := next_proc.mp hn
    obtain ⟨hg', hi⟩ := own c i ch db l hr hg ha hC hm
    refine ⟨hg', fun j => ?_⟩
    by_cases hj : j = i
    · subst hj; simpa using hi
    · simpa [Function.update_of_ne hj] using others c i ch db l hr hg ha hC hm j hj
  | env e =>
    obtain ⟨db, hm, rfl⟩ := next_env.mp hn
    exact env c e db hr hg ha hC hm

/-- **Unique winners**: if a process that has won leaves its key used, and one that wins finds its
key unused, then no two processes have won with the same key. -/
theorem Reach.unique_entry {κ : Type} (Won : L → Prop) (key : ι → κ) (Used : Db → κ → Prop)
    (h0 : ∀ i, ¬ Won (c₀.loc i))
    (used : ∀ c i, P.Reach C c₀ c → Won (c.loc i) → Used c.db (key i))
    (wins : ∀ c i ch db l, P.Reach C c₀ c → C c (.proc i ch) →
      P.move i ch c.db (c.loc i) = some (db, l) → ¬ Won (c.loc i) → Won l → ¬ Used c.db (key i))
    (h : P.Reach C c₀ c) : ∀ i j, Won (c.loc i) → Won (c.loc j) → key i = key j → i = j := by
  refine h.invariant (I := fun c => ∀ i j, Won (c.loc i) → Won (c.loc j) → key i = key j → i = j)
    (fun i _ hi => absurd hi (h0 i)) ?_
  intro c l c' hr hI hC hn i j hi hj hk
  have hwon : ∀ i, Won (c'.loc i) →
      Won (c.loc i) ∨ (∃ ch, l = .proc i ch) ∧ ¬ Used c.db (key i) := by
    intro i hi
    by_cases hold : Won (c.loc i)
    · exact Or.inl hold
    rcases next_loc hn i with hl | ⟨ch, rfl, hm⟩
    · rw [hl] at hi
      exact Or.inl hi
    · exact Or.inr ⟨⟨ch, rfl⟩, wins c i ch _ _ hr hC hm hold hi⟩
  -- of two winners, the one that has just won would have found the key used
  rcases hwon i hi with hi' | ⟨⟨ch, hl⟩, hunused⟩
  · rcases hwon j hj with hj' | ⟨-, hunused⟩
    · exact hI i j hi' hj' hk
    · have hused := used c i hr hi'
      rw [hk] at hused
      exact absurd hused hunused
  · rcases hwon j hj with hj' | ⟨⟨ch', hl'⟩, -⟩
    · have hused := used c j hr hj'
      rw [← hk] at hused
      exact absurd hused hunused
    · rw [hl] at hl'
      cases hl'
      rfl

/-- Unique winners, where a process that has won does not move any more or finds its key unused. -/
theorem Reach.unique {κ : Type} (Won : L → Prop) (key : ι → κ) (Used : Db → κ → Prop)
    (h0 : ∀ i, ¬ Won (c₀.loc i))
    (used : ∀ c i, P.Reach C c₀ c → Won (c.loc i) → Used c.db (key i))
    (wins : ∀ c i ch db l, P.Reach C c₀ c → C c (.proc i ch) →
      P.move i ch c.db (c.loc i) = some (db, l) → Won l → ¬ Used c.db (key i))
    (h : P.Reach C c₀ c) : ∀ i j, Won (c.loc i) → Won (c.loc j) → key i = key j → i = j :=
  h.unique_entry Won key Used h0 used fun c i ch db l hr hC hm _ hl => wins c i ch db l hr hC hm hl

end Sys

end EventServer.Lib
