import Mathlib.Data.List.Induction
import Mathlib.Tactic.Common

/-! # What a sequence of observations emits

`transitions f prev os` is what `f` emits at each of the observations `os`, given the one before it;
`prev` stands before the first. Observations that are the same for some relation emit what `emit`
says: nothing. Two observations are `Neighbours` if one comes right after the other; a flag that is
down at one observation and up at a later one has been raised between neighbours
(`exists_raised`). -/

namespace EventServer.Lib

variable {O β : Type}

/-- What `f` emits at each observation, given the one before it. -/
def transitions (f : Option O → O → β) : Option O → List O → List β
  | _, [] => []
  | prev, o :: os => f prev o :: transitions f (some o) os

/-- The observation before what follows `os`. -/
def latest (prev : Option O) (os : List O) : Option O := os.getLast?.or prev

@[simp] theorem latest_nil (prev : Option O) : latest prev [] = prev := by simp [latest]

@[simp] theorem latest_concat (prev : Option O) (os : List O) (o : O) :
    latest prev (os ++ [o]) = some o := by simp [latest]

theorem latest_cons (prev : Option O) (o : O) (os : List O) :
    latest prev (o :: os) = latest (some o) os := by
  unfold latest
  rw [List.getLast?_cons]
  cases os.getLast? <;> rfl

theorem transitions_concat (f : Option O → O → β) (prev : Option O) (os : List O) (o : O) :
    transitions f prev (os ++ [o]) = transitions f prev os ++ [f (latest prev os) o] := by
  induction os generalizing prev with
  | nil => simp [transitions]
  | cons a os ih =>
    rw [List.cons_append, transitions, ih, transitions, latest_cons, List.cons_append]

open Classical in
/-- Nothing is emitted at an observation that is the same as the one before it. -/
noncomputable def emit {E ε : Type} (Same : O → O → Prop)
    (evaluate : Option O → O → Except ε (List E)) (prev : Option O) (o : O) : Except ε (List E) :=
  if ∃ p ∈ prev, Same p o then .ok [] else evaluate prev o

theorem emit_same {E ε : Type} {Same : O → O → Prop}
    {evaluate : Option O → O → Except ε (List E)} {p o : O} (h : Same p o) :
    emit Same evaluate (some p) o = .ok [] := if_pos ⟨p, rfl, h⟩

theorem emit_other {E ε : Type} {Same : O → O → Prop}
    {evaluate : Option O → O → Except ε (List E)} {prev : Option O} {o : O}
    (h : ∀ p ∈ prev, ¬ Same p o) : emit Same evaluate prev o = evaluate prev o :=
  if_neg fun ⟨p, hp, hs⟩ => h p hp hs

/-! ### Neighbours -/

/-- `o` comes right after `p`. -/
def Neighbours (os : List O) (p o : O) : Prop := ∃ pre post, os = pre ++ p :: o :: post

variable {os : List O} {p o : O}

theorem latest_eq_some : latest none os = some p ↔ ∃ pre, os = pre ++ [p] := by
  cases os using List.reverseRecOn with
  | nil => simp
  | append_singleton os a =>
    rw [latest_concat]
    constructor
    · intro h
      exact ⟨os, by rw [Option.some_inj.mp h]⟩
    · rintro ⟨pre, h⟩
      rw [List.singleton_inj.mp (List.append_inj' h rfl).2]

theorem neighbours_concat {a : O} :
    Neighbours (os ++ [a]) p o ↔ Neighbours os p o ∨ latest none os = some p ∧ o = a := by
  constructor
  · rintro ⟨pre, post, h⟩
    cases post using List.reverseRecOn with
    | nil =>
      have hsplit : os ++ [a] = (pre ++ [p]) ++ [o] := by rw [h, List.append_assoc]; rfl
      obtain ⟨hos, ha⟩ := List.append_inj' hsplit rfl
      exact Or.inr ⟨latest_eq_some.mpr ⟨pre, hos⟩, (List.singleton_inj.mp ha).symm⟩
    | append_singleton post b =>
      have hsplit : os ++ [a] = (pre ++ p :: o :: post) ++ [b] := by rw [h, List.append_assoc]; rfl
      exact Or.inl ⟨pre, post, (List.append_inj' hsplit rfl).1⟩
  · rintro (⟨pre, post, rfl⟩ | ⟨hlast, rfl⟩)
    · exact ⟨pre, post ++ [a], by rw [List.append_assoc]; rfl⟩
    · obtain ⟨pre, rfl⟩ := latest_eq_some.mp hlast
      exact ⟨pre, [], by rw [List.append_assoc]; rfl⟩

theorem Neighbours.append (h : Neighbours os p o) (before after : List O) :
    Neighbours (before ++ os ++ after) p o := by
  obtain ⟨pre, post, rfl⟩ := h
  exact ⟨before ++ pre, post ++ after, by simp⟩

theorem Neighbours.mem (h : Neighbours os p o) : p ∈ os ∧ o ∈ os := by
  obtain ⟨pre, post, rfl⟩ := h
  simp

theorem Neighbours.forall₂ {P : Type} {R : O → P → Prop} {ps : List P} (h : Neighbours os p o)
    (hR : List.Forall₂ R os ps) : ∃ p' o', Neighbours ps p' o' ∧ R p p' ∧ R o o' := by
  obtain ⟨pre, post, rfl⟩ := h
  induction pre generalizing ps with
  | nil =>
    obtain _ | ⟨hp, _ | ⟨ho, -⟩⟩ := hR
    exact ⟨_, _, ⟨[], _, rfl⟩, hp, ho⟩
  | cons a pre ih =>
    obtain _ | ⟨-, hrest⟩ := hR
    obtain ⟨p', o', ⟨pre', post', rfl⟩, hp, ho⟩ := ih hrest
    exact ⟨p', o', ⟨_ :: pre', post', rfl⟩, hp, ho⟩

/-- **A flag that is down first and up at the end has been raised in between.** -/
theorem exists_raised {f : O → Bool} {a b : O} (mid : List O) (ha : f a = false) (hb : f b = true) :
    ∃ p o, Neighbours (a :: mid ++ [b]) p o ∧ f p = false ∧ f o = true := by
  induction mid generalizing a with
  | nil => exact ⟨a, b, ⟨[], [], rfl⟩, ha, hb⟩
  | cons c mid ih =>
    cases hc : f c with
    | true => exact ⟨a, c, ⟨[], mid ++ [b], rfl⟩, ha, hc⟩
    | false =>
      obtain ⟨p, o, hn, hp, ho⟩ := ih hc
      exact ⟨p, o, by simpa using hn.append [a] [], hp, ho⟩

end EventServer.Lib
