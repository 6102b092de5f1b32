import Mathlib.Tactic.Common

/-! # Computations that can raise -/

namespace EventServer.Lib

variable {ε ε' α β : Type}

theorem bind_eq_ok {x : Except ε α} {f : α → Except ε β} {b : β} :
    (x >>= f) = .ok b ↔ ∃ a, x = .ok a ∧ f a = .ok b := by
  cases x <;> simp [bind, Except.bind]

theorem map_eq_ok {x : Except ε α} {f : α → β} {b : β} :
    x.map f = .ok b ↔ ∃ a, x = .ok a ∧ f a = b := by
  cases x <;> simp [Except.map]

theorem mapError_eq_ok {x : Except ε α} {f : ε → ε'} {a : α} :
    x.mapError f = .ok a ↔ x = .ok a := by
  cases x <;> simp [Except.mapError]

theorem bind_eq_error {x : Except ε α} {f : α → Except ε β} {e : ε} :
    (x >>= f) = .error e ↔ x = .error e ∨ ∃ a, x = .ok a ∧ f a = .error e := by
  cases x <;> simp [bind, Except.bind]

theorem bind_eq_error_of_ne {x : Except ε α} {f : α → Except ε β} {e : ε} (hx : x ≠ .error e) :
    (x >>= f) = .error e ↔ ∃ a, x = .ok a ∧ f a = .error e := by
  rw [bind_eq_error]
  exact or_iff_right hx

theorem bind_ne_error {x : Except ε α} {f : α → Except ε β} {e : ε} (hx : x ≠ .error e)
    (hf : ∀ a, x = .ok a → f a ≠ .error e) : (x >>= f) ≠ .error e := by
  rw [ne_eq, bind_eq_error_of_ne hx]
  rintro ⟨a, ha, h⟩
  exact hf a ha h

theorem map_ne_error {x : Except ε α} {f : α → β} {e : ε} (hx : x ≠ .error e) :
    x.map f ≠ .error e := by
  intro h
  cases x with
  | error e' =>
    cases h
    exact hx rfl
  | ok a => cases h

/-! ### Returning or raising one exception -/

/-- The computation returns. -/
def Succeeds (x : Except ε α) : Prop := ∃ a, x = .ok a

@[simp] theorem succeeds_ok (a : α) : Succeeds (.ok a : Except ε α) := ⟨a, rfl⟩

@[simp] theorem not_succeeds_error (e : ε) : ¬ Succeeds (.error e : Except ε α) := by
  rintro ⟨a, h⟩
  cases h

theorem succeeds_bind {x : Except ε α} {f : α → Except ε β} :
    Succeeds (x >>= f) ↔ ∃ a, x = .ok a ∧ Succeeds (f a) := by
  cases x <;> simp [bind, Except.bind]

theorem succeeds_map {x : Except ε α} {f : α → β} : Succeeds (x.map f) ↔ Succeeds x := by
  cases x <;> simp [Except.map]

theorem succeeds_bind_iff {x : Except ε α} {f : α → Except ε β} {P : Prop}
    (hf : ∀ a, x = .ok a → (Succeeds (f a) ↔ P)) : Succeeds (x >>= f) ↔ Succeeds x ∧ P := by
  rw [succeeds_bind]
  constructor
  · rintro ⟨a, hx, h⟩
    exact ⟨⟨a, hx⟩, (hf a hx).mp h⟩
  · rintro ⟨⟨a, hx⟩, h⟩
    exact ⟨a, hx, (hf a hx).mpr h⟩

/-- Everything that the computation raises is of the kind `P`. -/
def Raises (P : ε → Prop) (x : Except ε α) : Prop := ∀ e, x = .error e → P e

theorem raises_ok {P : ε → Prop} (a : α) : Raises P (.ok a : Except ε α) := by
  intro e h
  cases h

theorem raises_error {P : ε → Prop} {e : ε} : Raises P (.error e : Except ε α) ↔ P e := by
  constructor
  · intro h
    exact h e rfl
  · intro h e' he
    cases he
    exact h

theorem Raises.mono {P Q : ε → Prop} {x : Except ε α} (h : Raises P x) (hpq : ∀ e, P e → Q e) :
    Raises Q x := fun e he => hpq e (h e he)

theorem raises_bind {P : ε → Prop} {x : Except ε α} {f : α → Except ε β} (hx : Raises P x)
    (hf : ∀ a, x = .ok a → Raises P (f a)) : Raises P (x >>= f) := by
  intro e h
  rcases bind_eq_error.mp h with h | ⟨a, ha, h⟩
  · exact hx e h
  · exact hf a ha e h

theorem raises_map {P : ε → Prop} {x : Except ε α} {f : α → β} (h : Raises P x) :
    Raises P (x.map f) := by
  intro e he
  cases x with
  | error _ =>
    cases he
    exact h _ rfl
  | ok a => cases he

/-- The computation raises nothing but `e`. -/
abbrev RaisesOnly (e : ε) (x : Except ε α) : Prop := Raises (· = e) x

end EventServer.Lib
