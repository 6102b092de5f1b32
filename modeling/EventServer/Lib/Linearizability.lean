import Mathlib.Data.List.Nodup
import EventServer.Lib.Interleave
import EventServer.Lib.Runs

/-! # Linearizability

Processes over a shared state (`Lib/Interleave`) of which each does one operation on `abs`, the part
of the shared state that the operations are about. `done l` is the operation that a process with the
local state `l` has done, with its answer, and none before. The operations of a run in the order in
which they are done are its log: `Logs log c` says that `c` is reached with the log `log`.

`Logs.linearization` is the rule: if every move leaves `abs` alone or is one operation (`Effect`),
then `abs` is what the operations of the log make of it, one after the other, each process has at
most one entry, and every entry is `Right` where it stands. A log only grows (`Logs.trans`), so an
operation that is done before another begins comes before it. -/

namespace EventServer.Lib

namespace Sys

variable {ι χ ε Db L T Op : Type} [DecidableEq ι]

/-- What a move adds to the log. -/
def emitted (done : L → Option Op) (c c' : Config ι Db L) : Label ι χ ε → List (ι × Op)
  | .env _ => []
  | .proc i _ => if (done (c.loc i)).isSome then [] else ((done (c'.loc i)).map (i, ·)).toList

/-- The log of a schedule. -/
def history (P : Sys ι χ ε Db L) (done : L → Option Op) (c : Config ι Db L) :
    List (Label ι χ ε) → List (ι × Op)
  | [] => []
  | l :: ls =>
    match P.next c l with
    | none => []
    | some c' => emitted done c c' l ++ history P done c' ls

/-- Reached from `c₀` by moves that meet `C`, with the log of what has been done on the way. -/
inductive Logs (P : Sys ι χ ε Db L) (C : Config ι Db L → Label ι χ ε → Prop) (done : L → Option Op)
    (c₀ : Config ι Db L) : List (ι × Op) → Config ι Db L → Prop
  | refl : Logs P C done c₀ [] c₀
  | step {c c' : Config ι Db L} {l : Label ι χ ε} {log : List (ι × Op)} : Logs P C done c₀ log c →
      C c l → P.next c l = some c' → Logs P C done c₀ (log ++ emitted done c c' l) c'

/-- What one move does to `abs`: nothing, or the one operation of the process that moves. -/
inductive Effect (done : L → Option Op) (abs : Db → T) (apply : T → Op → T) (Right : T → Op → Prop)
    (db : Db) (l : L) (db' : Db) (l' : L) : Prop
  | quiet (ha : abs db' = abs db) (hd : done l' = done l)
  | takes (op : Op) (hn : done l = none) (hs : done l' = some op) (ha : abs db' = apply (abs db) op)
    (hr : Right (abs db) op)

/-- What the log says of the configuration it leads to. -/
structure Linearization (done : L → Option Op) (apply : T → Op → T)
    (Right : T → Op → Prop) (t₀ t : T) (loc : ι → L) (log : List (ι × Op)) : Prop where
  /-- The state is what the operations make of it, one after the other. -/
  state : t = run (fun t e => apply t e.2) t₀ log
  /-- The log holds the operations that are done. -/
  mem : ∀ i op, (i, op) ∈ log ↔ done (loc i) = some op
  /-- Each process has at most one entry. -/
  once : (log.map Prod.fst).Nodup
  /-- Every operation is answered rightly where it stands. -/
  right : Along (fun t e => apply t e.2) (fun t e => Right t e.2) t₀ log

variable {P : Sys ι χ ε Db L} {C : Config ι Db L → Label ι χ ε → Prop} {done : L → Option Op}
  {c₀ c c' : Config ι Db L} {log log' : List (ι × Op)}

theorem Logs.reach (h : P.Logs C done c₀ log c) : P.Reach C c₀ c := by
  induction h with
  | refl => exact .refl
  | step _ hC hn ih => exact .step ih hC hn

theorem exists_logs (done : L → Option Op)
    (h : P.Reach C c₀ c) : ∃ log, P.Logs C done c₀ log c := by
  induction h with
  | refl => exact ⟨[], .refl⟩
  | step _ hC hn ih =>
    obtain ⟨log, hlog⟩ := ih
    exact ⟨_, .step hlog hC hn⟩

/-- **A log only grows.** -/
theorem Logs.trans (h : P.Logs C done c₀ log c) (h' : P.Logs C done c log' c') :
    P.Logs C done c₀ (log ++ log') c' := by
  induction h' with
  | refl => rwa [List.append_nil]
  | step _ hC hn ih =>
    rw [← List.append_assoc]
    exact .step ih hC hn

/-- Every move of the schedule meets `C`. -/
def Meets (P : Sys ι χ ε Db L) (C : Config ι Db L → Label ι χ ε → Prop) (c : Config ι Db L) :
    List (Label ι χ ε) → Prop
  | [] => True
  | l :: ls =>
    C c l ∧
      match P.next c l with
      | none => True
      | some c' => Meets P C c' ls

instance decidableMeets [∀ c l, Decidable (C c l)] :
    ∀ (c : Config ι Db L) (ls : List (Label ι χ ε)),
    Decidable (P.Meets C c ls)
  | _, [] => .isTrue trivial
  | c, l :: ls => by
    unfold Meets
    cases P.next c l with
    | none => exact inferInstance
    | some c' =>
      have := decidableMeets c' ls
      exact inferInstance

theorem exists_logs_of_exec {ls : List (Label ι χ ε)} (hC : P.Meets C c₀ ls)
    (hlog : P.history done c₀ ls = log) (h : (P.exec c₀ ls).isSome = true) :
    ∃ c, P.Logs C done c₀ log c := by
  induction ls generalizing c₀ log with
  | nil =>
    cases hlog
    exact ⟨c₀, .refl⟩
  | cons l ls ih =>
    cases hn : P.next c₀ l with
    | none => simp [exec, hn] at h
    | some c₁ =>
      simp only [exec, hn, Option.bind_some] at h
      simp only [Meets, hn] at hC
      simp only [history, hn] at hlog
      obtain ⟨c, hc⟩ := ih hC.2 rfl h
      have hfirst : P.Logs C done c₀ ([] ++ emitted done c₀ c₁ l) c₁ := .step .refl hC.1 hn
      rw [← hlog]
      exact ⟨c, hfirst.trans hc⟩

/-! ### The rule -/

section Rule

variable {abs : Db → T} {apply : T → Op → T} {Right : T → Op → Prop} {t₀ t : T} {loc loc' : ι → L}

omit [DecidableEq ι] in
theorem Linearization.quiet (h : Linearization done apply Right t₀ t loc log)
    (hd : ∀ j, done (loc' j) = done (loc j)) : Linearization done apply Right t₀ t loc' log where
  state := h.state
  mem j op := by rw [hd j, h.mem]
  once := h.once
  right := h.right

theorem Linearization.takes (h : Linearization done apply Right t₀ t loc log) {i : ι} {op : Op}
    (hn : done (loc i) = none) (hs : done (loc' i) = some op)
    (hothers : ∀ j, j ≠ i → done (loc' j) = done (loc j)) (hr : Right t op) :
    Linearization done apply Right t₀ (apply t op) loc' (log ++ [(i, op)]) where
  state := by
    rw [run_concat, ← h.state]
  mem j op' := by
    rw [List.mem_append, List.mem_singleton, Prod.mk.injEq, h.mem]
    by_cases hj : j = i
    · subst hj
      rw [hn, hs, Option.some_inj]
      simp only [reduceCtorEq, false_or, true_and]
      exact eq_comm
    · rw [hothers j hj]
      simp [hj]
  once := by
    rw [List.map_append, List.nodup_append]
    refine ⟨h.once, List.nodup_singleton i, ?_⟩
    intro j hj j' hj' hjj
    obtain ⟨⟨k, op'⟩, hm, hk⟩ := List.mem_map.mp hj
    have hki : k = i := by
      rw [List.map_singleton, List.mem_singleton] at hj'
      exact hk.trans (hjj.trans hj')
    rw [h.mem, hki, hn] at hm
    cases hm
  right := along_concat.mpr ⟨h.right, by rw [← h.state]; exact hr⟩

omit [DecidableEq ι] in
theorem Linearization.later {t' : T} (h : Linearization done apply Right t₀ t loc log)
    (h' : Linearization done apply Right t₀ t' loc' (log ++ log')) :
    ∀ e ∈ log', done (loc e.1) = none := by
  rintro ⟨i, op⟩ he
  have hnodup := h'.once
  rw [List.map_append, List.nodup_append] at hnodup
  cases hd : done (loc i) with
  | none => rfl
  | some op' =>
    have hm : (i, op') ∈ log := (h.mem i op').mpr hd
    exact absurd rfl (hnodup.2.2 i (List.mem_map_of_mem hm) i (List.mem_map_of_mem he))

/-- **Linearizability**: where every move does nothing to `abs` or is the one operation of a
process, the log of a run explains what it leads to. -/
theorem Logs.linearization (h₀ : ∀ i, done (c₀.loc i) = none)
    (proc : ∀ c i ch db l, P.Reach C c₀ c → C c (.proc i ch) →
      P.move i ch c.db (c.loc i) = some (db, l) → Effect done abs apply Right c.db (c.loc i) db l)
    (env : ∀ c e db, P.Reach C c₀ c → C c (.env e) → P.env e c.db = some db → abs db = abs c.db)
    (h : P.Logs C done c₀ log c) :
    Linearization done apply Right (abs c₀.db) (abs c.db) c.loc log := by
  induction h with
  | refl =>
    refine ⟨rfl, fun i op => ?_, List.nodup_nil, along_nil⟩
    rw [h₀ i]
    simp
  | @step c c' l log hlogs hC hn ih =>
    cases l with
    | env e =>
      obtain ⟨db, hm, rfl⟩ := next_env.mp hn
      have ha : abs db = abs c.db := env c e db hlogs.reach hC hm
      show Linearization done apply Right (abs c₀.db) (abs db) c.loc (log ++ [])
      rw [List.append_nil, ha]
      exact ih
    | proc i ch =>
      obtain ⟨db, l, hm, rfl⟩ := next_proc.mp hn
      have hi : Function.update c.loc i l i = l := Function.update_self i l c.loc
      have hothers : ∀ j, j ≠ i → done (Function.update c.loc i l j) = done (c.loc j) :=
        fun j hj => by rw [Function.update_of_ne hj]
      cases proc c i ch db l hlogs.reach hC hm with
      | quiet ha hd =>
        have hall : ∀ j, done (Function.update c.loc i l j) = done (c.loc j) := by
          intro j
          by_cases hj : j = i
          · subst hj
            rw [hi, hd]
          · exact hothers j hj
        have hem : emitted done c ⟨db, Function.update c.loc i l⟩
            (.proc i ch : Label ι χ ε) = [] := by
          simp only [emitted, hi, hd]
          cases done (c.loc i) <;> rfl
        show Linearization done apply Right (abs c₀.db) (abs db) _ _
        rw [hem, List.append_nil, ha]
        exact ih.quiet hall
      | takes op hnone hs ha hr =>
        have hem : emitted done c ⟨db, Function.update c.loc i l⟩ (.proc i ch : Label ι χ ε) =
            [(i, op)] := by
          simp [emitted, hnone, hs]
        show Linearization done apply Right (abs c₀.db) (abs db) _ _
        rw [hem, ha]
        exact ih.takes hnone ((congrArg done hi).trans hs) hothers hr

end Rule

end Sys

end EventServer.Lib
