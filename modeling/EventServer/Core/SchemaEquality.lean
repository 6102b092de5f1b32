import EventServer.Core.SchemaSafety
import Mathlib.Data.List.Perm.Subperm

/-! # Const and enum

`const` and `enum` compare with `==`, for which a boolean is the number 0 or 1. Values are equal up
to the numbers that a reading `N` sees in them: `Same` reads numbers as JSON does, `Alike` as Python
does, and `pyEq` decides the latter (`pyEq_iff`). Alike values are the same unless they mix, i.e.
unless at some depth a boolean stands against a number (`Alike.same_iff`). So the keywords accept
another value than they list exactly if it is alike and mixes (`const_enum_iff`). -/

namespace EventServer.Core.SchemaEquality

open EventServer.Core.SchemaSafety EventServer.Core.SchemaValidation EventServer.Python

/-! ### Equality -/

/-- The number a value is in JSON. -/
def number : Json → Option Number
  | .int n => some (.finite n)
  | .float x => some x
  | _ => none

/-- The values are equal up to the numbers that `N` reads in them. -/
inductive EqualBy (N : Json → Option Number) : Json → Json → Prop
  | null : EqualBy N .null .null
  | bool {b : Bool} : EqualBy N (.bool b) (.bool b)
  | number {a b : Json} {x y : Number} : N a = some x → N b = some y → x.eq y = true → EqualBy N a b
  | str {text : String} : EqualBy N (.str text) (.str text)
  | arr {as bs : List Json} : as.length = bs.length →
      (∀ (i : ℕ) (a b : Json), as[i]? = some a → bs[i]? = some b → EqualBy N a b) →
      EqualBy N (.arr as) (.arr bs)
  | obj {as bs : JsonObject} : (∀ key, key ∈ as.map Prod.fst ↔ key ∈ bs.map Prod.fst) →
      (∀ key a b, as.lookup key = some a → bs.lookup key = some b → EqualBy N a b) →
      EqualBy N (.obj as) (.obj bs)

/-- The same JSON value. -/
def Same : Json → Json → Prop := EqualBy number

/-- Equal if booleans are read as numbers. -/
def Alike : Json → Json → Prop := EqualBy Json.number?

/-- At some depth a boolean stands against a number. -/
inductive Mixes : Json → Json → Prop
  | left {b : Bool} {a : Json} {x : Number} : number a = some x → Mixes (.bool b) a
  | right {b : Bool} {a : Json} {x : Number} : number a = some x → Mixes a (.bool b)
  | arr {as bs : List Json} {i : ℕ} {a b : Json} : as[i]? = some a → bs[i]? = some b → Mixes a b →
      Mixes (.arr as) (.arr bs)
  | obj {as bs : JsonObject} {key : String} {a b : Json} : as.lookup key = some a →
      bs.lookup key = some b → Mixes a b → Mixes (.obj as) (.obj bs)

/-! ### What the interpreter compares -/

theorem pyEqItems_iff {as bs : List Json} : Json.pyEqItems as bs = true ↔ as.length = bs.length ∧
    ∀ (i : ℕ) (a b : Json), as[i]? = some a → bs[i]? = some b → a.pyEq b = true := by
  induction as generalizing bs with
  | nil => cases bs <;> simp [Json.pyEqItems]
  | cons a as ih =>
    cases bs with
    | nil => simp [Json.pyEqItems]
    | cons b bs =>
      unfold Json.pyEqItems
      rw [Bool.and_eq_true, ih, List.length_cons, List.length_cons, Nat.add_right_cancel_iff]
      constructor
      · rintro ⟨hhead, hlen, hall⟩
        refine ⟨hlen, fun i a' b' ha hb => ?_⟩
        cases i with
        | zero =>
          cases ha
          cases hb
          exact hhead
        | succ i => exact hall i a' b' ha hb
      · rintro ⟨hlen, hall⟩
        exact ⟨hall 0 a b rfl rfl, hlen, fun i a' b' ha hb => hall (i + 1) a' b' ha hb⟩

theorem pyEqFields_cons (key : String) (a : Json) (as bs : JsonObject) :
    Json.pyEqFields ((key, a) :: as) bs =
      ((bs.lookup key).any (fun b => a.pyEq b) && Json.pyEqFields as bs) := by
  rw [Json.pyEqFields]
  cases bs.lookup key <;> rfl

theorem pyEqFields_iff {as bs : JsonObject} : Json.pyEqFields as bs = true ↔
    ∀ key a, (key, a) ∈ as → ∃ b, bs.lookup key = some b ∧ a.pyEq b = true := by
  induction as with
  | nil => simp [Json.pyEqFields]
  | cons field as ih =>
    obtain ⟨key, a⟩ := field
    rw [pyEqFields_cons, Bool.and_eq_true, ih, Option.any_eq_true]
    constructor
    · rintro ⟨hkey, hall⟩ key' a' hmem
      rcases List.mem_cons.mp hmem with he | hmem
      · cases he
        exact hkey
      · exact hall key' a' hmem
    · intro h
      exact ⟨h key a List.mem_cons_self, fun key' a' hmem =>
        h key' a' (List.mem_cons_of_mem _ hmem)⟩

/-- In a dictionary the value of a key is the one of its field. -/
theorem lookup_of_mem {fields : JsonObject} (h : (fields.map Prod.fst).Nodup) {key : String}
    {value : Json} (hmem : (key, value) ∈ fields) : fields.lookup key = some value := by
  obtain ⟨before, after, rfl⟩ := List.append_of_mem hmem
  refine List.lookup_eq_some_iff.mpr ⟨before, after, rfl, fun field hf => ?_⟩
  rw [List.map_append, List.map_cons, List.nodup_append] at h
  have hne := h.2.2 field.1 (List.mem_map_of_mem hf) key List.mem_cons_self
  simpa using fun he => hne he.symm

theorem mem_of_lookup {fields : JsonObject} {key : String} {value : Json}
    (h : fields.lookup key = some value) : (key, value) ∈ fields := by
  obtain ⟨before, after, rfl, -⟩ := List.lookup_eq_some_iff.mp h
  simp

theorem exists_lookup {fields : JsonObject} {key : String} (h : key ∈ fields.map Prod.fst) :
    ∃ value, fields.lookup key = some value := by
  obtain ⟨field, hf, rfl⟩ := List.mem_map.mp h
  rw [← Option.isSome_iff_exists, List.lookup_isSome_iff]
  exact ⟨field, hf, BEq.rfl⟩

/-- Two dictionaries of one length have the same keys if the keys of one are keys of the other. -/
theorem keys_iff {as bs : JsonObject} (h : (as.map Prod.fst).Nodup) (hlen : as.length = bs.length)
    (hsub : as.map Prod.fst ⊆ bs.map Prod.fst) (key : String) :
    key ∈ as.map Prod.fst ↔ key ∈ bs.map Prod.fst := by
  have hperm := (List.subperm_of_subset h hsub).perm_of_length_le (by simp [hlen])
  exact hperm.mem_iff

theorem numEq_iff {x : Number} {b : Json} :
    Json.numEq x b = true ↔ ∃ y, b.number? = some y ∧ x.eq y = true := by
  unfold Json.numEq
  cases b.number? <;> simp

theorem alike_number_iff {a b : Json} {x : Number} (ha : a.number? = some x) :
    Alike a b ↔ ∃ y, b.number? = some y ∧ x.eq y = true := by
  constructor
  · intro h
    cases h with
    | number ha' hb heq =>
      cases ha.symm.trans ha'
      exact ⟨_, hb, heq⟩
    | @bool c =>
      cases ha
      exact ⟨_, rfl, by simp [Number.eq]⟩
    | null | str | arr | obj => cases ha
  · rintro ⟨y, hb, heq⟩
    exact .number ha hb heq

theorem alike_null_iff {b : Json} : Alike .null b ↔ b = .null := by
  constructor
  · intro h
    cases h with
    | null => rfl
    | number ha => cases ha
  · rintro rfl
    exact .null

theorem alike_str_iff {text : String} {b : Json} : Alike (.str text) b ↔ b = .str text := by
  constructor
  · intro h
    cases h with
    | str => rfl
    | number ha => cases ha
  · rintro rfl
    exact .str

theorem alike_arr_iff {as : List Json} {b : Json} : Alike (.arr as) b ↔
    ∃ bs, b = .arr bs ∧ as.length = bs.length ∧
      ∀ (i : ℕ) (a b : Json), as[i]? = some a → bs[i]? = some b → Alike a b := by
  constructor
  · intro h
    cases h with
    | arr hlen hall => exact ⟨_, rfl, hlen, hall⟩
    | number ha => cases ha
  · rintro ⟨bs, rfl, hlen, hall⟩
    exact .arr hlen hall

theorem alike_obj_iff {as : JsonObject} {b : Json} : Alike (.obj as) b ↔
    ∃ bs, b = .obj bs ∧ (∀ key, key ∈ as.map Prod.fst ↔ key ∈ bs.map Prod.fst) ∧
      ∀ key a b, as.lookup key = some a → bs.lookup key = some b → Alike a b := by
  constructor
  · intro h
    cases h with
    | obj hkeys hall => exact ⟨_, rfl, hkeys, hall⟩
    | number ha => cases ha
  · rintro ⟨bs, rfl, hkeys, hall⟩
    exact .obj hkeys hall

theorem pyEq_obj_iff {as bs : JsonObject} (ha : (as.map Prod.fst).Nodup)
    (hb : (bs.map Prod.fst).Nodup)
    (hd : ∀ key a b, as.lookup key = some a → bs.lookup key = some b →
      (a.pyEq b = true ↔ Alike a b)) :
    (Json.obj as).pyEq (.obj bs) = true ↔
      (∀ key, key ∈ as.map Prod.fst ↔ key ∈ bs.map Prod.fst) ∧
        ∀ key a b, as.lookup key = some a → bs.lookup key = some b → Alike a b := by
  unfold Json.pyEq
  rw [Bool.and_eq_true, decide_eq_true_iff, pyEqFields_iff]
  constructor
  · rintro ⟨hlen, hall⟩
    refine ⟨keys_iff ha hlen ?_, fun key a b hka hkb => ?_⟩
    · intro key hkey
      obtain ⟨a, hka⟩ := exists_lookup hkey
      obtain ⟨b, hkb, -⟩ := hall key a (mem_of_lookup hka)
      exact List.mem_map_of_mem (mem_of_lookup hkb)
    · obtain ⟨b', hkb', heq⟩ := hall key a (mem_of_lookup hka)
      cases hkb.symm.trans hkb'
      exact (hd key a b hka hkb).mp heq
  · rintro ⟨hkeys, hall⟩
    have hperm := (List.perm_ext_iff_of_nodup ha hb).mpr hkeys
    refine ⟨by simpa using hperm.length_eq, fun key a hmem => ?_⟩
    have hka := lookup_of_mem ha hmem
    obtain ⟨b, hkb⟩ := exists_lookup ((hkeys key).mp (List.mem_map_of_mem hmem))
    exact ⟨b, hkb, (hd key a b hka hkb).mpr (hall key a b hka hkb)⟩

/-- **The interpreter compares values as if booleans were numbers.** -/
theorem pyEq_iff : (a b : Json) → Distinct a → Distinct b → (a.pyEq b = true ↔ Alike a b)
  | .null, b, _, _ => by
    rw [alike_null_iff]
    cases b <;> simp [Json.pyEq]
  | .str text, b, _, _ => by
    rw [alike_str_iff]
    cases b <;> simp [Json.pyEq, eq_comm]
  | .bool c, b, _, _ => by
    rw [alike_number_iff rfl, ← numEq_iff]
    unfold Json.pyEq
    exact Iff.rfl
  | .int n, b, _, _ => by
    rw [alike_number_iff rfl, ← numEq_iff]
    unfold Json.pyEq
    exact Iff.rfl
  | .float x, b, _, _ => by
    rw [alike_number_iff rfl, ← numEq_iff]
    unfold Json.pyEq
    exact Iff.rfl
  | .arr as, .arr bs, ha, hb => by
    have hd : ∀ (i : ℕ) (a b : Json), as[i]? = some a → bs[i]? = some b →
        (a.pyEq b = true ↔ Alike a b) := by
      intro i a b hai hbi
      have hmem := List.mem_of_getElem? hai
      cases ha with
      | arr ha =>
        cases hb with
        | arr hb => exact pyEq_iff a b (ha a hmem) (hb b (List.mem_of_getElem? hbi))
    rw [alike_arr_iff]
    unfold Json.pyEq
    rw [pyEqItems_iff]
    constructor
    · rintro ⟨hlen, hall⟩
      exact ⟨bs, rfl, hlen, fun i a b hai hbi => (hd i a b hai hbi).mp (hall i a b hai hbi)⟩
    · rintro ⟨_, he, hlen, hall⟩
      cases he
      exact ⟨hlen, fun i a b hai hbi => (hd i a b hai hbi).mpr (hall i a b hai hbi)⟩
  | .obj as, .obj bs, ha, hb => by
    have hd : ∀ key a b, as.lookup key = some a → bs.lookup key = some b →
        (a.pyEq b = true ↔ Alike a b) := by
      intro key a b hka hkb
      have hlt := sizeOf_lt_of_lookup hka
      cases ha with
      | obj _ ha =>
        cases hb with
        | obj _ hb => exact pyEq_iff a b (ha _ (mem_of_lookup hka)) (hb _ (mem_of_lookup hkb))
    rw [alike_obj_iff]
    cases ha with
    | obj ha _ =>
      cases hb with
      | obj hb _ =>
        rw [pyEq_obj_iff ha hb hd]
        constructor
        · rintro ⟨hkeys, hall⟩
          exact ⟨bs, rfl, hkeys, hall⟩
        · rintro ⟨_, he, hkeys, hall⟩
          cases he
          exact ⟨hkeys, hall⟩
  | .arr as, .null, _, _ | .arr as, .bool _, _, _ | .arr as, .int _, _, _ | .arr as, .float _, _, _
  | .arr as, .str _, _, _ | .arr as, .obj _, _, _ => by
    rw [alike_arr_iff]
    simp [Json.pyEq]
  | .obj as, .null, _, _ | .obj as, .bool _, _, _ | .obj as, .int _, _, _ | .obj as, .float _, _, _
  | .obj as, .str _, _, _ | .obj as, .arr _, _, _ => by
    rw [alike_obj_iff]
    simp [Json.pyEq]
termination_by a => sizeOf a

/-! ### The same and alike -/

theorem number?_of_number {a : Json} {x : Number} (h : number a = some x) : a.number? = some x := by
  cases a with
  | int _ | float _ => exact h
  | null | bool _ | str _ | arr _ | obj _ => cases h

theorem number_or_bool {a : Json} {x : Number} (h : a.number? = some x) :
    number a = some x ∨ ∃ b, a = .bool b ∧ x = .finite (if b then 1 else 0) := by
  cases a with
  | int _ | float _ => exact Or.inl h
  | bool b =>
    cases h
    exact Or.inr ⟨b, rfl, rfl⟩
  | null | str _ | arr _ | obj _ => cases h

theorem eq_of_boolNumber {b c : Bool}
    (h : Number.eq (.finite (if b then 1 else 0)) (.finite (if c then 1 else 0)) = true) :
    b = c := by
  revert h
  cases b <;> cases c <;> simp [Number.eq]

theorem not_mixes_of_same {a b : Json} (h : Same a b) : ¬ Mixes a b := by
  induction h with
  | null =>
    intro hm
    cases hm
  | bool =>
    rintro (hn | hn | _ | _)
    · cases hn
    · cases hn
  | str =>
    intro hm
    cases hm
  | number ha hb _ =>
    intro hm
    cases hm with
    | left _ => cases ha
    | right _ => cases hb
    | arr _ _ _ => cases ha
    | obj _ _ _ => cases ha
  | arr _ _ ih =>
    intro hm
    cases hm with
    | arr ha hb hm => exact ih _ _ _ ha hb hm
  | obj _ _ ih =>
    intro hm
    cases hm with
    | obj ha hb hm => exact ih _ _ _ ha hb hm

theorem same_of_alike {a b : Json} (h : Alike a b) (hm : ¬ Mixes a b) : Same a b := by
  induction h with
  | null => exact .null
  | bool => exact .bool
  | str => exact .str
  | number ha hb heq =>
    rcases number_or_bool ha with hna | ⟨c, rfl, rfl⟩
    · rcases number_or_bool hb with hnb | ⟨d, rfl, rfl⟩
      · exact .number hna hnb heq
      · exact absurd (.right hna) hm
    · rcases number_or_bool hb with hnb | ⟨d, rfl, rfl⟩
      · exact absurd (.left hnb) hm
      · rw [eq_of_boolNumber heq]
        exact .bool
  | arr hlen _ ih => exact .arr hlen fun i a b ha hb => ih i a b ha hb fun h => hm (.arr ha hb h)
  | obj hkeys _ ih =>
    exact .obj hkeys fun key a b ha hb => ih key a b ha hb fun h => hm (.obj ha hb h)

theorem alike_of_same {a b : Json} (h : Same a b) : Alike a b := by
  induction h with
  | null => exact .null
  | bool => exact .bool
  | str => exact .str
  | number ha hb heq => exact .number (number?_of_number ha) (number?_of_number hb) heq
  | arr hlen _ ih => exact .arr hlen ih
  | obj hkeys _ ih => exact .obj hkeys ih

/-- **Alike values are the same unless they mix.** -/
theorem same_iff {a b : Json} : Same a b ↔ Alike a b ∧ ¬ Mixes a b :=
  ⟨fun h => ⟨alike_of_same h, not_mixes_of_same h⟩, fun h => same_of_alike h.1 h.2⟩

/-! ### The keywords -/

variable [Runtime]

/-- A value that is accepted passes the checks that do not depend on its kind. -/
theorem commonOk_of_validate {schema : JsonObject} {value : Json} {path : String}
    (h : validate value (.obj schema) path = .ok ()) : CommonOk schema value := by
  have hnode : ∃ byKind, validate value = validateNode value byKind := by
    cases value <;> (unfold validate; exact ⟨_, rfl⟩)
  obtain ⟨byKind, heq⟩ := hnode
  rw [heq, validateNode_obj, both_ok] at h
  exact validateCommon_ok.mp h.1

theorem validate_of_commonOk {schema : JsonObject} {value : Json}
    (hkeys : ∀ key, key ≠ "const" → key ≠ "enum" → schema.lookup key = none)
    (h : CommonOk schema value) : validate value (.obj schema) "$" = .ok () := by
  have hget : ∀ key, key ≠ "const" → key ≠ "enum" → getKey schema key = none := by
    intro key hc he
    unfold getKey
    rw [hkeys key hc he]
  have hlength : ∀ length, LengthOk schema length := by
    intro length
    have hmin : getEither schema "minLength" "minItems" = none := by
      unfold getEither
      rw [hkeys _ (by decide) (by decide), hget _ (by decide) (by decide)]
    have hmax : getEither schema "maxLength" "maxItems" = none := by
      unfold getEither
      rw [hkeys _ (by decide) (by decide), hget _ (by decide) (by decide)]
    exact ⟨fun m hm => by simp [hmin] at hm, fun m hm => by simp [hmax] at hm⟩
  have hnumber : ∀ x, NumberOk schema x := by
    intro x
    have hmin := hget "minimum" (by decide) (by decide)
    have hmax := hget "maximum" (by decide) (by decide)
    exact ⟨fun m hm => by simp [hmin] at hm, fun m hm => by simp [hmax] at hm⟩
  rw [validate_ok_iff isPlace_root]
  cases value with
  | null => exact .null h
  | bool _ => exact .bool h
  | int _ => exact .int h (hnumber _)
  | float _ => exact .float h (hnumber _)
  | str _ =>
    refine .str h ⟨hlength _, fun p hp => ?_⟩
    rw [hget _ (by decide) (by decide)] at hp
    cases hp
  | arr _ =>
    refine .arr h (hlength _) fun itemSchema hi => ?_
    rw [hget _ (by decide) (by decide)] at hi
    cases hi
  | obj payload =>
    have hrequired : required? schema = some [] := by
      unfold required?
      rw [hkeys _ (by decide) (by decide)]
    have hproperties : properties? schema = some [] := by
      unfold properties?
      rw [hkeys _ (by decide) (by decide)]
    refine .obj h ⟨⟨[], hrequired, fun item hi => absurd hi List.not_mem_nil⟩, hproperties, ?_⟩
      fun field hf => absurd hf List.not_mem_nil
    intro hclosed
    rw [hkeys _ (by decide) (by decide)] at hclosed
    cases hclosed

/-- What is accepted for a `const` is the same, unless it is alike and mixes with it. -/
theorem const_iff {v c : Json} (hv : Distinct v) (hc : Distinct c) :
    (∀ schema path, schema.lookup "const" = some c → validate v (.obj schema) path = .ok () →
        Same v c) ↔ ¬ (Alike v c ∧ Mixes v c) := by
  have heq := pyEq_iff v c hv hc
  constructor
  · rintro h ⟨halike, hmixes⟩
    have hok : CommonOk [("const", c)] v := by
      refine ⟨nofun, fun c' hc' => ?_, nofun⟩
      cases hc'
      exact heq.mpr halike
    have hkeys : ∀ key, key ≠ "const" → key ≠ "enum" → List.lookup key [("const", c)] = none := by
      intro key hkey _
      simp [hkey]
    exact not_mixes_of_same (h _ _ rfl (validate_of_commonOk hkeys hok)) hmixes
  · intro h schema path hc' hok
    have halike := heq.mp ((commonOk_of_validate hok).const c hc')
    exact same_of_alike halike fun hmixes => h ⟨halike, hmixes⟩

/-- What is accepted for an `enum` is the same as a member, unless there are members it is alike and
it mixes with all of these. -/
theorem enum_iff {v : Json} {cs : List Json} (hv : Distinct v) (hcs : ∀ c ∈ cs, Distinct c) :
    (∀ schema path, schema.lookup "enum" = some (.arr cs) → validate v (.obj schema) path = .ok () →
        ∃ c ∈ cs, Same v c) ↔ ¬ ((∃ c ∈ cs, Alike v c) ∧ ∀ c ∈ cs, Alike v c → Mixes v c) := by
  have heq : ∀ c ∈ cs, (v.pyEq c = true ↔ Alike v c) := fun c hc => pyEq_iff v c hv (hcs c hc)
  constructor
  · rintro h ⟨⟨c, hc, halike⟩, hmixes⟩
    have hok : CommonOk [("enum", .arr cs)] v := by
      refine ⟨nofun, nofun, fun e he => ?_⟩
      cases he
      exact ⟨cs, rfl, List.any_eq_true.mpr ⟨c, hc, (heq c hc).mpr halike⟩⟩
    have hkeys : ∀ key, key ≠ "const" → key ≠ "enum" →
        List.lookup key [("enum", Json.arr cs)] = none := by
      intro key _ hkey
      simp [hkey]
    obtain ⟨c', hc', hsame⟩ := h _ _ rfl (validate_of_commonOk hkeys hok)
    exact not_mixes_of_same hsame (hmixes c' hc' (alike_of_same hsame))
  · intro h schema path he hok
    obtain ⟨options, he', hany⟩ := (commonOk_of_validate hok).enum _ he
    cases he'
    obtain ⟨c, hc, hcv⟩ := List.any_eq_true.mp hany
    have halike := (heq c hc).mp hcv
    by_contra hnone
    refine h ⟨⟨c, hc, halike⟩, fun c' hc' halike' => ?_⟩
    by_contra hmixes
    exact hnone ⟨c', hc', same_of_alike halike' hmixes⟩

/-- **`const` and `enum` compare JSON values up to booleans.** A value that is accepted for a
`const` is the same unless it is alike and mixes with it; one that is accepted for an `enum` is the
same as some member unless there are members it is alike and it mixes with all of these. -/
theorem const_enum_iff {v : Json} (hv : Distinct v) :
    (∀ c, Distinct c →
      ((∀ schema path, schema.lookup "const" = some c → validate v (.obj schema) path = .ok () →
          Same v c) ↔
        ¬ (Alike v c ∧ Mixes v c))) ∧
      ∀ cs, (∀ c ∈ cs, Distinct c) →
        ((∀ schema path, schema.lookup "enum" = some (.arr cs) →
            validate v (.obj schema) path = .ok () → ∃ c ∈ cs, Same v c) ↔
          ¬ ((∃ c ∈ cs, Alike v c) ∧ ∀ c ∈ cs, Alike v c → Mixes v c)) :=
  ⟨fun _ hc => const_iff hv hc, fun _ hcs => enum_iff hv hcs⟩

omit [Runtime] in
/-- A schema that asks for a one accepts `1.0`. -/
theorem const_enum_iff_sample :
    let _ := Runtime.sample
    ∀ schema path, schema.lookup "const" = some (.int 1) →
      validate (.float (.finite 1)) (.obj schema) path = .ok () →
        Same (.float (.finite 1)) (.int 1) := by
  let _ := Runtime.sample
  refine ((const_enum_iff .float).1 (.int 1) .int).mpr ?_
  rintro ⟨-, hmixes⟩
  cases hmixes

omit [Runtime] in
/-- **A schema that asks for a one accepts `true`**, at any depth and in an `enum` as well. -/
theorem accepts_mixed :
    let _ := Runtime.sample
    (validate (.arr [.bool true]) (.obj [("const", .arr [.int 1])]) "$" = .ok () ∧
        ¬ Same (.arr [.bool true]) (.arr [.int 1])) ∧
      validate (.bool true) (.obj [("enum", .arr [.int 0, .int 1])]) "$" = .ok () ∧
        ¬ ∃ c ∈ [Json.int 0, .int 1], Same (.bool true) c := by
  let _ := Runtime.sample
  refine ⟨⟨rfl, fun h => ?_⟩, rfl, ?_⟩
  · exact not_mixes_of_same h (.arr (i := 0) rfl rfl (.left rfl))
  · rintro ⟨c, hc, hsame⟩
    have hmixes : ∀ c ∈ [Json.int 0, .int 1], Mixes (.bool true) c := by
      intro c hc
      rcases List.mem_cons.mp hc with rfl | hc
      · exact .left rfl
      · rw [List.mem_singleton.mp hc]
        exact .left rfl
    exact not_mixes_of_same hsame (hmixes c hc)

end EventServer.Core.SchemaEquality
