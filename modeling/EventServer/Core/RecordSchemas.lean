import EventServer.Core.SchemaSemantics

/-! # Schemas of records

The payload schemas that the publishers ship are all of one shape: a dictionary that has certain
fields and no others, each of them a text of some length, a text from a list or an integer within
bounds. A payload with these fields is accepted exactly if each field is
(`validatePayload_recordSchema`). -/

namespace EventServer.Core.SchemaValidation

open EventServer.Python

/-- The schema of a dictionary with exactly these fields. -/
def recordSchema (properties : JsonObject) : JsonObject :=
  [("type", .str "object"), ("required", .arr (properties.map fun field => .str field.1)),
    ("properties", .obj properties), ("additionalProperties", .bool false)]

/-- The schema of a text whose length is within bounds. -/
def stringSchema (minLength maxLength : ℕ) : Json :=
  .obj [("type", .str "string"), ("minLength", .int minLength), ("maxLength", .int maxLength)]

/-- The schema of a text from a list. -/
def enumSchema (options : List String) : Json :=
  .obj [("type", .str "string"), ("enum", .arr (options.map .str))]

/-- The schema of an integer within bounds. -/
def integerSchema (minimum maximum : ℤ) : Json :=
  .obj [("type", .str "integer"), ("minimum", .int minimum), ("maximum", .int maximum)]

theorem strings?_map_str (names : List String) : strings? (names.map .str) = some names := by
  induction names with
  | nil => rfl
  | cons name names ih => simp [strings?, ih]

theorem lookup_const_type {value : Json} (rest : JsonObject) :
    (("type", value) :: rest).lookup "const" = rest.lookup "const" := rfl

theorem lookup_enum_type {value : Json} (rest : JsonObject) :
    (("type", value) :: rest).lookup "enum" = rest.lookup "enum" := rfl

theorem commonOk_type {name : String} {value : Json} {rest : JsonObject} (hn : name ∈ typeNames)
    (ht : hasType value name = true) (hc : rest.lookup "const" = none)
    (he : rest.lookup "enum" = none) : CommonOk (("type", .str name) :: rest) value where
  type t h := by
    cases h
    exact ⟨[name], rfl, hn, Or.inl ht⟩
  const c h := by
    rw [lookup_const_type, hc] at h
    cases h
  enum e h := by
    rw [lookup_enum_type, he] at h
    cases h

variable [Runtime]

theorem admits_stringSchema {minLength maxLength : ℕ} {text : String} :
    Admits (stringSchema minLength maxLength) (.str text) ↔
      minLength ≤ text.length ∧ text.length ≤ maxLength := by
  unfold stringSchema
  rw [admits_str]
  constructor
  · rintro ⟨-, ht⟩
    obtain ⟨_, hn, hle⟩ := ht.length.least (.int minLength) rfl
    obtain ⟨_, hm, hge⟩ := ht.length.most (.int maxLength) rfl
    cases hn
    cases hm
    exact ⟨Int.ofNat_le.mp hle, Int.ofNat_le.mp hge⟩
  · rintro ⟨hle, hge⟩
    refine ⟨commonOk_type (by decide) rfl rfl rfl, ⟨?_, ?_⟩, ?_⟩
    · intro m h
      cases h
      exact ⟨_, rfl, Int.ofNat_le.mpr hle⟩
    · intro m h
      cases h
      exact ⟨_, rfl, Int.ofNat_le.mpr hge⟩
    · intro p h
      cases h

theorem admits_integerSchema {minimum maximum n : ℤ} :
    Admits (integerSchema minimum maximum) (.int n) ↔ minimum ≤ n ∧ n ≤ maximum := by
  have hlt : ∀ a b : ℤ, (Number.finite a).lt (Number.finite b) = false ↔ b ≤ a := by
    intro a b
    unfold Number.lt
    rw [decide_eq_false_iff_not, Rat.intCast_lt_intCast, not_lt]
  unfold integerSchema
  constructor
  · rintro (_ | _ | _ | ⟨-, hn⟩)
    obtain ⟨_, hmin, hle⟩ := hn.least (.int minimum) rfl
    obtain ⟨_, hmax, hge⟩ := hn.most (.int maximum) rfl
    cases hmin
    cases hmax
    exact ⟨(hlt _ _).mp hle, (hlt _ _).mp hge⟩
  · rintro ⟨hle, hge⟩
    refine .int (commonOk_type (by decide) rfl rfl rfl) ⟨?_, ?_⟩
    · intro m h
      cases h
      exact ⟨_, rfl, (hlt _ _).mpr hle⟩
    · intro m h
      cases h
      exact ⟨_, rfl, (hlt _ _).mpr hge⟩

theorem admits_enumSchema {options : List String} {text : String} :
    Admits (enumSchema options) (.str text) ↔ text ∈ options := by
  have hany : (options.map Json.str).any (fun option => (Json.str text).pyEq option) = true ↔
      text ∈ options := by
    rw [List.any_map, List.any_eq_true]
    constructor
    · rintro ⟨option, hmem, heq⟩
      have htext : text = option := by simpa [Json.pyEq] using heq
      rw [htext]
      exact hmem
    · intro hmem
      exact ⟨text, hmem, by simp [Json.pyEq]⟩
  unfold enumSchema
  rw [admits_str]
  constructor
  · rintro ⟨hc, -⟩
    obtain ⟨_, he, hone⟩ := hc.enum _ rfl
    cases he
    exact hany.mp hone
  · intro hmem
    refine ⟨⟨?_, ?_, ?_⟩, ⟨?_, ?_⟩, ?_⟩
    · intro t h
      cases h
      exact ⟨["string"], rfl, by decide, Or.inl rfl⟩
    · intro c h
      cases h
    · intro e h
      cases h
      exact ⟨_, rfl, hany.mpr hmem⟩
    · intro m h
      cases h
    · intro m h
      cases h
    · intro p h
      cases h

theorem fieldAdmits_of_lookup {payload : JsonObject} {name : String} {value : Json}
    (schema : Json) (h : payload.lookup name = some value) :
    FieldAdmits payload (name, schema) ↔ Admits schema value := by
  unfold FieldAdmits
  simp [h]

/-- A dictionary with the fields of the record is admitted if its fields are. -/
theorem admits_recordSchema {properties payload : JsonObject}
    (hkeys : payload.map Prod.fst = properties.map Prod.fst) :
    Admits (.obj (recordSchema properties)) (.obj payload) ↔
      ∀ field ∈ properties, FieldAdmits payload field := by
  have hrequired : required? (recordSchema properties) = some (properties.map Prod.fst) := by
    have hmap : (properties.map fun field => Json.str field.1) =
        (properties.map Prod.fst).map .str := by
      rw [List.map_map]
      rfl
    show strings? (properties.map fun field => .str field.1) = _
    rw [hmap, strings?_map_str]
  rw [admits_obj]
  constructor
  · rintro ⟨-, _, hentered, hall⟩
    have hsame := hentered.schemas
    cases hsame
    exact hall
  · intro hall
    refine ⟨commonOk_type (by decide) rfl rfl rfl, properties, ⟨⟨_, hrequired, ?_⟩, rfl, ?_⟩, hall⟩
    · rw [hkeys]
      exact fun _ h => h
    · rw [hkeys]
      exact fun _ _ h => h

/-- **A payload with the fields of the record is accepted if its fields are.** -/
theorem validatePayload_recordSchema {properties payload : JsonObject}
    (hkeys : payload.map Prod.fst = properties.map Prod.fst) :
    validatePayload (recordSchema properties) payload = .ok () ↔
      ∀ field ∈ properties, FieldAdmits payload field := by
  have hne : (recordSchema properties).isEmpty = false := rfl
  unfold validatePayload
  rw [hne, if_neg Bool.false_ne_true, validate_ok_iff isPlace_root, admits_recordSchema hkeys]

end EventServer.Core.SchemaValidation
