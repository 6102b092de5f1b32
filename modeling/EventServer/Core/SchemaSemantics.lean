import EventServer.Core.SchemaValidation

/-! # What a schema says

`validate` answers with the first objection it meets. Declaratively, a schema `Admits` a value, or
the value `Trips` over a part of the schema that is not one: a type that is unknown, properties that
are no dictionary, a pattern that does not compile. `validate_ok_iff` and `validate_faulty_iff` say
that the validator decides both; what is left are the violations of the schema by the value, whose
messages name the place in the value. -/

namespace EventServer.Core.SchemaValidation

open EventServer.Python

/-! ### Messages -/

/-- The messages about a schema that is not one. -/
def malformed : List String :=
  ["payload schema must be an object", "schema type must be a string or list of strings",
    "unsupported schema type", "schema required must be a string list",
    "schema properties must be an object", "schema pattern must be a string up to 256 characters"]

/-- The error is about the schema, not about the value. -/
def SchemaError.isFault : SchemaError → Bool
  | .reError => true
  | .payloadSchemaError message => message ∈ malformed

/-- The validation ends with an error about the schema. -/
def Faulty {α : Type} (r : Except SchemaError α) : Prop := ∃ e, r = .error e ∧ e.isFault = true

/-- A place in the value, as the messages name it. -/
def IsPlace (path : String) : Prop := path.toList.head? = some '$'

theorem isPlace_root : IsPlace "$" := by
  unfold IsPlace
  decide

theorem IsPlace.append {path : String} (h : IsPlace path) (s : String) : IsPlace (path ++ s) := by
  unfold IsPlace at h ⊢
  rw [String.toList_append, List.head?_append, h]
  rfl

@[simp] theorem fail_ne_ok {α : Type} {message : String} {x : α} :
    (fail message : Except SchemaError α) ≠ .ok x := by simp [fail]

@[simp] theorem not_faulty_ok {α : Type} (x : α) : ¬ Faulty (.ok x : Except SchemaError α) := by
  rintro ⟨e, he, -⟩
  cases he

theorem faulty_error {α : Type} {e : SchemaError} :
    Faulty (.error e : Except SchemaError α) ↔ e.isFault = true := by simp [Faulty]

theorem faulty_fail {α : Type} {message : String} :
    Faulty (fail message : Except SchemaError α) ↔ message ∈ malformed := by
  simp [fail, faulty_error, SchemaError.isFault]

theorem not_faulty_of_place {α : Type} {message : String} (h : IsPlace message) :
    ¬ Faulty (fail message : Except SchemaError α) := by
  rw [faulty_fail]
  have hnone : ∀ m ∈ malformed, m.toList.head? ≠ some '$' := by decide
  exact fun hm => hnone message hm h

/-- Two checks in a row. -/
def both (a b : Except SchemaError Unit) : Except SchemaError Unit :=
  match a with
  | .error e => .error e
  | .ok () => b

theorem both_ok {a b : Except SchemaError Unit} : both a b = .ok () ↔ a = .ok () ∧ b = .ok () := by
  cases a <;> simp [both]

theorem both_faulty {a b : Except SchemaError Unit} :
    Faulty (both a b) ↔ Faulty a ∨ a = .ok () ∧ Faulty b := by
  cases a <;> simp [both, Faulty]

theorem guard_ok {b : Bool} {message : String} {r : Except SchemaError Unit} :
    (if b = true then fail message else r) = .ok () ↔ b = false ∧ r = .ok () := by
  cases b <;> simp

theorem guard_faulty {b : Bool} {message : String} {r : Except SchemaError Unit}
    (hp : IsPlace message) :
    Faulty (if b = true then fail message else r) ↔ b = false ∧ Faulty r := by
  cases b <;> simp [not_faulty_of_place hp]

/-! ### Types -/

/-- The names of types. -/
def typeNames : List String :=
  ["object", "array", "string", "number", "integer", "boolean", "null"]

/-- The value is of the type of this name. -/
def hasType (value : Json) (name : String) : Bool :=
  match value with
  | .obj _ => name = "object"
  | .arr _ => name = "array"
  | .str _ => name = "string"
  | .int _ => name = "number" || name = "integer"
  | .float _ => name = "number"
  | .bool _ => name = "boolean"
  | .null => name = "null"

/-- The value is of one of the types, and no name before it is unknown. -/
def TypeFits (value : Json) : List String → Prop
  | [] => False
  | name :: names => name ∈ typeNames ∧ (hasType value name = true ∨ TypeFits value names)

/-- There is an unknown name, and the value is of no type before it. -/
def TypeUnknown (value : Json) : List String → Prop
  | [] => False
  | name :: names => name ∉ typeNames ∨ hasType value name = false ∧ TypeUnknown value names

theorem matchesTypeName_known {value : Json} {name : String} (h : name ∈ typeNames) :
    matchesTypeName value name = .ok (hasType value name) := by
  simp only [typeNames, List.mem_cons, List.not_mem_nil, or_false] at h
  rcases h with rfl | rfl | rfl | rfl | rfl | rfl | rfl <;> cases value <;> rfl

theorem matchesTypeName_unknown {value : Json} {name : String} (h : name ∉ typeNames) :
    matchesTypeName value name = fail "unsupported schema type" := by
  simp only [typeNames, List.mem_cons, List.not_mem_nil, or_false, not_or] at h
  unfold matchesTypeName
  split <;> simp_all

theorem anyType_spec (value : Json) (names : List String) :
    (anyType value names = .ok true ↔ TypeFits value names) ∧
      (Faulty (anyType value names) ↔ TypeUnknown value names) := by
  induction names with
  | nil => simp [anyType, TypeFits, TypeUnknown]
  | cons name names ih =>
    simp only [anyType, TypeFits, TypeUnknown]
    by_cases hn : name ∈ typeNames
    · rw [matchesTypeName_known hn]
      cases ht : hasType value name with
      | true => simp [hn]
      | false => simpa [hn] using ih
    · rw [matchesTypeName_unknown hn]
      have hf : "unsupported schema type" ∈ malformed := by decide
      simpa [hn, fail, faulty_error, SchemaError.isFault] using hf

/-- The entries of a type or of a list of types. -/
def choices : Json → List Json
  | .arr items => items
  | other => [other]

def TypeOk (schemaType value : Json) : Prop :=
  ∃ names, strings? (choices schemaType) = some names ∧ TypeFits value names

/-- The type is no string or list of strings, or has an unknown name that is looked at. -/
def TypeFault (schemaType value : Json) : Prop :=
  ∀ names, strings? (choices schemaType) = some names → TypeUnknown value names

theorem matchesType_eq (schemaType value : Json) :
    matchesType schemaType value = match strings? (choices schemaType) with
      | none => fail "schema type must be a string or list of strings"
      | some names => anyType value names := by
  unfold matchesType choices
  cases schemaType <;> rfl

theorem matchesType_ok {schemaType value : Json} :
    matchesType schemaType value = .ok true ↔ TypeOk schemaType value := by
  rw [matchesType_eq, TypeOk]
  cases strings? (choices schemaType) with
  | none => simp
  | some names => simp [(anyType_spec value names).1]

theorem matchesType_faulty {schemaType value : Json} :
    Faulty (matchesType schemaType value) ↔ TypeFault schemaType value := by
  rw [matchesType_eq, TypeFault]
  cases strings? (choices schemaType) with
  | none => simp [faulty_fail, malformed]
  | some names => simp [(anyType_spec value names).2]

/-! ### Values of any kind -/

/-- The value passes the checks that do not depend on its kind. -/
structure CommonOk (schema : JsonObject) (value : Json) : Prop where
  type : ∀ t, getKey schema "type" = some t → TypeOk t value
  const : ∀ c, schema.lookup "const" = some c → value.pyEq c = true
  enum : ∀ e, schema.lookup "enum" = some e →
    ∃ options, e = .arr options ∧ options.any (fun option => value.pyEq option) = true

/-- The value is checked against a type that is none. -/
def CommonFault (schema : JsonObject) (value : Json) : Prop :=
  ∃ t, getKey schema "type" = some t ∧ TypeFault t value

/-- The checks of `const` and `enum` in `validateCommon`. -/
def listed (schema : JsonObject) (value : Json) (path : String) : Except SchemaError Unit :=
  if (match schema.lookup "const" with
      | some c => !value.pyEq c
      | none => false) then fail (path ++ " must equal the configured const")
  else if (match schema.lookup "enum" with
      | some (.arr options) => !options.any fun option => value.pyEq option
      | some _ => true
      | none => false) then fail (path ++ " is not an allowed value")
  else .ok ()

theorem listed_ok {schema : JsonObject} {value : Json} {path : String} :
    listed schema value path = .ok () ↔
      (∀ c, schema.lookup "const" = some c → value.pyEq c = true) ∧
        ∀ e, schema.lookup "enum" = some e →
          ∃ options, e = .arr options ∧ options.any (fun option => value.pyEq option) = true := by
  unfold listed
  rw [guard_ok, guard_ok]
  refine and_congr ?_ ?_
  · cases schema.lookup "const" <;> simp
  · cases schema.lookup "enum" with
    | none => simp
    | some e => cases e <;> simp

theorem not_faulty_listed {schema : JsonObject} {value : Json} {path : String} (hp : IsPlace path) :
    ¬ Faulty (listed schema value path) := by
  unfold listed
  rw [guard_faulty (hp.append _), guard_faulty (hp.append _)]
  rintro ⟨-, -, hf⟩
  exact not_faulty_ok _ hf

section

variable [Runtime]

/-- The check of the type in `validateCommon`. -/
def typed (schema : JsonObject) (value : Json) (path : String) : Except SchemaError Unit :=
  match getKey schema "type" with
  | none => .ok ()
  | some schemaType =>
    match matchesType schemaType value with
    | .error e => .error e
    | .ok true => .ok ()
    | .ok false => fail (path ++ " must be " ++ schemaType.toStr)

theorem validateCommon_eq (schema : JsonObject) (value : Json) (path : String) :
    validateCommon schema value path =
      both (typed schema value path) (listed schema value path) := rfl

theorem typed_ok {schema : JsonObject} {value : Json} {path : String} :
    typed schema value path = .ok () ↔ ∀ t, getKey schema "type" = some t → TypeOk t value := by
  unfold typed
  cases getKey schema "type" with
  | none => simp
  | some t =>
    simp only [Option.some.injEq, forall_eq', ← matchesType_ok]
    cases matchesType t value with
    | error e => simp
    | ok b => cases b <;> simp

theorem typed_faulty {schema : JsonObject} {value : Json} {path : String} (hp : IsPlace path) :
    Faulty (typed schema value path) ↔ CommonFault schema value := by
  unfold typed CommonFault
  cases getKey schema "type" with
  | none => simp
  | some t =>
    simp only [Option.some.injEq, exists_eq_left', ← matchesType_faulty]
    cases matchesType t value with
    | error e => simp [faulty_error]
    | ok b =>
      cases b with
      | true => simp
      | false => simpa using not_faulty_of_place ((hp.append _).append _)

theorem validateCommon_ok {schema : JsonObject} {value : Json} {path : String} :
    validateCommon schema value path = .ok () ↔ CommonOk schema value := by
  rw [validateCommon_eq, both_ok, typed_ok, listed_ok]
  exact ⟨fun ⟨ht, hc, he⟩ => ⟨ht, hc, he⟩, fun h => ⟨h.type, h.const, h.enum⟩⟩

theorem validateCommon_faulty {schema : JsonObject} {value : Json} {path : String}
    (hp : IsPlace path) : Faulty (validateCommon schema value path) ↔ CommonFault schema value := by
  rw [validateCommon_eq, both_faulty, typed_faulty hp]
  simp [not_faulty_listed hp]

end

/-! ### Lengths, numbers, texts -/

/-- The length is within the configured bounds. -/
structure LengthOk (schema : JsonObject) (length : ℕ) : Prop where
  least : ∀ m, getEither schema "minLength" "minItems" = some m → ∃ n, m.int? = some n ∧ n ≤ length
  most : ∀ m, getEither schema "maxLength" "maxItems" = some m → ∃ n, m.int? = some n ∧ length ≤ n

theorem boundedLength_ok {schema : JsonObject} {length : ℕ} {path : String} :
    boundedLength schema length path = .ok () ↔ LengthOk schema length := by
  have hiff : LengthOk schema length ↔
      (∀ m, getEither schema "minLength" "minItems" = some m → ∃ n, m.int? = some n ∧ n ≤ length) ∧
        ∀ m, getEither schema "maxLength" "maxItems" = some m →
          ∃ n, m.int? = some n ∧ length ≤ n :=
    ⟨fun h => ⟨h.least, h.most⟩, fun h => ⟨h.1, h.2⟩⟩
  unfold boundedLength
  simp only
  rw [guard_ok, guard_ok, hiff]
  refine and_congr ?_ ?_
  · cases getEither schema "minLength" "minItems" with
    | none => simp
    | some m => cases hm : m.int? <;> simp [hm]
  · cases getEither schema "maxLength" "maxItems" with
    | none => simp
    | some m => cases hm : m.int? <;> simp [hm]

theorem not_faulty_boundedLength {schema : JsonObject} {length : ℕ} {path : String}
    (hp : IsPlace path) : ¬ Faulty (boundedLength schema length path) := by
  unfold boundedLength
  simp only
  rw [guard_faulty (hp.append _), guard_faulty (hp.append _)]
  rintro ⟨-, -, hf⟩
  exact not_faulty_ok _ hf

/-- The number is within the configured bounds. -/
structure NumberOk (schema : JsonObject) (value : Number) : Prop where
  least : ∀ m, getKey schema "minimum" = some m → ∃ n, m.number? = some n ∧ value.lt n = false
  most : ∀ m, getKey schema "maximum" = some m → ∃ n, m.number? = some n ∧ n.lt value = false

theorem validateNumber_ok {schema : JsonObject} {value : Number} {path : String} :
    validateNumber schema value path = .ok () ↔ NumberOk schema value := by
  have hiff : NumberOk schema value ↔
      (∀ m, getKey schema "minimum" = some m → ∃ n, m.number? = some n ∧ value.lt n = false) ∧
        ∀ m, getKey schema "maximum" = some m → ∃ n, m.number? = some n ∧ n.lt value = false :=
    ⟨fun h => ⟨h.least, h.most⟩, fun h => ⟨h.1, h.2⟩⟩
  unfold validateNumber
  rw [guard_ok, guard_ok, hiff]
  refine and_congr ?_ ?_
  · cases getKey schema "minimum" with
    | none => simp
    | some m => cases hm : m.number? <;> simp [hm]
  · cases getKey schema "maximum" with
    | none => simp
    | some m => cases hm : m.number? <;> simp [hm]

theorem not_faulty_validateNumber {schema : JsonObject} {value : Number} {path : String}
    (hp : IsPlace path) : ¬ Faulty (validateNumber schema value path) := by
  unfold validateNumber
  rw [guard_faulty (hp.append _), guard_faulty (hp.append _)]
  rintro ⟨-, -, hf⟩
  exact not_faulty_ok _ hf

variable [Runtime]

/-- The pattern is one, and `result` is what the search for it in the text gives. -/
def Searches (pattern : Json) (text : String) (result : Bool) : Prop :=
  ∃ p : String, pattern = .str p ∧ p.length ≤ 256 ∧ Runtime.reSearch p text = some result

/-- The length of the text and the pattern are as configured. -/
structure TextOk (schema : JsonObject) (text : String) : Prop where
  length : LengthOk schema text.length
  pattern : ∀ p, getKey schema "pattern" = some p → Searches p text true

/-- The text is searched for a pattern that is none. -/
def TextFault (schema : JsonObject) (text : String) : Prop :=
  LengthOk schema text.length ∧
    ∃ p, getKey schema "pattern" = some p ∧ ∀ result, ¬ Searches p text result

/-- The check of the pattern in `validateString`. -/
def searched (schema : JsonObject) (value path : String) : Except SchemaError Unit :=
  match getKey schema "pattern" with
  | none => .ok ()
  | some (.str pattern) =>
    if pattern.length > 256 then fail "schema pattern must be a string up to 256 characters"
    else
      match Runtime.reSearch pattern value with
      | none => .error .reError
      | some true => .ok ()
      | some false => fail (path ++ " does not match the configured pattern")
  | some _ => fail "schema pattern must be a string up to 256 characters"

theorem validateString_eq (schema : JsonObject) (value path : String) :
    validateString schema value path =
      both (boundedLength schema value.length path) (searched schema value path) := rfl

theorem searched_spec (schema : JsonObject) (value path : String) (hp : IsPlace path) :
    (searched schema value path = .ok () ↔
        ∀ p, getKey schema "pattern" = some p → Searches p value true) ∧
      (Faulty (searched schema value path) ↔
        ∃ p, getKey schema "pattern" = some p ∧ ∀ result, ¬ Searches p value result) := by
  have hm : "schema pattern must be a string up to 256 characters" ∈ malformed := by decide
  unfold searched Searches
  cases getKey schema "pattern" with
  | none => simp
  | some pattern =>
    cases pattern with
    | str p =>
      by_cases hl : p.length > 256
      · simp [hl, faulty_fail, hm, Nat.not_le.mpr hl]
      · have hl' : p.length ≤ 256 := Nat.not_lt.mp hl
        cases hr : Runtime.reSearch p value with
        | none => simp [hl, hr, faulty_error, SchemaError.isFault]
        | some b =>
          cases b with
          | true => simp [hl, hl', hr]
          | false => simp [hl, hl', hr, not_faulty_of_place (hp.append _)]
    | null | bool _ | int _ | float _ | arr _ | obj _ => simp [faulty_fail, hm]

theorem validateString_ok {schema : JsonObject} {value path : String} (hp : IsPlace path) :
    validateString schema value path = .ok () ↔ TextOk schema value := by
  rw [validateString_eq, both_ok, boundedLength_ok, (searched_spec schema value path hp).1]
  exact ⟨fun h => ⟨h.1, h.2⟩, fun h => ⟨h.length, h.pattern⟩⟩

theorem validateString_faulty {schema : JsonObject} {value path : String} (hp : IsPlace path) :
    Faulty (validateString schema value path) ↔ TextFault schema value := by
  rw [validateString_eq, both_faulty, boundedLength_ok, (searched_spec schema value path hp).2]
  simp [not_faulty_boundedLength hp, TextFault]

/-! ### Dictionaries and lists -/

/-- The names that are required, if the schema has a list of them. -/
def required? (schema : JsonObject) : Option (List String) :=
  match schema.lookup "required" with
  | none => some []
  | some (.arr items) => strings? items
  | some _ => none

/-- The schemas of the fields, if the schema has a dictionary of them. -/
def properties? (schema : JsonObject) : Option JsonObject :=
  match schema.lookup "properties" with
  | none => some []
  | some (.obj fields) => some fields
  | some _ => none

/-- The names of the fields are as the schema requires them. -/
def Complete (schema payload : JsonObject) : Prop :=
  ∃ required, required? schema = some required ∧ ∀ item ∈ required, item ∈ payload.map Prod.fst

/-- The fields of the dictionary are checked against these schemas. -/
structure Entered (schema payload properties : JsonObject) : Prop where
  complete : Complete schema payload
  schemas : properties? schema = some properties
  declared : schema.lookup "additionalProperties" = some (.bool false) →
    ∀ name ∈ payload.map Prod.fst, name ∈ properties.map Prod.fst

/-- The dictionary is held against names or schemas that are none. -/
def ObjectFault (schema payload : JsonObject) : Prop :=
  required? schema = none ∨ Complete schema payload ∧ properties? schema = none

/-- The value meets the schema. -/
inductive Admits : Json → Json → Prop
  | obj {schema payload properties : JsonObject} : CommonOk schema (.obj payload) →
      Entered schema payload properties →
      (∀ field ∈ properties, ∀ value, payload.lookup field.1 = some value → Admits field.2 value) →
      Admits (.obj schema) (.obj payload)
  | arr {schema : JsonObject} {items : List Json} : CommonOk schema (.arr items) →
      LengthOk schema items.length →
      (∀ itemSchema, getKey schema "items" = some itemSchema →
        ∀ value ∈ items, Admits itemSchema value) →
      Admits (.obj schema) (.arr items)
  | str {schema : JsonObject} {text : String} : CommonOk schema (.str text) →
      TextOk schema text → Admits (.obj schema) (.str text)
  | int {schema : JsonObject} {n : ℤ} : CommonOk schema (.int n) →
      NumberOk schema (.finite n) → Admits (.obj schema) (.int n)
  | float {schema : JsonObject} {x : Number} : CommonOk schema (.float x) →
      NumberOk schema x → Admits (.obj schema) (.float x)
  | bool {schema : JsonObject} {b : Bool} : CommonOk schema (.bool b) →
      Admits (.obj schema) (.bool b)
  | null {schema : JsonObject} : CommonOk schema .null → Admits (.obj schema) .null

/-- The value comes upon a part of the schema that is not one, all before it being admitted. -/
inductive Trips : Json → Json → Prop
  | schema {schema value : Json} : (∀ fields, schema ≠ .obj fields) → Trips schema value
  | common {schema : JsonObject} {value : Json} : CommonFault schema value →
      Trips (.obj schema) value
  | object {schema payload : JsonObject} : CommonOk schema (.obj payload) →
      ObjectFault schema payload → Trips (.obj schema) (.obj payload)
  | field {schema payload before after : JsonObject} {name : String} {child value : Json} :
      CommonOk schema (.obj payload) → Entered schema payload (before ++ (name, child) :: after) →
      (∀ field ∈ before, ∀ value, payload.lookup field.1 = some value → Admits field.2 value) →
      payload.lookup name = some value → Trips child value → Trips (.obj schema) (.obj payload)
  | item {schema : JsonObject} {before after : List Json} {itemSchema value : Json} :
      CommonOk schema (.arr (before ++ value :: after)) →
      LengthOk schema (before ++ value :: after).length →
      getKey schema "items" = some itemSchema → (∀ value ∈ before, Admits itemSchema value) →
      Trips itemSchema value → Trips (.obj schema) (.arr (before ++ value :: after))
  | text {schema : JsonObject} {text : String} : CommonOk schema (.str text) →
      TextFault schema text → Trips (.obj schema) (.str text)

/-- The check decides the value at every place. -/
def Decides (check : Check) (value : Json) : Prop :=
  ∀ schema path, IsPlace path →
    (check schema path = .ok () ↔ Admits schema value) ∧
      (Faulty (check schema path) ↔ Trips schema value)

theorem fieldChecks_eq (payload : JsonObject) :
    fieldChecks payload = payload.map fun field => (field.1, validate field.2) := by
  induction payload with
  | nil => rfl
  | cons field payload ih => simp [fieldChecks, ih]

theorem itemChecks_eq (items : List Json) : itemChecks items = items.map validate := by
  induction items with
  | nil => rfl
  | cons item items ih => simp [itemChecks, ih]

theorem lookup_fieldChecks (payload : JsonObject) (name : String) :
    (fieldChecks payload).lookup name = (payload.lookup name).map validate := by
  induction payload with
  | nil => rfl
  | cons field payload ih =>
    obtain ⟨key, value⟩ := field
    simp only [fieldChecks, List.lookup_cons]
    split <;> simp [ih]

theorem keys_fieldChecks (payload : JsonObject) :
    (fieldChecks payload).map Prod.fst = payload.map Prod.fst := by
  simp [fieldChecks_eq]

/-- Some entry has the property `T`, and the entries before it have `A`. -/
def FirstOf {α : Type} (A T : α → Prop) (l : List α) : Prop :=
  ∃ before a after, l = before ++ a :: after ∧ (∀ b ∈ before, A b) ∧ T a

omit [Runtime] in
theorem firstOf_nil {α : Type} {A T : α → Prop} : ¬ FirstOf A T [] := by
  rintro ⟨before, a, after, h, -⟩
  simp at h

omit [Runtime] in
theorem firstOf_cons {α : Type} {A T : α → Prop} {a : α} {l : List α} :
    FirstOf A T (a :: l) ↔ T a ∨ A a ∧ FirstOf A T l := by
  constructor
  · rintro ⟨before, b, after, h, hA, hT⟩
    cases before with
    | nil =>
      cases h
      exact Or.inl hT
    | cons c before =>
      cases h
      exact Or.inr ⟨hA a (by simp), before, b, after, rfl, fun x hx => hA x (by simp [hx]), hT⟩
  · rintro (hT | ⟨ha, before, b, after, rfl, hA, hT⟩)
    · exact ⟨[], a, l, rfl, by simp, hT⟩
    · refine ⟨a :: before, b, after, rfl, fun x hx => ?_, hT⟩
      rcases List.mem_cons.mp hx with rfl | hx
      · exact ha
      · exact hA x hx

/-- The field, if it is there, meets its schema. -/
def FieldAdmits (payload : JsonObject) (field : String × Json) : Prop :=
  ∀ value, payload.lookup field.1 = some value → Admits field.2 value

/-- The field is there and trips over its schema. -/
def FieldTrips (payload : JsonObject) (field : String × Json) : Prop :=
  ∃ value, payload.lookup field.1 = some value ∧ Trips field.2 value

/-- The check of one field in `validateProperties`. -/
def fieldCheck (children : List (String × Check)) (path : String) (field : String × Json) :
    Except SchemaError Unit :=
  match children.lookup field.1 with
  | some check => check field.2 (path ++ "." ++ field.1)
  | none => .ok ()

omit [Runtime] in
theorem validateProperties_cons (children : List (String × Check)) (path : String)
    (field : String × Json) (properties : JsonObject) :
    validateProperties children path (field :: properties) =
      both (fieldCheck children path field) (validateProperties children path properties) := rfl

omit [Runtime] in
theorem validateItems_cons (itemSchema : Json) (path : String) (index : ℕ) (check : Check)
    (checks : List Check) :
    validateItems itemSchema path index (check :: checks) =
      both (check itemSchema (path ++ "[" ++ toString index ++ "]"))
        (validateItems itemSchema path (index + 1) checks) := rfl

theorem validateProperties_spec {payload : JsonObject} {path : String} (hp : IsPlace path)
    (hd : ∀ name value, payload.lookup name = some value → Decides (validate value) value)
    (properties : JsonObject) :
    (validateProperties (fieldChecks payload) path properties = .ok () ↔
        ∀ field ∈ properties, FieldAdmits payload field) ∧
      (Faulty (validateProperties (fieldChecks payload) path properties) ↔
        FirstOf (FieldAdmits payload) (FieldTrips payload) properties) := by
  induction properties with
  | nil => simp [validateProperties, firstOf_nil]
  | cons field properties ih =>
    obtain ⟨ihok, ihf⟩ := ih
    rw [validateProperties_cons, both_ok, both_faulty, ihok, ihf, fieldCheck, lookup_fieldChecks,
      firstOf_cons, List.forall_mem_cons]
    cases hl : payload.lookup field.1 with
    | none => simp [FieldAdmits, FieldTrips, hl]
    | some value =>
      obtain ⟨hok, hf⟩ := hd field.1 value hl field.2 (path ++ "." ++ field.1)
        ((hp.append _).append _)
      simp [FieldAdmits, FieldTrips, hl, hok, hf]

theorem validateItems_spec {path : String} (hp : IsPlace path) (itemSchema : Json)
    {items : List Json} (hd : ∀ value ∈ items, Decides (validate value) value) (index : ℕ) :
    (validateItems itemSchema path index (itemChecks items) = .ok () ↔
        ∀ value ∈ items, Admits itemSchema value) ∧
      (Faulty (validateItems itemSchema path index (itemChecks items)) ↔
        FirstOf (Admits itemSchema) (Trips itemSchema) items) := by
  induction items generalizing index with
  | nil => simp [itemChecks, validateItems, firstOf_nil]
  | cons value items ih =>
    obtain ⟨ihok, ihf⟩ := ih (fun v hv => hd v (List.mem_cons_of_mem _ hv)) (index + 1)
    obtain ⟨hok, hf⟩ := hd value (by simp) itemSchema (path ++ "[" ++ toString index ++ "]")
      (((hp.append _).append _).append _)
    rw [itemChecks, validateItems_cons, both_ok, both_faulty, ihok, ihf, hok, hf, firstOf_cons,
      List.forall_mem_cons]
    exact ⟨Iff.rfl, Iff.rfl⟩

/-- The part of `validateObject` after the required fields are known to be there. -/
def declaredFields (schema : JsonObject) (children : List (String × Check)) (path : String) :
    Except SchemaError Unit :=
  match properties? schema with
  | none => fail "schema properties must be an object"
  | some properties =>
    let unknown := (children.map Prod.fst).filter fun name => name ∉ properties.map Prod.fst
    if (match schema.lookup "additionalProperties" with
        | some (.bool false) => true
        | _ => false) && !unknown.isEmpty then
      fail (path ++ " has undeclared fields: " ++ joinStr ", " (sortedStr unknown))
    else validateProperties children path properties

omit [Runtime] in
theorem validateObject_eq (schema : JsonObject) (children : List (String × Check)) (path : String) :
    validateObject schema children path = match required? schema with
      | none => fail "schema required must be a string list"
      | some required =>
        let missing := required.filter fun item => item ∉ children.map Prod.fst
        if missing ≠ [] then
          fail (path ++ " is missing required fields: " ++ joinStr ", " missing)
        else declaredFields schema children path := rfl

omit [Runtime] in
theorem isClosed_eq_true {schema : JsonObject} :
    (match schema.lookup "additionalProperties" with
      | some (.bool false) => true
      | _ => false) = true ↔ schema.lookup "additionalProperties" = some (.bool false) := by
  split <;> simp_all

theorem declaredFields_spec {schema payload : JsonObject} {path : String} (hp : IsPlace path)
    (hd : ∀ name value, payload.lookup name = some value → Decides (validate value) value) :
    (declaredFields schema (fieldChecks payload) path = .ok () ↔
        ∃ properties, properties? schema = some properties ∧
          (schema.lookup "additionalProperties" = some (.bool false) →
            ∀ name ∈ payload.map Prod.fst, name ∈ properties.map Prod.fst) ∧
          ∀ field ∈ properties, FieldAdmits payload field) ∧
      (Faulty (declaredFields schema (fieldChecks payload) path) ↔
        properties? schema = none ∨
          ∃ properties, properties? schema = some properties ∧
            (schema.lookup "additionalProperties" = some (.bool false) →
              ∀ name ∈ payload.map Prod.fst, name ∈ properties.map Prod.fst) ∧
            FirstOf (FieldAdmits payload) (FieldTrips payload) properties) := by
  unfold declaredFields
  cases properties? schema with
  | none => simp [faulty_fail, malformed]
  | some properties =>
    obtain ⟨hok, hf⟩ := validateProperties_spec hp hd properties
    simp only
    rw [guard_ok, guard_faulty ((hp.append _).append _), hok, hf, keys_fieldChecks]
    have hiff : ((match schema.lookup "additionalProperties" with
          | some (.bool false) => true
          | _ => false) &&
        !((payload.map Prod.fst).filter fun name => name ∉ properties.map Prod.fst).isEmpty) =
          false ↔
        (schema.lookup "additionalProperties" = some (.bool false) →
          ∀ name ∈ payload.map Prod.fst, name ∈ properties.map Prod.fst) := by
      rw [Bool.and_eq_false_iff, ← Bool.not_eq_true, isClosed_eq_true, Bool.not_eq_false',
        List.isEmpty_iff, List.filter_eq_nil_iff]
      simp only [decide_not, Bool.not_eq_eq_eq_not, Bool.not_true, decide_eq_false_iff_not, not_not,
        imp_iff_not_or]
    rw [hiff]
    simp

theorem validateObject_spec {schema payload : JsonObject} {path : String} (hp : IsPlace path)
    (hd : ∀ name value, payload.lookup name = some value → Decides (validate value) value) :
    (validateObject schema (fieldChecks payload) path = .ok () ↔
        ∃ properties, Entered schema payload properties ∧
          ∀ field ∈ properties, FieldAdmits payload field) ∧
      (Faulty (validateObject schema (fieldChecks payload) path) ↔
        ObjectFault schema payload ∨
          ∃ properties, Entered schema payload properties ∧
            FirstOf (FieldAdmits payload) (FieldTrips payload) properties) := by
  obtain ⟨hok, hf⟩ := @declaredFields_spec _ schema payload path hp hd
  have hentered : ∀ properties, Entered schema payload properties ↔ Complete schema payload ∧
      properties? schema = some properties ∧
        (schema.lookup "additionalProperties" = some (.bool false) →
          ∀ name ∈ payload.map Prod.fst, name ∈ properties.map Prod.fst) :=
    fun properties => ⟨fun h => ⟨h.complete, h.schemas, h.declared⟩, fun h => ⟨h.1, h.2.1, h.2.2⟩⟩
  rw [validateObject_eq, keys_fieldChecks]
  simp only [ObjectFault, hentered]
  cases hr : required? schema with
  | none =>
    have hc : ¬ Complete schema payload := by
      rintro ⟨required, h, -⟩
      cases hr.symm.trans h
    simp [hc, faulty_fail, malformed]
  | some required =>
    by_cases hmissing : required.filter (fun item => item ∉ payload.map Prod.fst) = []
    · have hc : Complete schema payload := by
        rw [List.filter_eq_nil_iff] at hmissing
        exact ⟨required, hr, fun item hi => by simpa using hmissing item hi⟩
      simp only [hmissing, ne_eq, not_true_eq_false, if_false, hok, hf]
      simp only [hc, true_and, reduceCtorEq, false_or]
      exact ⟨by simp only [and_assoc], by simp only [and_assoc]⟩
    · have hc : ¬ Complete schema payload := by
        rintro ⟨required', h, hall⟩
        cases hr.symm.trans h
        exact hmissing (List.filter_eq_nil_iff.mpr fun item hi => by simpa using hall item hi)
      simp only [ne_eq, hmissing, not_false_eq_true, if_true]
      simp [hc, not_faulty_of_place ((hp.append _).append _)]

/-- The check of the items in `validateArray`. -/
def itemsCheck (schema : JsonObject) (items : List Check) (path : String) :
    Except SchemaError Unit :=
  match getKey schema "items" with
  | none => .ok ()
  | some itemSchema => validateItems itemSchema path 0 items

omit [Runtime] in
theorem validateArray_eq (schema : JsonObject) (items : List Check) (path : String) :
    validateArray schema items path =
      both (boundedLength schema items.length path) (itemsCheck schema items path) := rfl

theorem validateArray_spec {schema : JsonObject} {items : List Json} {path : String}
    (hp : IsPlace path) (hd : ∀ value ∈ items, Decides (validate value) value) :
    (validateArray schema (itemChecks items) path = .ok () ↔
        LengthOk schema items.length ∧ ∀ itemSchema, getKey schema "items" = some itemSchema →
          ∀ value ∈ items, Admits itemSchema value) ∧
      (Faulty (validateArray schema (itemChecks items) path) ↔
        LengthOk schema items.length ∧ ∃ itemSchema, getKey schema "items" = some itemSchema ∧
          FirstOf (Admits itemSchema) (Trips itemSchema) items) := by
  have hlen : (itemChecks items).length = items.length := by simp [itemChecks_eq]
  rw [validateArray_eq, both_ok, both_faulty, boundedLength_ok, hlen, itemsCheck]
  simp only [not_faulty_boundedLength hp, false_or]
  cases getKey schema "items" with
  | none => simp
  | some itemSchema =>
    obtain ⟨hok, hf⟩ := validateItems_spec hp itemSchema hd 0
    simp [hok, hf]

/-! ### The validator -/

theorem validateNode_obj (value : Json) (byKind : JsonObject → String → Except SchemaError Unit)
    (schema : JsonObject) (path : String) :
    validateNode value byKind (.obj schema) path =
      both (validateCommon schema value path) (byKind schema path) := rfl

theorem validateNode_other {value schema : Json}
    {byKind : JsonObject → String → Except SchemaError Unit} (h : ∀ fields, schema ≠ .obj fields)
    (path : String) :
    validateNode value byKind schema path = fail "payload schema must be an object" := by
  cases schema with
  | obj fields => exact absurd rfl (h fields)
  | _ => rfl

/-- A value is decided if its part of the schema is, `admitted` and `tripped` being what the part
says. -/
theorem decides_validateNode {value : Json}
    {byKind : JsonObject → String → Except SchemaError Unit} {admitted tripped : JsonObject → Prop}
    (hok : ∀ schema path, IsPlace path → (byKind schema path = .ok () ↔ admitted schema))
    (hf : ∀ schema path, IsPlace path → (Faulty (byKind schema path) ↔ tripped schema))
    (hadmits : ∀ schema, Admits (.obj schema) value ↔ CommonOk schema value ∧ admitted schema)
    (htrips : ∀ schema, Trips (.obj schema) value ↔
      CommonFault schema value ∨ CommonOk schema value ∧ tripped schema) :
    Decides (validateNode value byKind) value := by
  intro schema path hp
  by_cases hs : ∀ fields, schema ≠ .obj fields
  · rw [validateNode_other hs]
    refine ⟨iff_of_false fail_ne_ok ?_, iff_of_true ?_ (.schema hs)⟩
    · intro h
      cases h <;> exact hs _ rfl
    · rw [faulty_fail]
      decide
  · obtain ⟨fields, rfl⟩ := not_forall_not.mp hs
    rw [validateNode_obj, both_ok, both_faulty, validateCommon_ok, validateCommon_faulty hp,
      hok _ _ hp, hf _ _ hp, hadmits, htrips]
    exact ⟨Iff.rfl, Iff.rfl⟩

theorem admits_obj {schema payload : JsonObject} :
    Admits (.obj schema) (.obj payload) ↔ CommonOk schema (.obj payload) ∧
      ∃ properties, Entered schema payload properties ∧
        ∀ field ∈ properties, FieldAdmits payload field := by
  constructor
  · rintro (⟨hc, he, hf⟩)
    exact ⟨hc, _, he, hf⟩
  · rintro ⟨hc, _, he, hf⟩
    exact .obj hc he hf

theorem trips_obj {schema payload : JsonObject} :
    Trips (.obj schema) (.obj payload) ↔ CommonFault schema (.obj payload) ∨
      CommonOk schema (.obj payload) ∧ (ObjectFault schema payload ∨
        ∃ properties, Entered schema payload properties ∧
          FirstOf (FieldAdmits payload) (FieldTrips payload) properties) := by
  constructor
  · intro h
    cases h with
    | schema hs => exact absurd rfl (hs _)
    | common hc => exact .inl hc
    | object hc ho => exact .inr ⟨hc, .inl ho⟩
    | field hc he hb hv ht => exact .inr ⟨hc, .inr ⟨_, he, _, _, _, rfl, hb, _, hv, ht⟩⟩
  · rintro (hc | ⟨hc, ho | ⟨properties, he, before, ⟨name, child⟩, after, rfl, hb, value, hv, ht⟩⟩)
    · exact .common hc
    · exact .object hc ho
    · exact .field hc he hb hv ht

theorem admits_arr {schema : JsonObject} {items : List Json} :
    Admits (.obj schema) (.arr items) ↔ CommonOk schema (.arr items) ∧
      LengthOk schema items.length ∧ ∀ itemSchema, getKey schema "items" = some itemSchema →
        ∀ value ∈ items, Admits itemSchema value := by
  constructor
  · rintro (_ | ⟨hc, hl, hi⟩)
    exact ⟨hc, hl, hi⟩
  · rintro ⟨hc, hl, hi⟩
    exact .arr hc hl hi

theorem trips_arr {schema : JsonObject} {items : List Json} :
    Trips (.obj schema) (.arr items) ↔ CommonFault schema (.arr items) ∨
      CommonOk schema (.arr items) ∧ LengthOk schema items.length ∧
        ∃ itemSchema, getKey schema "items" = some itemSchema ∧
          FirstOf (Admits itemSchema) (Trips itemSchema) items := by
  constructor
  · intro h
    cases h with
    | schema hs => exact absurd rfl (hs _)
    | common hc => exact .inl hc
    | item hc hl hg hb ht => exact .inr ⟨hc, hl, _, hg, _, _, _, rfl, hb, ht⟩
  · rintro (hc | ⟨hc, hl, itemSchema, hg, before, value, after, rfl, hb, ht⟩)
    · exact .common hc
    · exact .item hc hl hg hb ht

theorem admits_str {schema : JsonObject} {text : String} :
    Admits (.obj schema) (.str text) ↔ CommonOk schema (.str text) ∧ TextOk schema text := by
  constructor
  · rintro (_ | _ | ⟨hc, ht⟩)
    exact ⟨hc, ht⟩
  · rintro ⟨hc, ht⟩
    exact .str hc ht

theorem trips_str {schema : JsonObject} {text : String} :
    Trips (.obj schema) (.str text) ↔ CommonFault schema (.str text) ∨
      CommonOk schema (.str text) ∧ TextFault schema text := by
  constructor
  · intro h
    cases h with
    | schema hs => exact absurd rfl (hs _)
    | common hc => exact .inl hc
    | text hc ht => exact .inr ⟨hc, ht⟩
  · rintro (hc | ⟨hc, ht⟩)
    · exact .common hc
    · exact .text hc ht

/-- A value that is no dictionary, list or text trips over its type only. -/
theorem trips_plain {schema : JsonObject} {value : Json} (hobj : ∀ payload, value ≠ .obj payload)
    (harr : ∀ items, value ≠ .arr items) (hstr : ∀ text, value ≠ .str text) :
    Trips (.obj schema) value ↔ CommonFault schema value ∨ CommonOk schema value ∧ False := by
  constructor
  · intro h
    cases h with
    | schema hs => exact absurd rfl (hs _)
    | common hc => exact .inl hc
    | object => exact absurd rfl (hobj _)
    | field => exact absurd rfl (hobj _)
    | item => exact absurd rfl (harr _)
    | text => exact absurd rfl (hstr _)
  · rintro (hc | ⟨-, h⟩)
    · exact .common hc
    · exact h.elim

/-- A value that is no dictionary, list or text is decided if what the part of the schema says
is. -/
theorem decides_plain {value : Json} {byKind : JsonObject → String → Except SchemaError Unit}
    {admitted : JsonObject → Prop} (hobj : ∀ payload, value ≠ .obj payload)
    (harr : ∀ items, value ≠ .arr items) (hstr : ∀ text, value ≠ .str text)
    (hok : ∀ schema path, IsPlace path → (byKind schema path = .ok () ↔ admitted schema))
    (hf : ∀ schema path, IsPlace path → ¬ Faulty (byKind schema path))
    (hadmits : ∀ schema, Admits (.obj schema) value ↔ CommonOk schema value ∧ admitted schema) :
    Decides (validateNode value byKind) value :=
  decides_validateNode hok (fun schema path hp => iff_of_false (hf schema path hp) id) hadmits
    fun _ => trips_plain hobj harr hstr

omit [Runtime] in
theorem sizeOf_lt_of_lookup {payload : JsonObject} {name : String} {value : Json}
    (h : payload.lookup name = some value) : sizeOf value < 1 + sizeOf payload := by
  obtain ⟨before, after, rfl, -⟩ := List.lookup_eq_some_iff.mp h
  have hmem : (name, value) ∈ before ++ (name, value) :: after := by simp
  have hlt := List.sizeOf_lt_of_mem hmem
  simp only [Prod.mk.sizeOf_spec] at hlt
  omega

theorem decides_validate : (value : Json) → Decides (validate value) value
  | .obj payload =>
    have hd : ∀ name value, payload.lookup name = some value → Decides (validate value) value :=
      fun _ value hv => have := sizeOf_lt_of_lookup hv; decides_validate value
    decides_validateNode (fun _ _ hp => (validateObject_spec hp hd).1)
      (fun _ _ hp => (validateObject_spec hp hd).2) (fun _ => admits_obj) fun _ => trips_obj
  | .arr items =>
    have hd : ∀ value ∈ items, Decides (validate value) value := fun value _ =>
      decides_validate value
    decides_validateNode (fun _ _ hp => (validateArray_spec hp hd).1)
      (fun _ _ hp => (validateArray_spec hp hd).2) (fun _ => admits_arr) fun _ => trips_arr
  | .str _ =>
    decides_validateNode (fun _ _ hp => validateString_ok hp)
      (fun _ _ hp => validateString_faulty hp) (fun _ => admits_str) fun _ => trips_str
  | .int _ =>
    decides_plain (by simp) (by simp) (by simp) (fun _ _ _ => validateNumber_ok)
      (fun _ _ hp => not_faulty_validateNumber hp)
      fun _ => ⟨fun | .int hc hn => ⟨hc, hn⟩, fun h => .int h.1 h.2⟩
  | .float _ =>
    decides_plain (by simp) (by simp) (by simp) (fun _ _ _ => validateNumber_ok)
      (fun _ _ hp => not_faulty_validateNumber hp)
      fun _ => ⟨fun | .float hc hn => ⟨hc, hn⟩, fun h => .float h.1 h.2⟩
  | .bool _ =>
    decides_plain (by simp) (by simp) (by simp) (fun _ _ _ => (iff_true_intro rfl : _ ↔ True))
      (fun _ _ _ => not_faulty_ok _)
      fun _ => ⟨fun | .bool hc => ⟨hc, trivial⟩, fun h => .bool h.1⟩
  | .null =>
    decides_plain (by simp) (by simp) (by simp) (fun _ _ _ => (iff_true_intro rfl : _ ↔ True))
      (fun _ _ _ => not_faulty_ok _)
      fun _ => ⟨fun | .null hc => ⟨hc, trivial⟩, fun h => .null h.1⟩
termination_by value => sizeOf value

theorem validate_ok_iff {value schema : Json} {path : String} (hp : IsPlace path) :
    validate value schema path = .ok () ↔ Admits schema value :=
  (decides_validate value schema path hp).1

/-- The validator finds fault with the schema for the values that trip over it. -/
theorem validate_faulty_iff {value schema : Json} {path : String} (hp : IsPlace path) :
    Faulty (validate value schema path) ↔ Trips schema value :=
  (decides_validate value schema path hp).2

end EventServer.Core.SchemaValidation
