import EventServer.Core.SchemaSemantics

/-! # The bounds on lengths

Strings and lists share `_bounded_length`, which falls back from `minLength` and `maxLength` to
`minItems` and `maxItems`. So a string can be held against the keywords of lists, and a list is, if
those of strings are there. `lengths_iff` says for which nodes and values that changes what is
accepted. -/

namespace EventServer.Core.SchemaLengths

open EventServer.Core.SchemaValidation EventServer.Python

/-! ### Keywords -/

/-- The schema without the keywords of the list. -/
def without (keys : List String) (schema : JsonObject) : JsonObject :=
  schema.filter fun field => field.1 ∉ keys

theorem lookup_without (keys : List String) (schema : JsonObject) (key : String) :
    (without keys schema).lookup key = if key ∈ keys then none else schema.lookup key := by
  induction schema with
  | nil => simp [without]
  | cons field schema ih =>
    obtain ⟨name, value⟩ := field
    unfold without at ih ⊢
    rw [List.filter_cons, List.lookup_cons]
    by_cases hname : name ∈ keys
    · rw [if_neg (by simpa using hname), ih]
      by_cases hkey : key ∈ keys
      · rw [if_pos hkey, if_pos hkey]
      · have hne : (key == name) = false := by
          rw [beq_eq_false_iff_ne]
          exact fun he => hkey (he ▸ hname)
        rw [if_neg hkey, if_neg hkey, hne]
    · rw [if_pos (by simpa using hname), List.lookup_cons]
      by_cases he : key = name
      · subst he
        simp [hname]
      · rw [beq_eq_false_iff_ne.mpr he, ih]

theorem lookup_without_of_notMem {keys : List String} {key : String} (h : key ∉ keys)
    (schema : JsonObject) : (without keys schema).lookup key = schema.lookup key := by
  rw [lookup_without, if_neg h]

theorem getKey_without_of_notMem {keys : List String} {key : String} (h : key ∉ keys)
    (schema : JsonObject) : getKey (without keys schema) key = getKey schema key := by
  unfold getKey
  rw [lookup_without_of_notMem h]

/-- The length is a least one, if there is a bound. -/
def AtLeast (bound : Option Json) (length : ℕ) : Prop :=
  ∀ m, bound = some m → ∃ n, m.int? = some n ∧ n ≤ length

def AtMost (bound : Option Json) (length : ℕ) : Prop :=
  ∀ m, bound = some m → ∃ n, m.int? = some n ∧ length ≤ n

theorem lengthOk_iff {schema : JsonObject} {length : ℕ} : LengthOk schema length ↔
    AtLeast (getEither schema "minLength" "minItems") length ∧
      AtMost (getEither schema "maxLength" "maxItems") length :=
  ⟨fun h => ⟨h.least, h.most⟩, fun h => ⟨h.1, h.2⟩⟩

/-- The length is within the bounds for strings. -/
def StringLength (schema : JsonObject) (length : ℕ) : Prop :=
  AtLeast (getKey schema "minLength") length ∧ AtMost (getKey schema "maxLength") length

/-- The length is within the bounds for lists. -/
def ArrayLength (schema : JsonObject) (length : ℕ) : Prop :=
  AtLeast (getKey schema "minItems") length ∧ AtMost (getKey schema "maxItems") length

/-! ### The claim and where it fails -/

/-- The keywords for lengths that are not for values of this kind. -/
def foreign : Json → List String
  | .str _ => ["minItems", "maxItems"]
  | .arr _ => ["minLength", "maxLength"]
  | _ => []

/-- The length of the value is within the bounds for its kind. -/
def OwnLength (schema : JsonObject) : Json → Prop
  | .str text => StringLength schema text.length
  | .arr items => ArrayLength schema items.length
  | _ => True

variable [Runtime]

/-- The node accepts the value as if the keywords for the other kind were not there, and only within
the bounds for its own. -/
def KeepsApart (schema : JsonObject) (value : Json) (path : String) : Prop :=
  (validate value (.obj schema) path = .ok () ↔
      validate value (.obj (without (foreign value) schema)) path = .ok ()) ∧
    (validate value (.obj schema) path = .ok () → OwnLength schema value)

/-- The value passes the checks of the node other than that of its length. -/
def OthersOk (schema : JsonObject) : Json → Prop
  | .str text => CommonOk schema (.str text) ∧
      ∀ p, getKey schema "pattern" = some p → Searches p text true
  | .arr items => CommonOk schema (.arr items) ∧
      ∀ itemSchema, getKey schema "items" = some itemSchema →
        ∀ value ∈ items, Admits itemSchema value
  | value => CommonOk schema value

/-- The keywords for the other kind decide: on a string, by a bound for lists where the one for
strings is missing; on a list, by a bound for strings in the place of the one for lists. -/
def Confused (schema : JsonObject) : Json → Prop
  | .str text => StringLength schema text.length ∧
      ¬ ((schema.lookup "minLength" = none → AtLeast (getKey schema "minItems") text.length) ∧
        (schema.lookup "maxLength" = none → AtMost (getKey schema "maxItems") text.length))
  | .arr items => ¬ (AtLeast (getEither schema "minLength" "minItems") items.length ∧
      AtMost (getEither schema "maxLength" "maxItems") items.length ↔
        ArrayLength schema items.length)
  | _ => False

/-! ### What is read -/

omit [Runtime] in
/-- A bound is the one of its own key, or the other if the key is missing. -/
theorem forall_getEither_iff (schema : JsonObject) (key other : String) {P : Option Json → Prop}
    (hnone : P none) : P (getEither schema key other) ↔
      P (getKey schema key) ∧ (schema.lookup key = none → P (getKey schema other)) := by
  unfold getEither getKey
  cases schema.lookup key with
  | none => simp [hnone]
  | some v => cases v <;> simp

omit [Runtime] in
theorem atLeast_none (length : ℕ) : AtLeast none length := nofun

omit [Runtime] in
theorem atMost_none (length : ℕ) : AtMost none length := nofun

omit [Runtime] in
/-- A string is held against the bounds for strings, and where one is missing against that for
lists. -/
theorem lengthOk_iff_string {schema : JsonObject} {length : ℕ} : LengthOk schema length ↔
    StringLength schema length ∧
      ((schema.lookup "minLength" = none → AtLeast (getKey schema "minItems") length) ∧
        (schema.lookup "maxLength" = none → AtMost (getKey schema "maxItems") length)) := by
  have hleast := forall_getEither_iff schema "minLength" "minItems"
    (P := fun bound => AtLeast bound length) (atLeast_none length)
  have hmost := forall_getEither_iff schema "maxLength" "maxItems"
    (P := fun bound => AtMost bound length) (atMost_none length)
  rw [lengthOk_iff, hleast, hmost, StringLength, and_and_and_comm]

omit [Runtime] in
theorem lengthOk_without_items {schema : JsonObject} {length : ℕ} :
    LengthOk (without ["minItems", "maxItems"] schema) length ↔ StringLength schema length := by
  have hmin : getKey (without ["minItems", "maxItems"] schema) "minItems" = none := by
    unfold getKey
    rw [lookup_without, if_pos (by decide)]
  have hmax : getKey (without ["minItems", "maxItems"] schema) "maxItems" = none := by
    unfold getKey
    rw [lookup_without, if_pos (by decide)]
  rw [lengthOk_iff_string, StringLength, StringLength, hmin, hmax,
    getKey_without_of_notMem (by decide), getKey_without_of_notMem (by decide)]
  exact and_iff_left ⟨fun _ => atLeast_none length, fun _ => atMost_none length⟩

omit [Runtime] in
theorem lengthOk_without_length {schema : JsonObject} {length : ℕ} :
    LengthOk (without ["minLength", "maxLength"] schema) length ↔ ArrayLength schema length := by
  have hmin : getEither (without ["minLength", "maxLength"] schema) "minLength" "minItems" =
      getKey schema "minItems" := by
    unfold getEither
    rw [lookup_without, if_pos (by decide), getKey_without_of_notMem (by decide)]
  have hmax : getEither (without ["minLength", "maxLength"] schema) "maxLength" "maxItems" =
      getKey schema "maxItems" := by
    unfold getEither
    rw [lookup_without, if_pos (by decide), getKey_without_of_notMem (by decide)]
  rw [lengthOk_iff, hmin, hmax, ArrayLength]

omit [Runtime] in
theorem commonOk_without {keys : List String} (htype : "type" ∉ keys) (hconst : "const" ∉ keys)
    (henum : "enum" ∉ keys) {schema : JsonObject} {value : Json} :
    CommonOk (without keys schema) value ↔ CommonOk schema value := by
  have hiff : ∀ schema : JsonObject, CommonOk schema value ↔
      (∀ t, getKey schema "type" = some t → TypeOk t value) ∧
        (∀ c, schema.lookup "const" = some c → value.pyEq c = true) ∧
        ∀ e, schema.lookup "enum" = some e →
          ∃ options, e = .arr options ∧ options.any (fun option => value.pyEq option) = true :=
    fun schema => ⟨fun h => ⟨h.type, h.const, h.enum⟩, fun h => ⟨h.1, h.2.1, h.2.2⟩⟩
  rw [hiff, hiff, getKey_without_of_notMem htype, lookup_without_of_notMem hconst,
    lookup_without_of_notMem henum]

/-! ### Strings and lists -/

section Kinds

variable {schema : JsonObject} {path : String} (hp : IsPlace path)
include hp

theorem validate_str_iff {text : String} : validate (.str text) (.obj schema) path = .ok () ↔
    OthersOk schema (.str text) ∧ LengthOk schema text.length := by
  rw [validate_ok_iff hp, admits_str]
  exact ⟨fun ⟨hc, ht⟩ => ⟨⟨hc, ht.pattern⟩, ht.length⟩, fun ⟨⟨hc, hpat⟩, hl⟩ => ⟨hc, hl, hpat⟩⟩

theorem validate_arr_iff {items : List Json} : validate (.arr items) (.obj schema) path = .ok () ↔
    OthersOk schema (.arr items) ∧ LengthOk schema items.length := by
  rw [validate_ok_iff hp, admits_arr]
  exact ⟨fun ⟨hc, hl, hi⟩ => ⟨⟨hc, hi⟩, hl⟩, fun ⟨⟨hc, hi⟩, hl⟩ => ⟨hc, hl, hi⟩⟩

omit hp in
theorem othersOk_str_without {text : String} :
    OthersOk (without ["minItems", "maxItems"] schema) (.str text) ↔
      OthersOk schema (.str text) := by
  simp only [OthersOk]
  rw [commonOk_without (by decide) (by decide) (by decide), getKey_without_of_notMem (by decide)]

omit hp in
theorem othersOk_arr_without {items : List Json} :
    OthersOk (without ["minLength", "maxLength"] schema) (.arr items) ↔
      OthersOk schema (.arr items) := by
  simp only [OthersOk]
  rw [commonOk_without (by decide) (by decide) (by decide), getKey_without_of_notMem (by decide)]

/-- **Length keywords apply to their own kind**, unless the value passes the other checks of the
node and the keywords for the other kind decide. -/
theorem lengths_iff (value : Json) :
    KeepsApart schema value path ↔ ¬ (OthersOk schema value ∧ Confused schema value) := by
  cases value with
  | str text =>
    unfold KeepsApart foreign
    rw [validate_str_iff hp, validate_str_iff hp, othersOk_str_without, lengthOk_without_items,
      lengthOk_iff_string]
    unfold OwnLength Confused
    tauto
  | arr items =>
    unfold KeepsApart foreign
    rw [validate_arr_iff hp, validate_arr_iff hp, othersOk_arr_without, lengthOk_without_length,
      lengthOk_iff]
    unfold OwnLength Confused
    tauto
  | null | bool _ | int _ | float _ | obj _ =>
    have hwithout : without [] schema = schema := List.filter_eq_self.mpr (by simp)
    unfold KeepsApart foreign OwnLength Confused
    rw [hwithout]
    simp

end Kinds

omit [Runtime] in
/-- A schema for strings of up to two characters and lists of up to two items. -/
def sampleBounds : JsonObject :=
  [("type", .arr [.str "string", .str "array"]), ("maxLength", .int 2), ("maxItems", .int 2)]

omit [Runtime] in
/-- A node with the same bound for both kinds does not confuse them. -/
theorem lengths_iff_sample :
    let _ := Runtime.sample
    KeepsApart sampleBounds (.arr [.null, .null]) "$" := by
  let _ := Runtime.sample
  refine (lengths_iff isPlace_root _).mpr ?_
  rintro ⟨-, hconfused⟩
  refine hconfused (iff_of_true ⟨nofun, fun m hm => ?_⟩ ⟨nofun, fun m hm => ?_⟩)
  · cases hm
    exact ⟨2, rfl, by decide⟩
  · cases hm
    exact ⟨2, rfl, by decide⟩

omit [Runtime] in
/-- A schema for strings of one character and lists of up to three items. -/
def mixedBounds : JsonObject :=
  [("type", .arr [.str "string", .str "array"]), ("maxLength", .int 1), ("maxItems", .int 3)]

omit [Runtime] in
/-- **A list is refused because of `maxLength`**, and one that is too long accepted; a string is
refused because of `maxItems`. -/
theorem lengths_confused :
    let _ := Runtime.sample
    (validate (.arr [.null, .null]) (.obj mixedBounds) "$" ≠ .ok () ∧
        ArrayLength mixedBounds 2) ∧
      (validate (.arr [.null, .null]) (.obj [("maxLength", .int 5), ("maxItems", .int 1)]) "$" =
          .ok () ∧ ¬ ArrayLength [("maxLength", .int 5), ("maxItems", .int 1)] 2) ∧
      ¬ KeepsApart [("maxItems", .int 1)] (.str "ab") "$" := by
  let _ := Runtime.sample
  refine ⟨⟨?_, nofun, fun m hm => ?_⟩, ⟨rfl, fun h => ?_⟩, fun h => ?_⟩
  · intro h
    cases h
  · cases hm
    exact ⟨3, rfl, by decide⟩
  · obtain ⟨n, hn, hle⟩ := h.2 _ rfl
    cases hn
    exact absurd hle (by decide)
  · have hok := h.1.mpr rfl
    cases hok

end EventServer.Core.SchemaLengths
