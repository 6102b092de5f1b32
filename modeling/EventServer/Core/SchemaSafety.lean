import EventServer.Core.SchemaSemantics
import EventServer.System

/-! # Schemas that are safe to publish against

`register` validates the empty dictionary only, so a part of the schema that is not one is met when
an event is published. `SafeAt K schema` is the condition on the schema that no value of `K` meets
such a part: it goes through the schema and keeps, for each part, the values that get there
(`schema_safety`). -/

namespace EventServer.Core.SchemaSafety

open EventServer.CatalogAdmin EventServer.Core.SchemaValidation EventServer.Db EventServer.Lib
open EventServer.Python EventServer.System

/-- The validation accepts, or reports a violation by the value. -/
def Judges (r : Except SchemaError Unit) : Prop :=
  r = .ok () ∨ ∃ message, r = .error (.payloadSchemaError message) ∧ message ∉ malformed

theorem judges_iff {r : Except SchemaError Unit} : Judges r ↔ ¬ Faulty r := by
  cases r with
  | ok _ => simp [Judges]
  | error e => cases e <;> simp [Judges, faulty_error, SchemaError.isFault]

/-- A value as the interpreter holds it: no dictionary has a key twice. -/
inductive Distinct : Json → Prop
  | null : Distinct .null
  | bool {b : Bool} : Distinct (.bool b)
  | int {n : ℤ} : Distinct (.int n)
  | float {x : Number} : Distinct (.float x)
  | str {text : String} : Distinct (.str text)
  | arr {items : List Json} : (∀ value ∈ items, Distinct value) → Distinct (.arr items)
  | obj {fields : JsonObject} : (fields.map Prod.fst).Nodup →
      (∀ field ∈ fields, Distinct field.2) → Distinct (.obj fields)

/-- The payloads of events. -/
def Payload (value : Json) : Prop := ∃ payload, value = .obj payload ∧ Distinct value

variable [Runtime]

/-- The values that get to the schema of the field `name`, if `K` gets to the dictionary: the
schemas of the fields `before` it admit theirs. -/
def AtField (K : Json → Prop) (schema properties before : JsonObject) (name : String)
    (value : Json) : Prop :=
  ∃ payload, K (.obj payload) ∧ CommonOk schema (.obj payload) ∧ Entered schema payload properties ∧
    (∀ field ∈ before, FieldAdmits payload field) ∧ payload.lookup name = some value

/-- The values that get to the schema of the items, if `K` gets to the list. -/
def AtItem (K : Json → Prop) (schema : JsonObject) (itemSchema value : Json) : Prop :=
  ∃ before after, K (.arr (before ++ value :: after)) ∧
    CommonOk schema (.arr (before ++ value :: after)) ∧
    LengthOk schema (before ++ value :: after).length ∧ ∀ item ∈ before, Admits itemSchema item

/-- The parts of the schema that the values of `K` get to are such. -/
inductive SafeAt : (Json → Prop) → Json → Prop
  | unreached {K : Json → Prop} {schema : Json} : (∀ value, ¬ K value) → SafeAt K schema
  | obj {K : Json → Prop} {schema : JsonObject} :
      (∀ value, K value → ¬ CommonFault schema value) →
      (∀ payload, K (.obj payload) → CommonOk schema (.obj payload) →
        ¬ ObjectFault schema payload) →
      (∀ text, K (.str text) → CommonOk schema (.str text) → ¬ TextFault schema text) →
      (∀ properties before name child after, properties? schema = some properties →
        properties = before ++ (name, child) :: after →
          SafeAt (AtField K schema properties before name) child) →
      (∀ itemSchema, getKey schema "items" = some itemSchema →
        SafeAt (AtItem K schema itemSchema) itemSchema) →
      SafeAt K (.obj schema)

theorem SafeAt.not_trips {K : Json → Prop} {schema : Json} (h : SafeAt K schema) :
    ∀ value, K value → ¬ Trips schema value := by
  induction h with
  | unreached hK => exact fun value hv => absurd hv (hK value)
  | obj hcommon hobject htext _ _ ihfield ihitem =>
    intro value hv ht
    cases ht with
    | schema hs => exact hs _ rfl
    | common hc => exact hcommon value hv hc
    | object hc ho => exact hobject _ hv hc ho
    | field hc he hb hl ht =>
      exact ihfield _ _ _ _ _ he.schemas rfl _ ⟨_, hv, hc, he, hb, hl⟩ ht
    | item hc hl hg hb ht => exact ihitem _ hg _ ⟨_, _, hv, hc, hl, hb⟩ ht
    | text hc ht => exact htext _ hv hc ht

omit [Runtime] in
theorem sizeOf_lt_of_properties {schema before after : JsonObject} {name : String} {child : Json}
    (h : properties? schema = some (before ++ (name, child) :: after)) :
    sizeOf child < 1 + sizeOf schema := by
  unfold properties? at h
  split at h
  · simp at h
  · rename_i fields hl
    cases h
    have hmem : (name, child) ∈ before ++ (name, child) :: after := by simp
    have hchild := List.sizeOf_lt_of_mem hmem
    have hfields := sizeOf_lt_of_lookup hl
    simp only [Prod.mk.sizeOf_spec, Json.obj.sizeOf_spec] at hchild hfields
    omega
  · cases h

omit [Runtime] in
theorem sizeOf_lt_of_getKey {schema : JsonObject} {key : String} {value : Json}
    (h : getKey schema key = some value) : sizeOf value < 1 + sizeOf schema := by
  unfold getKey at h
  split at h
  · cases h
  · cases h
  · rename_i hl
    cases h
    exact sizeOf_lt_of_lookup hl

theorem safeAt_of_not_trips {K : Json → Prop} (schema : Json)
    (h : ∀ value, K value → ¬ Trips schema value) : SafeAt K schema := by
  by_cases hK : ∃ value, K value
  · obtain ⟨value, hv⟩ := hK
    match schema with
    | .obj schema =>
      refine .obj (fun value hv hc => h value hv (.common hc))
        (fun payload hv hc ho => h _ hv (.object hc ho)) (fun text hv hc ht => h _ hv (.text hc ht))
        ?_ ?_
      · rintro properties before name child after hp rfl
        have hlt := sizeOf_lt_of_properties hp
        refine safeAt_of_not_trips child ?_
        rintro value ⟨payload, hv, hc, he, hb, hl⟩ ht
        exact h _ hv (.field hc he hb hl ht)
      · intro itemSchema hg
        have hlt := sizeOf_lt_of_getKey hg
        refine safeAt_of_not_trips itemSchema ?_
        rintro value ⟨before, after, hv, hc, hl, hb⟩ ht
        exact h _ hv (.item hc hl hg hb ht)
    | .null | .bool _ | .int _ | .float _ | .str _ | .arr _ =>
      exact absurd (.schema (by simp)) (h value hv)
  · exact .unreached (not_exists.mp hK)
termination_by sizeOf schema

/-- The condition on the schema is that no value of `K` trips over a part of it. -/
theorem safeAt_iff {K : Json → Prop} {schema : Json} :
    SafeAt K schema ↔ ∀ value, K value → ¬ Trips schema value :=
  ⟨SafeAt.not_trips, safeAt_of_not_trips schema⟩

theorem validate_nil (payload : JsonObject) (path : String) :
    validate (.obj payload) (.obj []) path = .ok () := by
  unfold validate
  simp [validateNode, validateCommon, getKey, validateObject, validateProperties]

theorem safeAt_payload_iff {schema : JsonObject} :
    SafeAt Payload (.obj schema) ↔
      ∀ payload, Distinct (.obj payload) → Judges (validatePayload schema payload) := by
  rw [safeAt_iff]
  constructor
  · intro h payload hd
    rw [judges_iff]
    unfold validatePayload
    split_ifs
    · exact not_faulty_ok _
    · rw [validate_faulty_iff isPlace_root]
      exact h _ ⟨payload, rfl, hd⟩
  · rintro h value ⟨payload, rfl, hd⟩
    have hj := judges_iff.mp (h payload hd)
    unfold validatePayload at hj
    rw [← validate_faulty_iff isPlace_root]
    split_ifs at hj with he
    · rw [List.isEmpty_iff.mp he, validate_nil]
      exact not_faulty_ok _
    · exact hj

/-- **A registered schema is safe to publish against exactly if all its parts that payloads get to
are such.** After a registration, the validation of every payload against the schema of the type
accepts or reports a violation by the payload if and only if the schema is safe at the payloads. -/
theorem schema_safety {s s' : Store} {entry : ValidEntry} (h : register s entry = .ok s') :
    ∃ eventType, s'.eventTypes.get entry.val.eventKey = some eventType ∧
      ((∀ payload, Distinct (.obj payload) →
          Judges (validatePayload eventType.payloadSchema payload)) ↔
        SafeAt Payload (.obj entry.val.payloadSchema)) := by
  obtain ⟨existing, hk, rfl⟩ := register_ok h
  refine ⟨writeEntry existing entry.val, ?_, safeAt_payload_iff.symm⟩
  rw [Table.get_put]
  exact if_pos hk.symm

/-! ### Well-formed schemas -/

/-- All parts of the schema are such, whether values get to them or not. -/
inductive WellFormed : Json → Prop
  | obj {schema properties : JsonObject} :
      (∀ t, getKey schema "type" = some t →
        ∃ names, strings? (choices t) = some names ∧ ∀ name ∈ names, name ∈ typeNames) →
      required? schema ≠ none → properties? schema = some properties →
      (∀ field ∈ properties, WellFormed field.2) →
      (∀ itemSchema, getKey schema "items" = some itemSchema → WellFormed itemSchema) →
      (∀ p, getKey schema "pattern" = some p → ∀ text, ∃ result, Searches p text result) →
      WellFormed (.obj schema)

omit [Runtime] in
theorem not_typeUnknown {value : Json} {names : List String}
    (h : ∀ name ∈ names, name ∈ typeNames) :
    ¬ TypeUnknown value names := by
  induction names with
  | nil => exact id
  | cons name names ih =>
    rw [List.forall_mem_cons] at h
    rintro (hn | ⟨-, hu⟩)
    · exact hn h.1
    · exact ih h.2 hu

theorem WellFormed.safeAt {schema : Json} (h : WellFormed schema) (K : Json → Prop) :
    SafeAt K schema := by
  induction h generalizing K with
  | obj htype hrequired hproperties _ _ hpattern ihfield ihitem =>
    refine .obj ?_ ?_ ?_ ?_ fun itemSchema hg => ihitem itemSchema hg _
    · rintro value - ⟨t, ht, hfault⟩
      obtain ⟨names, hn, hknown⟩ := htype t ht
      exact not_typeUnknown hknown (hfault names hn)
    · rintro payload - - (hr | ⟨-, hp⟩)
      · exact hrequired hr
      · cases hproperties.symm.trans hp
    · rintro text - - ⟨-, p, hp, hs⟩
      obtain ⟨result, hr⟩ := hpattern p hp text
      exact hs result hr
    · rintro properties before name child after hp rfl
      cases hproperties.symm.trans hp
      exact ihfield (name, child) (by simp) _

/-! ### Two samples -/

omit [Runtime] in
/-- The sample type, with a schema for the projects. -/
def sampleProjects (projects : JsonObject) : CatalogEntry :=
  { sampleEntry.val with payloadSchema := [("properties", .obj [("projects", .obj projects)])] }

omit [Runtime] in
/-- The projects are described by their type. -/
def sampleTyped : ValidEntry where
  val := sampleProjects [("type", .str "array")]
  property := by decide

omit [Runtime] in
/-- The projects are described by a type that does not exist. -/
def sampleMistyped : ValidEntry where
  val := sampleProjects [("type", .str "list")]
  property := by decide

theorem wellFormed_sampleTyped : WellFormed (.obj sampleTyped.val.payloadSchema) := by
  refine .obj (fun _ h => by cases h) (by decide) rfl (fun field hf => ?_) (fun _ h => by cases h)
    fun _ h => by cases h
  rw [List.mem_singleton] at hf
  subst hf
  refine .obj (fun t ht => ?_) (by decide) rfl (fun _ h => by cases h)
    (fun _ h => by cases h) fun _ h => by cases h
  cases ht
  exact ⟨["array"], rfl, by decide⟩

omit [Runtime] in
/-- Every payload is judged by the schema that describes the projects. -/
theorem schema_safety_sample :
    ∃ s' eventType, @register .sample {} sampleTyped = .ok s' ∧
      s'.eventTypes.get "build.pipeline.failed" = some eventType ∧
        ∀ payload, Distinct (.obj payload) →
          Judges (@validatePayload .sample eventType.payloadSchema payload) := by
  let _ := Runtime.sample
  have hreg : register {} sampleTyped = .ok _ := rfl
  obtain ⟨eventType, hget, hiff⟩ := schema_safety hreg
  exact ⟨_, eventType, hreg, hget, hiff.mpr (wellFormed_sampleTyped.safeAt _)⟩

omit [Runtime] in
/-- **A schema is registered that is none**: it is found out when the first event with projects is
published. -/
theorem mistyped_is_registered :
    ¬ ∀ (s s' : Store) (entry : ValidEntry), @register .sample s entry = .ok s' →
      ∀ payload, Distinct (.obj payload) →
        Judges (@validatePayload .sample entry.val.payloadSchema payload) := by
  let _ := Runtime.sample
  intro h
  have hreg : register {} sampleMistyped = .ok _ := rfl
  have hd : Distinct (.obj [("projects", .arr [])]) :=
    .obj (by decide) fun field hf => by
      rw [List.mem_singleton] at hf
      subst hf
      exact .arr fun _ hv => by cases hv
  have hf : Faulty (validatePayload sampleMistyped.val.payloadSchema [("projects", .arr [])]) :=
    ⟨.payloadSchemaError "unsupported schema type", rfl, rfl⟩
  exact judges_iff.mp (h _ _ _ hreg _ hd) hf

end EventServer.Core.SchemaSafety
