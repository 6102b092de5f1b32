import EventServer.Core.SchemaSafety
import Mathlib.Logic.Relation

/-! # Every node is checked

A schema and a value are walked through together: from a dictionary to the fields that `properties`
names, from a list to its items. Each pair of a part of the schema and a part of the value on the
way is a `Node`, with checks of its own (`NodeOk`). If all parts of the schema are such, the
validator accepts the value exactly if every node on the way passes its own checks, and otherwise it
reports a check that a node on the way fails, under the path of that node (`validate_complete`). -/

namespace EventServer.Core.SchemaCompleteness

open EventServer.Core.SchemaSafety EventServer.Core.SchemaValidation EventServer.Python

/-! ### Checks that are reported -/

/-- The check accepts exactly if `holds`, and what it raises is a `PayloadSchemaError` with one of
the `objections`. -/
def Reports (r : Except SchemaError Unit) (holds : Prop) (objections : String → Prop) : Prop :=
  match r with
  | .ok () => holds
  | .error e => ¬ holds ∧ ∃ message, e = .payloadSchemaError message ∧ objections message

section Reports

variable {r a b : Except SchemaError Unit} {P Q : Prop} {O : String → Prop}

theorem reports_ok (h : P) : Reports (.ok ()) P O := h

theorem reports_fail {message : String} (hP : ¬ P) (h : O message) : Reports (fail message) P O :=
  ⟨hP, message, rfl, h⟩

theorem Reports.ok_iff (h : Reports r P O) : r = .ok () ↔ P := by
  cases r with
  | ok _ => exact iff_of_true rfl h
  | error e => exact iff_of_false (by simp) h.1

theorem Reports.error (h : Reports r P O) {e : SchemaError} (he : r = .error e) :
    ∃ message, e = .payloadSchemaError message ∧ O message := by
  subst he
  exact h.2

theorem Reports.mono {O' : String → Prop} (h : Reports r P O) (hPQ : P ↔ Q)
    (hO : ∀ message, O message → O' message) : Reports r Q O' := by
  cases r with
  | ok _ => exact hPQ.mp h
  | error e =>
    obtain ⟨hP, message, he, hm⟩ := h
    exact ⟨fun hQ => hP (hPQ.mpr hQ), message, he, hO message hm⟩

theorem Reports.both (ha : Reports a P O)
    (hb : P → Reports b Q O) : Reports (both a b) (P ∧ Q) O := by
  cases a with
  | error e => exact ⟨fun h => ha.1 h.1, ha.2⟩
  | ok _ => exact (hb ha).mono (by simp [show P from ha]) fun _ h => h

theorem reports_guard {c : Bool} {message : String} (hc : c = false ↔ P)
    (hm : ¬ P → O message) (hr : P → Reports r Q O) :
    Reports (if c = true then fail message else r) (P ∧ Q) O := by
  cases c with
  | true =>
    have hP : ¬ P := fun h => by cases hc.mpr h
    exact reports_fail (fun h => hP h.1) (hm hP)
  | false =>
    have hP : P := hc.mp rfl
    exact (hr hP).mono (by simp [hP]) fun _ h => h

end Reports

/-! ### Nodes -/

/-- A part of the schema, the part of the value it is applied to, and the place of the latter. -/
structure Node where
  schema : Json
  value : Json
  path : String

/-- The nodes right below a node. -/
inductive Below : Node → Node → Prop
  | field {schema properties payload : JsonObject} {name path : String} {child value : Json} :
      properties? schema = some properties → (name, child) ∈ properties →
      payload.lookup name = some value →
      Below ⟨.obj schema, .obj payload, path⟩ ⟨child, value, path ++ "." ++ name⟩
  | item {schema : JsonObject} {items : List Json} {path : String}
      {itemSchema value : Json} {i : ℕ} :
      getKey schema "items" = some itemSchema → items[i]? = some value →
      Below ⟨.obj schema, .arr items, path⟩ ⟨itemSchema, value, path ++ "[" ++ toString i ++ "]"⟩

/-- The nodes that are come by, to any depth. -/
def Reaches : Node → Node → Prop := Relation.ReflTransGen Below

/-- Every field of the dictionary is declared, if the schema asks for that. -/
def Declared (schema payload : JsonObject) : Prop :=
  schema.lookup "additionalProperties" = some (.bool false) →
    ∀ properties, properties? schema = some properties →
      ∀ name ∈ payload.map Prod.fst, name ∈ properties.map Prod.fst

variable [Runtime]

/-- The checks that depend on the kind of the value. -/
def KindOk (schema : JsonObject) : Json → Prop
  | .obj payload => Complete schema payload ∧ Declared schema payload
  | .arr items => LengthOk schema items.length
  | .str text => TextOk schema text
  | .int n => NumberOk schema (.finite n)
  | .float x => NumberOk schema x
  | .bool _ | .null => True

/-- The node passes its own checks. -/
def NodeOk (node : Node) : Prop :=
  ∃ schema, node.schema = .obj schema ∧ CommonOk schema node.value ∧ KindOk schema node.value

omit [Runtime] in
theorem reaches_refl (node : Node) : Reaches node node := Relation.ReflTransGen.refl

omit [Runtime] in
theorem reaches_iff {node node' : Node} :
    Reaches node node' ↔ node = node' ∨ ∃ next, Below node next ∧ Reaches next node' :=
  Relation.ReflTransGen.cases_head_iff

omit [Runtime] in
theorem not_below {schema value : Json} {path : String} {next : Node}
    (hobj : ∀ payload, value ≠ .obj payload) (harr : ∀ items, value ≠ .arr items) :
    ¬ Below ⟨schema, value, path⟩ next := by
  intro h
  cases h with
  | field => exact hobj _ rfl
  | item => exact harr _ rfl

/-- All nodes on the way pass their own checks. -/
def Passes (node : Node) : Prop := ∀ node', Reaches node node' → NodeOk node'

theorem passes_iff {node : Node} :
    Passes node ↔ NodeOk node ∧ ∀ next, Below node next → Passes next := by
  constructor
  · intro h
    refine ⟨h node (reaches_refl node), fun next hnext node' hreach => ?_⟩
    exact h node' (reaches_iff.mpr (Or.inr ⟨next, hnext, hreach⟩))
  · rintro ⟨hnode, hbelow⟩ node' hreach
    rcases reaches_iff.mp hreach with rfl | ⟨next, hnext, hreach⟩
    · exact hnode
    · exact hbelow next hnext node' hreach

/-! ### Objections -/

/-- The bounds on lengths that the length `length` does not keep to, with what is said of it. -/
inductive LengthObjection (schema : JsonObject) (length : ℕ) : String → Prop
  | least {m : Json} : getEither schema "minLength" "minItems" = some m →
      (¬ ∃ n, m.int? = some n ∧ n ≤ length) →
      LengthObjection schema length " is shorter than the configured minimum"
  | most {m : Json} : getEither schema "maxLength" "maxItems" = some m →
      (¬ ∃ n, m.int? = some n ∧ length ≤ n) →
      LengthObjection schema length " exceeds the configured maximum"

inductive NumberObjection (schema : JsonObject) (value : Number) : String → Prop
  | least {m : Json} : getKey schema "minimum" = some m →
      (¬ ∃ n, m.number? = some n ∧ value.lt n = false) →
      NumberObjection schema value " is below the configured minimum"
  | most {m : Json} : getKey schema "maximum" = some m →
      (¬ ∃ n, m.number? = some n ∧ n.lt value = false) →
      NumberObjection schema value " exceeds the configured maximum"

/-- A check of its own that a node fails, with what the message says after the path. -/
inductive Objection : Json → Json → String → Prop
  | type {schema : JsonObject} {value t : Json} : getKey schema "type" = some t → ¬ TypeOk t value →
      Objection (.obj schema) value (" must be " ++ t.toStr)
  | const {schema : JsonObject} {value c : Json} : schema.lookup "const" = some c →
      value.pyEq c = false → Objection (.obj schema) value " must equal the configured const"
  | enum {schema : JsonObject} {value e : Json} : schema.lookup "enum" = some e →
      (¬ ∃ options, e = .arr options ∧ options.any (fun option => value.pyEq option) = true) →
      Objection (.obj schema) value " is not an allowed value"
  | required {schema payload : JsonObject} {required : List String} :
      required? schema = some required →
      required.filter (fun item => item ∉ payload.map Prod.fst) ≠ [] →
      Objection (.obj schema) (.obj payload) (" is missing required fields: " ++
        joinStr ", " (required.filter fun item => item ∉ payload.map Prod.fst))
  | additional {schema payload properties : JsonObject} :
      schema.lookup "additionalProperties" = some (.bool false) →
      properties? schema = some properties →
      (payload.map Prod.fst).filter (fun name => name ∉ properties.map Prod.fst) ≠ [] →
      Objection (.obj schema) (.obj payload) (" has undeclared fields: " ++ joinStr ", "
        (sortedStr ((payload.map Prod.fst).filter fun name => name ∉ properties.map Prod.fst)))
  | items {schema : JsonObject} {items : List Json} {complaint : String} :
      LengthObjection schema items.length complaint → Objection (.obj schema) (.arr items) complaint
  | length {schema : JsonObject} {text complaint : String} :
      LengthObjection schema text.length complaint → Objection (.obj schema) (.str text) complaint
  | pattern {schema : JsonObject} {text : String} {p : Json} : getKey schema "pattern" = some p →
      Searches p text false →
      Objection (.obj schema) (.str text) " does not match the configured pattern"
  | int {schema : JsonObject} {n : ℤ} {complaint : String} :
      NumberObjection schema (.finite n) complaint → Objection (.obj schema) (.int n) complaint
  | float {schema : JsonObject} {x : Number} {complaint : String} :
      NumberObjection schema x complaint → Objection (.obj schema) (.float x) complaint

/-- The message names a node on the way, and a check that this node fails. -/
def Names (node : Node) (message : String) : Prop :=
  ∃ node' complaint, Reaches node node' ∧ Objection node'.schema node'.value complaint ∧
    message = node'.path ++ complaint

/-! ### The checks of a node -/

section Checks

variable {schema : JsonObject} {path : String} {O : String → Prop}

omit [Runtime] in
theorem exists_of_not_forall {α : Type} {o : Option α} {Q : α → Prop}
    (h : ¬ ∀ a, o = some a → Q a) : ∃ a, o = some a ∧ ¬ Q a := by
  simpa only [not_forall, exists_prop] using h

omit [Runtime] in
/-- If all names are known, a value is of one of them or of none. -/
theorem anyType_known {value : Json} {names : List String} (h : ∀ name ∈ names, name ∈ typeNames) :
    anyType value names = .ok (names.any (hasType value)) := by
  induction names with
  | nil => rfl
  | cons name names ih =>
    rw [List.forall_mem_cons] at h
    unfold anyType
    rw [matchesTypeName_known h.1, List.any_cons]
    cases hasType value name with
    | true => rfl
    | false => exact ih h.2

theorem reports_typed {value : Json}
    (htype : ∀ t, getKey schema "type" = some t →
      ∃ names, strings? (choices t) = some names ∧ ∀ name ∈ names, name ∈ typeNames)
    (hO : ∀ complaint, Objection (.obj schema) value complaint → O (path ++ complaint)) :
    Reports (typed schema value path) (∀ t, getKey schema "type" = some t → TypeOk t value) O := by
  unfold typed
  cases ht : getKey schema "type" with
  | none => exact reports_ok fun t h => by cases h
  | some t =>
    obtain ⟨names, hnames, hknown⟩ := htype t ht
    have hmatches : matchesType t value = .ok (names.any (hasType value)) := by
      rw [matchesType_eq, hnames]
      exact anyType_known hknown
    have hok : TypeOk t value ↔ names.any (hasType value) = true := by
      rw [← matchesType_ok, hmatches, Except.ok.injEq]
    simp only [hmatches, Option.some.injEq, forall_eq', hok]
    cases hany : names.any (hasType value) with
    | true => exact reports_ok rfl
    | false =>
      have hnot : ¬ TypeOk t value := by
        rw [hok, hany]
        exact Bool.false_ne_true
      refine reports_fail Bool.false_ne_true ?_
      rw [String.append_assoc]
      exact hO _ (.type ht hnot)

theorem reports_listed {value : Json}
    (hO : ∀ complaint, Objection (.obj schema) value complaint → O (path ++ complaint)) :
    Reports (listed schema value path)
      ((∀ c, schema.lookup "const" = some c → value.pyEq c = true) ∧
        (∀ e, schema.lookup "enum" = some e →
          ∃ options, e = .arr options ∧ options.any (fun option => value.pyEq option) = true) ∧
        True) O := by
  unfold listed
  refine reports_guard ?_ ?_ fun _ => reports_guard ?_ ?_ fun _ => reports_ok trivial
  · cases schema.lookup "const" <;> simp
  · intro hnot
    obtain ⟨c, hc, hne⟩ := exists_of_not_forall hnot
    exact hO _ (.const hc (Bool.eq_false_iff.mpr hne))
  · cases schema.lookup "enum" with
    | none => simp
    | some e => cases e <;> simp
  · intro hnot
    obtain ⟨e, he, hne⟩ := exists_of_not_forall hnot
    exact hO _ (.enum he hne)

theorem reports_validateCommon {value : Json}
    (htype : ∀ t, getKey schema "type" = some t →
      ∃ names, strings? (choices t) = some names ∧ ∀ name ∈ names, name ∈ typeNames)
    (hO : ∀ complaint, Objection (.obj schema) value complaint → O (path ++ complaint)) :
    Reports (validateCommon schema value path) (CommonOk schema value) O := by
  rw [validateCommon_eq]
  refine ((reports_typed htype hO).both fun _ => reports_listed hO).mono ?_ fun _ h => h
  exact ⟨fun ⟨ht, hc, he, _⟩ => ⟨ht, hc, he⟩, fun h => ⟨h.type, h.const, h.enum, trivial⟩⟩

omit [Runtime] in
theorem reports_boundedLength {length : ℕ}
    (hO : ∀ complaint, LengthObjection schema length complaint → O (path ++ complaint)) :
    Reports (boundedLength schema length path) (LengthOk schema length) O := by
  have hreports : Reports (boundedLength schema length path)
      ((∀ m, getEither schema "minLength" "minItems" = some m → ∃ n, m.int? = some n ∧ n ≤ length) ∧
        (∀ m, getEither schema "maxLength" "maxItems" = some m →
          ∃ n, m.int? = some n ∧ length ≤ n) ∧ True) O := by
    unfold boundedLength
    refine reports_guard ?_ ?_ fun _ => reports_guard ?_ ?_ fun _ => reports_ok trivial
    · cases getEither schema "minLength" "minItems" with
      | none => simp
      | some m => cases hm : m.int? <;> simp [hm]
    · intro hnot
      obtain ⟨m, hm, hover⟩ := exists_of_not_forall hnot
      exact hO _ (.least hm hover)
    · cases getEither schema "maxLength" "maxItems" with
      | none => simp
      | some m => cases hm : m.int? <;> simp [hm]
    · intro hnot
      obtain ⟨m, hm, hover⟩ := exists_of_not_forall hnot
      exact hO _ (.most hm hover)
  refine hreports.mono ?_ fun _ h => h
  exact ⟨fun h => ⟨h.1, h.2.1⟩, fun h => ⟨h.least, h.most, trivial⟩⟩

omit [Runtime] in
theorem reports_validateNumber {value : Number}
    (hO : ∀ complaint, NumberObjection schema value complaint → O (path ++ complaint)) :
    Reports (validateNumber schema value path) (NumberOk schema value) O := by
  have hreports : Reports (validateNumber schema value path)
      ((∀ m, getKey schema "minimum" = some m → ∃ n, m.number? = some n ∧ value.lt n = false) ∧
        (∀ m, getKey schema "maximum" = some m → ∃ n, m.number? = some n ∧ n.lt value = false) ∧
        True) O := by
    unfold validateNumber
    refine reports_guard ?_ ?_ fun _ => reports_guard ?_ ?_ fun _ => reports_ok trivial
    · cases getKey schema "minimum" with
      | none => simp
      | some m => cases hm : m.number? <;> simp [hm]
    · intro hnot
      obtain ⟨m, hm, hover⟩ := exists_of_not_forall hnot
      exact hO _ (.least hm hover)
    · cases getKey schema "maximum" with
      | none => simp
      | some m => cases hm : m.number? <;> simp [hm]
    · intro hnot
      obtain ⟨m, hm, hover⟩ := exists_of_not_forall hnot
      exact hO _ (.most hm hover)
  refine hreports.mono ?_ fun _ h => h
  exact ⟨fun h => ⟨h.1, h.2.1⟩, fun h => ⟨h.least, h.most, trivial⟩⟩

theorem reports_searched {text : String}
    (hpattern : ∀ p, getKey schema "pattern" = some p → ∃ result, Searches p text result)
    (hO : ∀ complaint, Objection (.obj schema) (.str text) complaint → O (path ++ complaint)) :
    Reports (searched schema text path)
      (∀ p, getKey schema "pattern" = some p → Searches p text true) O := by
  unfold searched
  cases hp : getKey schema "pattern" with
  | none => exact reports_ok fun p h => by cases h
  | some p =>
    obtain ⟨result, pattern, rfl, hlen, hsearch⟩ := hpattern p hp
    have hiff : (∀ p, some (Json.str pattern) = some p → Searches p text true) ↔ result = true := by
      simp [Searches, hlen, hsearch]
    simp only [if_neg (not_lt.mpr hlen), hsearch, hiff]
    cases result with
    | true => exact reports_ok rfl
    | false =>
      exact reports_fail Bool.false_ne_true (hO _ (.pattern hp ⟨pattern, rfl, hlen, hsearch⟩))

theorem reports_validateString {text : String}
    (hpattern : ∀ p, getKey schema "pattern" = some p → ∃ result, Searches p text result)
    (hO : ∀ complaint, Objection (.obj schema) (.str text) complaint → O (path ++ complaint)) :
    Reports (validateString schema text path) (TextOk schema text) O := by
  rw [validateString_eq]
  refine ((reports_boundedLength fun _ h => hO _ (.length h)).both fun _ =>
    reports_searched hpattern hO).mono ?_ fun _ h => h
  exact ⟨fun h => ⟨h.1, h.2⟩, fun h => ⟨h.length, h.pattern⟩⟩

end Checks

/-! ### The parts of a value -/

theorem nodeOk_obj {schema : JsonObject} {value : Json} {path : String} :
    NodeOk ⟨.obj schema, value, path⟩ ↔ CommonOk schema value ∧ KindOk schema value := by
  simp [NodeOk]

theorem kindOk_obj {schema payload : JsonObject} :
    KindOk schema (.obj payload) ↔ Complete schema payload ∧ Declared schema payload := Iff.rfl

theorem names_self {node : Node} {complaint : String}
    (h : Objection node.schema node.value complaint) : Names node (node.path ++ complaint) :=
  ⟨node, complaint, reaches_refl node, h, rfl⟩

theorem names_of_below {node next : Node} {message : String} (hbelow : Below node next)
    (h : Names next message) : Names node message := by
  obtain ⟨node', complaint, hreach, hobj, hm⟩ := h
  exact ⟨node', complaint, reaches_iff.mpr (Or.inr ⟨next, hbelow, hreach⟩), hobj, hm⟩

section Parts

variable {path : String} {O : String → Prop}

/-- The loop over `properties` goes to every field that is there. -/
theorem reports_validateProperties {payload properties : JsonObject}
    (hd : ∀ name child, (name, child) ∈ properties → ∀ value, payload.lookup name = some value →
      Reports (validate value child (path ++ "." ++ name))
        (Passes ⟨child, value, path ++ "." ++ name⟩) O) :
    Reports (validateProperties (fieldChecks payload) path properties)
      (∀ name child, (name, child) ∈ properties → ∀ value, payload.lookup name = some value →
        Passes ⟨child, value, path ++ "." ++ name⟩) O := by
  induction properties with
  | nil => exact reports_ok fun name child h => absurd h List.not_mem_nil
  | cons field properties ih =>
    obtain ⟨name, child⟩ := field
    have hrest := ih fun name' child' h => hd name' child' (List.mem_cons_of_mem _ h)
    have hfirst : Reports (fieldCheck (fieldChecks payload) path (name, child))
        (∀ value, payload.lookup name = some value →
          Passes ⟨child, value, path ++ "." ++ name⟩) O := by
      unfold fieldCheck
      rw [lookup_fieldChecks]
      cases hl : payload.lookup name with
      | none => exact reports_ok fun value h => by cases h
      | some value =>
        simp only [Option.map_some, Option.some.injEq, forall_eq']
        exact hd name child List.mem_cons_self value hl
    rw [validateProperties_cons]
    refine (hfirst.both fun _ => hrest).mono ⟨?_, ?_⟩ fun _ h => h
    · rintro ⟨hname, hall⟩ name' child' h value hl
      rcases List.mem_cons.mp h with he | h
      · cases he
        exact hname value hl
      · exact hall name' child' h value hl
    · intro h
      exact ⟨h name child List.mem_cons_self, fun name' child' h' =>
        h name' child' (List.mem_cons_of_mem _ h')⟩

theorem reports_validateItems (index : ℕ) {itemSchema : Json} {items : List Json}
    (hd : ∀ i value, items[i]? = some value →
      Reports (validate value itemSchema (path ++ "[" ++ toString (index + i) ++ "]"))
        (Passes ⟨itemSchema, value, path ++ "[" ++ toString (index + i) ++ "]"⟩) O) :
    Reports (validateItems itemSchema path index (itemChecks items))
      (∀ i value, items[i]? = some value →
        Passes ⟨itemSchema, value, path ++ "[" ++ toString (index + i) ++ "]"⟩) O := by
  induction items generalizing index with
  | nil => exact reports_ok fun i value h => by cases h
  | cons item items ih =>
    have hshift : ∀ i, index + 1 + i = index + (i + 1) := by
      intro i
      omega
    have hrest := ih (index + 1) fun i value h => by
      rw [hshift]
      exact hd (i + 1) value h
    rw [itemChecks, validateItems_cons]
    refine ((hd 0 item rfl).both fun _ => hrest).mono ⟨?_, ?_⟩ fun _ h => h
    · rintro ⟨hitem, hall⟩ i value h
      cases i with
      | zero =>
        cases h
        exact hitem
      | succ i =>
        rw [← hshift]
        exact hall i value h
    · intro h
      refine ⟨h 0 item rfl, fun i value hi => ?_⟩
      rw [hshift]
      exact h (i + 1) value hi

theorem reports_validateObject {schema properties payload : JsonObject}
    (hrequired : required? schema ≠ none) (hproperties : properties? schema = some properties)
    (hO : ∀ complaint, Objection (.obj schema) (.obj payload) complaint → O (path ++ complaint))
    (hd : ∀ name child, (name, child) ∈ properties → ∀ value, payload.lookup name = some value →
      Reports (validate value child (path ++ "." ++ name))
        (Passes ⟨child, value, path ++ "." ++ name⟩) O) :
    Reports (validateObject schema (fieldChecks payload) path)
      (KindOk schema (.obj payload) ∧ ∀ next, Below ⟨.obj schema, .obj payload, path⟩ next →
        Passes next) O := by
  obtain ⟨required, hr⟩ := Option.ne_none_iff_exists'.mp hrequired
  have hcomplete : Complete schema payload ↔
      required.filter (fun item => item ∉ payload.map Prod.fst) = [] := by
    unfold Complete
    rw [hr, List.filter_eq_nil_iff]
    simp
  have hdeclared : Declared schema payload ↔
      (schema.lookup "additionalProperties" = some (.bool false) →
        (payload.map Prod.fst).filter (fun name => name ∉ properties.map Prod.fst) = []) := by
    unfold Declared
    rw [hproperties, List.filter_eq_nil_iff]
    simp
  have hbelow : (∀ next, Below ⟨.obj schema, .obj payload, path⟩ next → Passes next) ↔
      ∀ name child, (name, child) ∈ properties → ∀ value, payload.lookup name = some value →
        Passes ⟨child, value, path ++ "." ++ name⟩ := by
    constructor
    · exact fun h name child hmem value hl => h _ (.field hproperties hmem hl)
    · rintro h next (⟨hp, hmem, hl⟩)
      cases hproperties.symm.trans hp
      exact h _ _ hmem _ hl
  rw [validateObject_eq, keys_fieldChecks, hr, hbelow]
  rw [kindOk_obj, hcomplete, hdeclared]
  by_cases hmissing : required.filter (fun item => item ∉ payload.map Prod.fst) = []
  · simp only [hmissing, ne_eq, not_true_eq_false, if_false, true_and]
    unfold declaredFields
    rw [hproperties, keys_fieldChecks]
    refine reports_guard ?_ ?_ fun _ => reports_validateProperties hd
    · rw [Bool.and_eq_false_iff, ← Bool.not_eq_true, isClosed_eq_true, Bool.not_eq_false',
        List.isEmpty_iff, imp_iff_not_or]
    · intro hnot
      rw [Classical.not_imp] at hnot
      rw [String.append_assoc]
      exact hO _ (.additional hnot.1 hproperties hnot.2)
  · simp only [ne_eq, hmissing, not_false_eq_true, if_true]
    refine reports_fail (fun h => h.1.1) ?_
    rw [String.append_assoc]
    exact hO _ (.required hr hmissing)

theorem reports_validateArray {schema : JsonObject} {items : List Json}
    (hO : ∀ complaint, Objection (.obj schema) (.arr items) complaint → O (path ++ complaint))
    (hd : ∀ itemSchema, getKey schema "items" = some itemSchema →
      ∀ (i : ℕ) (value : Json), items[i]? = some value →
        Reports (validate value itemSchema (path ++ "[" ++ toString i ++ "]"))
          (Passes ⟨itemSchema, value, path ++ "[" ++ toString i ++ "]"⟩) O) :
    Reports (validateArray schema (itemChecks items) path)
      (KindOk schema (.arr items) ∧ ∀ next, Below ⟨.obj schema, .arr items, path⟩ next →
        Passes next) O := by
  have hlen : (itemChecks items).length = items.length := by simp [itemChecks_eq]
  rw [validateArray_eq, hlen]
  refine (reports_boundedLength fun _ h => hO _ (.items h)).both fun _ => ?_
  unfold itemsCheck
  cases hi : getKey schema "items" with
  | none =>
    refine reports_ok ?_
    rintro next (_ | ⟨h, -⟩)
    cases hi.symm.trans h
  | some itemSchema =>
    have hall := reports_validateItems 0 (by simpa using hd itemSchema hi)
    refine hall.mono ⟨?_, ?_⟩ fun _ h => h
    · rintro h next (_ | ⟨h', hv⟩)
      cases hi.symm.trans h'
      simpa using h _ _ hv
    · intro h i value hv
      simpa using h _ (.item hi hv)

/-- A node is reported on if the checks by the kind of its value and the nodes below it are. -/
theorem reports_validateNode {schema : JsonObject} {value : Json}
    {byKind : JsonObject → String → Except SchemaError Unit}
    (hcommon : Reports (validateCommon schema value path) (CommonOk schema value) O)
    (hkind : Reports (byKind schema path)
      (KindOk schema value ∧ ∀ next, Below ⟨.obj schema, value, path⟩ next → Passes next) O) :
    Reports (validateNode value byKind (.obj schema) path)
      (Passes ⟨.obj schema, value, path⟩) O := by
  rw [validateNode_obj, passes_iff, nodeOk_obj, and_assoc]
  exact hcommon.both fun _ => hkind

end Parts

/-! ### The validator -/

/-- **What the validator reports** of a well-formed schema and any value. -/
theorem reports_validate {schema : Json} (h : WellFormed schema) (value : Json) (path : String) :
    Reports (validate value schema path) (Passes ⟨schema, value, path⟩)
      (Names ⟨schema, value, path⟩) := by
  induction h generalizing value path with
  | @obj schema properties htype hrequired hproperties _ _ hpattern ihfield ihitem =>
    have hO : ∀ complaint, Objection (.obj schema) value complaint →
        Names ⟨.obj schema, value, path⟩ (path ++ complaint) := fun _ h => names_self h
    have hcommon := reports_validateCommon htype hO
    cases value with
    | obj payload =>
      unfold validate
      refine reports_validateNode hcommon (reports_validateObject hrequired hproperties hO ?_)
      intro name child hmem value hl
      exact (ihfield (name, child) hmem value _).mono Iff.rfl fun _ h =>
        names_of_below (.field hproperties hmem hl) h
    | arr items =>
      unfold validate
      refine reports_validateNode hcommon (reports_validateArray hO ?_)
      intro itemSchema hi i value hv
      exact (ihitem itemSchema hi value _).mono Iff.rfl fun _ h =>
        names_of_below (.item hi hv) h
    | str text =>
      unfold validate
      refine reports_validateNode hcommon
        ((reports_validateString (fun p hp => hpattern p hp text) hO).mono ?_ fun _ h => h)
      exact (and_iff_left fun next h => absurd h (not_below (by simp) (by simp))).symm
    | int n =>
      unfold validate
      refine reports_validateNode hcommon
        ((reports_validateNumber fun _ h => hO _ (.int h)).mono ?_ fun _ h => h)
      exact (and_iff_left fun next h => absurd h (not_below (by simp) (by simp))).symm
    | float x =>
      unfold validate
      refine reports_validateNode hcommon
        ((reports_validateNumber fun _ h => hO _ (.float h)).mono ?_ fun _ h => h)
      exact (and_iff_left fun next h => absurd h (not_below (by simp) (by simp))).symm
    | bool _ | null =>
      unfold validate
      refine reports_validateNode hcommon (reports_ok ⟨trivial, fun next h => ?_⟩)
      exact absurd h (not_below (by simp) (by simp))

/-! ### Completeness -/

omit [Runtime] in
theorem LengthObjection.not_lengthOk {schema : JsonObject} {length : ℕ} {complaint : String}
    (h : LengthObjection schema length complaint) : ¬ LengthOk schema length := by
  intro hok
  cases h with
  | least hm hover => exact hover (hok.least _ hm)
  | most hm hover => exact hover (hok.most _ hm)

omit [Runtime] in
theorem NumberObjection.not_numberOk {schema : JsonObject} {value : Number} {complaint : String}
    (h : NumberObjection schema value complaint) : ¬ NumberOk schema value := by
  intro hok
  cases h with
  | least hm hover => exact hover (hok.least _ hm)
  | most hm hover => exact hover (hok.most _ hm)

theorem Objection.not_nodeOk {schema value : Json} {path complaint : String}
    (h : Objection schema value complaint) : ¬ NodeOk ⟨schema, value, path⟩ := by
  cases h with
  | type ht hnot => exact fun hok => hnot ((nodeOk_obj.mp hok).1.type _ ht)
  | const hc hne =>
    intro hok
    have heq := (nodeOk_obj.mp hok).1.const _ hc
    rw [hne] at heq
    exact absurd heq Bool.false_ne_true
  | enum he hne => exact fun hok => hne ((nodeOk_obj.mp hok).1.enum _ he)
  | required hr hmissing =>
    intro hok
    obtain ⟨required, hr', hall⟩ := (nodeOk_obj.mp hok).2.1
    cases hr.symm.trans hr'
    exact hmissing (List.filter_eq_nil_iff.mpr fun item hi => by simpa using hall item hi)
  | additional hclosed hp hunknown =>
    intro hok
    have hall := (nodeOk_obj.mp hok).2.2 hclosed _ hp
    exact hunknown (List.filter_eq_nil_iff.mpr fun name hn => by simpa using hall name hn)
  | items hl => exact fun hok => hl.not_lengthOk (nodeOk_obj.mp hok).2
  | length hl =>
    intro hok
    have htext : TextOk _ _ := (nodeOk_obj.mp hok).2
    exact hl.not_lengthOk htext.length
  | pattern hp hs =>
    intro hok
    have htext : TextOk _ _ := (nodeOk_obj.mp hok).2
    obtain ⟨pattern, he, -, htrue⟩ := htext.pattern _ hp
    obtain ⟨pattern', he', -, hfalse⟩ := hs
    cases he.symm.trans he'
    cases htrue.symm.trans hfalse
  | int hn => exact fun hok => hn.not_numberOk (nodeOk_obj.mp hok).2
  | float hn => exact fun hok => hn.not_numberOk (nodeOk_obj.mp hok).2

/-- **Validation is complete.** A well-formed schema accepts a value exactly if every node that is
come by passes its own checks; a message names a node that fails one, and the check. -/
theorem validate_complete {schema : Json} (h : WellFormed schema) (value : Json) (path : String) :
    (validate value schema path = .ok () ↔
        ∀ node, Reaches ⟨schema, value, path⟩ node → NodeOk node) ∧
      ∀ e, validate value schema path = .error e →
        ∃ node complaint, Reaches ⟨schema, value, path⟩ node ∧ ¬ NodeOk node ∧
          Objection node.schema node.value complaint ∧
          e = .payloadSchemaError (node.path ++ complaint) := by
  have hreports := reports_validate h value path
  refine ⟨hreports.ok_iff, fun e he => ?_⟩
  obtain ⟨message, rfl, node, complaint, hreach, hobj, rfl⟩ := hreports.error he
  exact ⟨node, complaint, hreach, hobj.not_nodeOk, hobj, rfl⟩

omit [Runtime] in
/-- The message about projects that are no list. -/
theorem validate_complete_sample :
    let _ := Runtime.sample
    ∃ node complaint,
      Reaches ⟨.obj sampleTyped.val.payloadSchema, .obj [("projects", .int 1)], "$"⟩ node ∧
        ¬ NodeOk node ∧ Objection node.schema node.value complaint ∧
        SchemaError.payloadSchemaError "$.projects must be array" =
          .payloadSchemaError (node.path ++ complaint) := by
  let _ := Runtime.sample
  exact (validate_complete wellFormed_sampleTyped (.obj [("projects", .int 1)]) "$").2 _ rfl

end EventServer.Core.SchemaCompleteness
