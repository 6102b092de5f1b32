import EventServer.Python.Json

/-! # Validation of event payloads

`core/schema_validation.py`: the JSON Schema subset events are checked against. The recursion
follows the value: `fieldChecks` and `itemChecks` turn the parts of a dictionary or list into the
checks the schema's `properties` and `items` then apply to them. -/

namespace EventServer.Core.SchemaValidation

open EventServer.Python

/-- What a validation raises: a `PayloadSchemaError`, or the `re.error` of a pattern that does not
compile. -/
inductive SchemaError where
  | payloadSchemaError (message : String)
  | reError
  deriving DecidableEq

/-- A value waiting for its schema and its path. -/
abbrev Check := Json → String → Except SchemaError Unit

def fail {α : Type} (message : String) : Except SchemaError α :=
  .error (.payloadSchemaError message)

/-- The entry for one type name; a name without one raises. -/
def matchesTypeName (value : Json) : String → Except SchemaError Bool
  | "object" => .ok (match value with | .obj _ => true | _ => false)
  | "array" => .ok (match value with | .arr _ => true | _ => false)
  | "string" => .ok (match value with | .str _ => true | _ => false)
  | "number" => .ok (match value with | .int _ | .float _ => true | _ => false)
  | "integer" => .ok (match value with | .int _ => true | _ => false)
  | "boolean" => .ok (match value with | .bool _ => true | _ => false)
  | "null" => .ok (match value with | .null => true | _ => false)
  | _ => fail "unsupported schema type"

/-- `any(...)` over the type names: it stops at the first that matches. -/
def anyType (value : Json) : List String → Except SchemaError Bool
  | [] => .ok false
  | choice :: choices =>
    match matchesTypeName value choice with
    | .error e => .error e
    | .ok true => .ok true
    | .ok false => anyType value choices

/-- The strings of a list that holds nothing else. -/
def strings? : List Json → Option (List String)
  | [] => some []
  | .str s :: items => (strings? items).map (s :: ·)
  | _ :: _ => none

def matchesType (schemaType value : Json) : Except SchemaError Bool :=
  let choices := match schemaType with
    | .arr items => items
    | other => [other]
  match strings? choices with
  | none => fail "schema type must be a string or list of strings"
  | some names => anyType value names

/-- `schema.get(key)`, where an absent key and `null` are alike. -/
def getKey (schema : JsonObject) (key : String) : Option Json :=
  match schema.lookup key with
  | some .null | none => none
  | some v => some v

/-- `schema.get(key, schema.get(other))`, compared with `None`. -/
def getEither (schema : JsonObject) (key other : String) : Option Json :=
  match schema.lookup key with
  | some .null => none
  | some v => some v
  | none => getKey schema other

def boundedLength (schema : JsonObject) (length : ℕ) (path : String) : Except SchemaError Unit :=
  let below := match getEither schema "minLength" "minItems" with
    | none => false
    | some minimum => match minimum.int? with
      | none => true
      | some n => (length : ℤ) < n
  let above := match getEither schema "maxLength" "maxItems" with
    | none => false
    | some maximum => match maximum.int? with
      | none => true
      | some n => (length : ℤ) > n
  if below then fail (path ++ " is shorter than the configured minimum")
  else if above then fail (path ++ " exceeds the configured maximum")
  else .ok ()

variable [Runtime]

/-- The checks `_validate` makes on a value of any kind. -/
def validateCommon (schema : JsonObject) (value : Json) (path : String) : Except SchemaError Unit :=
  let typed : Except SchemaError Unit := match getKey schema "type" with
    | none => .ok ()
    | some schemaType =>
      match matchesType schemaType value with
      | .error e => .error e
      | .ok true => .ok ()
      | .ok false => fail (path ++ " must be " ++ schemaType.toStr)
  match typed with
  | .error e => .error e
  | .ok () =>
    if (match schema.lookup "const" with
        | some c => !value.pyEq c
        | none => false) then fail (path ++ " must equal the configured const")
    else if (match schema.lookup "enum" with
        | some (.arr options) => !options.any fun option => value.pyEq option
        | some _ => true
        | none => false) then fail (path ++ " is not an allowed value")
    else .ok ()

/-- The loop over `properties`: a child schema is applied to the field of its name, if there is
one. -/
def validateProperties (children : List (String × Check)) (path : String) :
    List (String × Json) → Except SchemaError Unit
  | [] => .ok ()
  | (name, childSchema) :: properties =>
    match (match children.lookup name with
      | some check => check childSchema (path ++ "." ++ name)
      | none => .ok ()) with
    | .error e => .error e
    | .ok () => validateProperties children path properties

def validateObject (schema : JsonObject) (children : List (String × Check)) (path : String) :
    Except SchemaError Unit :=
  match (match schema.lookup "required" with
    | none => some []
    | some (.arr items) => strings? items
    | some _ => none) with
  | none => fail "schema required must be a string list"
  | some required =>
    let missing := required.filter fun item => item ∉ children.map Prod.fst
    if missing ≠ [] then
      fail (path ++ " is missing required fields: " ++ joinStr ", " missing)
    else
      match (match schema.lookup "properties" with
        | none => some []
        | some (.obj fields) => some fields
        | some _ => none) with
      | none => fail "schema properties must be an object"
      | some properties =>
        let unknown := (children.map Prod.fst).filter fun name => name ∉ properties.map Prod.fst
        if (match schema.lookup "additionalProperties" with
            | some (.bool false) => true
            | _ => false) && !unknown.isEmpty then
          fail (path ++ " has undeclared fields: " ++ joinStr ", " (sortedStr unknown))
        else validateProperties children path properties

/-- The loop over the items of a list, from index `index`. -/
def validateItems (itemSchema : Json) (path : String) : ℕ → List Check → Except SchemaError Unit
  | _, [] => .ok ()
  | index, check :: checks =>
    match check itemSchema (path ++ "[" ++ toString index ++ "]") with
    | .error e => .error e
    | .ok () => validateItems itemSchema path (index + 1) checks

def validateArray (schema : JsonObject) (items : List Check) (path : String) :
    Except SchemaError Unit :=
  match boundedLength schema items.length path with
  | .error e => .error e
  | .ok () =>
    match getKey schema "items" with
    | none => .ok ()
    | some itemSchema => validateItems itemSchema path 0 items

def validateString (schema : JsonObject) (value path : String) : Except SchemaError Unit :=
  match boundedLength schema value.length path with
  | .error e => .error e
  | .ok () =>
    match getKey schema "pattern" with
    | none => .ok ()
    | some (.str pattern) =>
      if pattern.length > 256 then fail "schema pattern must be a string up to 256 characters"
      else
        match Runtime.reSearch pattern value with
        | none => .error .reError
        | some true => .ok ()
        | some false => fail (path ++ " does not match the configured pattern")
    | some _ => fail "schema pattern must be a string up to 256 characters"

def validateNumber (schema : JsonObject) (value : Number) (path : String) :
    Except SchemaError Unit :=
  if (match getKey schema "minimum" with
      | none => false
      | some minimum => match minimum.number? with
        | none => true
        | some n => value.lt n) then fail (path ++ " is below the configured minimum")
  else if (match getKey schema "maximum" with
      | none => false
      | some maximum => match maximum.number? with
        | none => true
        | some n => n.lt value) then fail (path ++ " exceeds the configured maximum")
  else .ok ()

/-- `_validate` up to the part that depends on the kind of the value, `byKind`. -/
def validateNode (value : Json) (byKind : JsonObject → String → Except SchemaError Unit) : Check :=
  fun schema path =>
    match schema with
    | .obj fields =>
      match validateCommon fields value path with
      | .error e => .error e
      | .ok () => byKind fields path
    | _ => fail "payload schema must be an object"

mutual

/-- `_validate(schema, value, path)`. -/
def validate : Json → Check
  | .obj fields => validateNode (.obj fields) fun schema path =>
      validateObject schema (fieldChecks fields) path
  | .arr items => validateNode (.arr items) fun schema path =>
      validateArray schema (itemChecks items) path
  | .str s => validateNode (.str s) fun schema path => validateString schema s path
  | .int n => validateNode (.int n) fun schema path => validateNumber schema (.finite n) path
  | .float x => validateNode (.float x) fun schema path => validateNumber schema x path
  | .bool b => validateNode (.bool b) fun _ _ => .ok ()
  | .null => validateNode .null fun _ _ => .ok ()

def fieldChecks : List (String × Json) → List (String × Check)
  | [] => []
  | (name, value) :: fields => (name, validate value) :: fieldChecks fields

def itemChecks : List Json → List Check
  | [] => []
  | value :: items => validate value :: itemChecks items

end

/-- `validate_payload`. -/
def validatePayload (schema value : JsonObject) : Except SchemaError Unit :=
  if schema.isEmpty then .ok () else validate (.obj value) (.obj schema) "$"

end EventServer.Core.SchemaValidation
