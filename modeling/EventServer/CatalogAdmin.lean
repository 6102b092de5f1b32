import EventServer.Core.SchemaValidation
import EventServer.Core.MatchKeys
import EventServer.Db.Models

/-! # Registering event types

`catalog_admin.py`: a catalog entry that has passed the checks of its model is written over the
event type of its key, whose schema version must not change. -/

namespace EventServer.CatalogAdmin

open EventServer.Db EventServer.Python EventServer.Core EventServer.Core.SchemaValidation

structure MatchKeyOption where
  key : String
  label : String

def MatchKeyOption.modelDump (o : MatchKeyOption) : Json :=
  .obj [("key", .str o.key), ("label", .str o.label)]

structure CatalogEntry where
  eventKey : String
  displayName : String
  description : String := ""
  schemaVersion : ℤ := 1
  payloadSchema : JsonObject := []
  subscribable : Bool := true
  matchKeyField : Option String := none
  matchKeyOptions : List MatchKeyOption := []
  matchKeysRequired : Bool := false

def isLowerDigit (c : Char) : Bool := ('a' ≤ c && c ≤ 'z') || ('0' ≤ c && c ≤ '9')

/-- The segments of a text between its dots. -/
def segments : List Char → List (List Char)
  | [] => [[]]
  | c :: cs =>
    if c = '.' then [] :: segments cs
    else
      match segments cs with
      | [] => [[c]]
      | w :: ws => (c :: w) :: ws

/-- The pattern `^[a-z0-9]+(?:\.[a-z0-9_]+){2,}$` of event keys. -/
def isEventKey (s : String) : Bool :=
  match segments s.toList with
  | first :: rest =>
    first ≠ [] && first.all isLowerDigit && 2 ≤ rest.length &&
      rest.all fun w => w ≠ [] && w.all fun c => isLowerDigit c || c = '_'
  | [] => false

namespace CatalogEntry

/-- The constraints on the single fields. -/
def fieldsValid (e : CatalogEntry) : Bool :=
  isEventKey e.eventKey && e.eventKey.length ≤ 128 &&
    1 ≤ e.displayName.length && e.displayName.length ≤ 200 && e.description.length ≤ 4000 &&
    1 ≤ e.schemaVersion &&
    (match e.matchKeyField with
      | none => true
      | some field => 1 ≤ field.length && field.length ≤ 64 &&
          field.toList.all fun c => isLowerDigit c || c = '_') &&
    e.matchKeyOptions.length ≤ 64 &&
    e.matchKeyOptions.all fun o =>
      1 ≤ o.key.length && o.key.length ≤ 64 && o.key.toList.all MatchKeys.isMatchKeyChar &&
        1 ≤ o.label.length && o.label.length ≤ 100

/-- `validate_match_keys`. -/
def matchKeysValid (e : CatalogEntry) : Bool :=
  (e.matchKeyOptions.map (·.key)).Nodup &&
    (e.matchKeyOptions.isEmpty || e.matchKeyField.isSome) &&
    (e.matchKeyField.isNone || !e.matchKeyOptions.isEmpty) &&
    (!e.matchKeysRequired || e.matchKeyField.isSome) &&
    (!e.matchKeysRequired || !e.matchKeyOptions.isEmpty)

def valid (e : CatalogEntry) : Bool := e.fieldsValid && e.matchKeysValid

end CatalogEntry

/-- An entry as `CatalogEntry.model_validate` returns it. -/
abbrev ValidEntry := { e : CatalogEntry // e.valid = true }

/-- The assignments of `register` to the stored or new row. -/
def writeEntry (existing : EventType) (entry : CatalogEntry) : EventType :=
  { existing with
    displayName := entry.displayName
    description := entry.description
    schemaVersion := entry.schemaVersion
    payloadSchema := entry.payloadSchema
    subscribable := entry.subscribable
    matchKeyField := entry.matchKeyField
    matchKeyOptions := entry.matchKeyOptions.map MatchKeyOption.modelDump
    matchKeysRequired := entry.matchKeysRequired
    enabled := true
    deprecatedAt := none }

variable [Runtime]

/-- The check of the schema against the empty payload; a report of missing fields is let through. -/
def checkSchema (schema : JsonObject) : Except Raised Unit :=
  match validatePayload schema [] with
  | .ok () => .ok ()
  | .error .reError => .error .reError
  | .error (.payloadSchemaError message) =>
    if "missing required fields".toList <:+: message.toList then .ok ()
    else .error (.valueError ("invalid payload schema: " ++ message))

def register (s : Store) (entry : ValidEntry) : Except Raised Store :=
  match checkSchema entry.val.payloadSchema with
  | .error e => .error e
  | .ok () =>
    match s.eventTypes.get entry.val.eventKey with
    | some existing =>
      if existing.schemaVersion ≠ entry.val.schemaVersion then
        .error (.valueError
          "schema_version changes require a new event key or an explicit migration")
      else .ok { s with eventTypes := s.eventTypes.put (writeEntry existing entry.val) }
    | none =>
      let new : EventType :=
        { eventKey := entry.val.eventKey, displayName := entry.val.displayName }
      .ok { s with eventTypes := s.eventTypes.put (writeEntry new entry.val) }

end EventServer.CatalogAdmin
