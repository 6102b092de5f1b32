import EventServer.Api.Publish
import EventServer.Core.SchemaValidation

/-! # The body of a publish request

`PublishEventRequest` of `api/schemas.py` from the JSON of a request: which fields there are, what
they are converted to, and which constraints they meet. `Pydantic` collects the conversions of texts
and numbers. -/

namespace EventServer.Api.Publish

open EventServer.Db EventServer.Python

/-- The conversions of the validation library. -/
class Pydantic where
  /-- A text as an integer. -/
  intOfStr : String → Option ℤ
  /-- A text as a `datetime`. -/
  datetimeOfStr : String → Option DateTime
  /-- A number as a `datetime`. -/
  datetimeOfNumber : Number → Option DateTime

/-- A field of type `str`. -/
def strField (fields : JsonObject) (key : String) : Option String :=
  match fields.lookup key with
  | some (.str value) => some value
  | _ => none

/-- A field of type `dict[str, Any]`. -/
def dictField (fields : JsonObject) (key : String) : Option JsonObject :=
  match fields.lookup key with
  | some (.obj value) => some value
  | _ => none

/-- A field of type `dict[str, Any]` with the default `{}`. -/
def dictFieldOr (fields : JsonObject) (key : String) : Option JsonObject :=
  if (fields.lookup key).isNone then some [] else dictField fields key

section

variable [Pydantic]

/-- The integer a value is converted to. -/
def toInt : Json → Option ℤ
  | .bool b => some (if b then 1 else 0)
  | .int n => some n
  | .float (.finite q) => if q.den = 1 then some q.num else none
  | .float .negZero => some 0
  | .str s => Pydantic.intOfStr s
  | _ => none

/-- The `datetime` a value is converted to. -/
def toDatetime : Json → Option DateTime
  | .str s => Pydantic.datetimeOfStr s
  | .int n => Pydantic.datetimeOfNumber (.finite n)
  | .float x => Pydantic.datetimeOfNumber x
  | _ => none

/-- A field of type `datetime | None`. -/
def optionalDatetime (fields : JsonObject) (key : String) : Option (Option DateTime) :=
  match fields.lookup key with
  | none | some .null => some none
  | some value => (toDatetime value).map some

/-- A `DeliveryMessage`, before its constraints. -/
def parseMessage : Json → Option DeliveryMessage
  | .obj fields => do
    let title ← strField fields "title"
    let text ← strField fields "text"
    let data ← dictFieldOr fields "data"
    let templateKey ← strField fields "template_key"
    let templateVersion ← (fields.lookup "template_version").bind toInt
    some ⟨title, text, data, templateKey, templateVersion⟩
  | _ => none

/-- The messages by locale. -/
def parseMessages : JsonObject → Option (List (String × DeliveryMessage))
  | [] => some []
  | (locale, message) :: messages => do
    let message ← parseMessage message
    let messages ← parseMessages messages
    some ((locale, message) :: messages)

/-- A `PublishEventRequest`, before its constraints. -/
def parseRequest (fields : JsonObject) : Option PublishEventRequest := do
  let eventKey ← strField fields "event_key"
  let schemaVersion ← (fields.lookup "schema_version").bind toInt
  let dedupeKey ← strField fields "dedupe_key"
  let occurredAt ← (fields.lookup "occurred_at").bind toDatetime
  let notifyAt ← optionalDatetime fields "notify_at"
  let subject ← dictField fields "subject"
  let data ← dictField fields "data"
  let metadata ← dictFieldOr fields "metadata"
  let messages ← (dictField fields "messages").bind parseMessages
  some ⟨eventKey, schemaVersion, dedupeKey, occurredAt, notifyAt, subject, data, metadata, messages⟩

/-- The body as the API function receives it, unless it is refused with 422. -/
def validRequest (fields : JsonObject) : Option ValidRequest :=
  match parseRequest fields with
  | none => none
  | some body => if h : body.valid = true then some ⟨body, h⟩ else none

/-- The payload is a valid event: the request is accepted, with a time that has an offset, and so is
its data under the schema of the event type. -/
def Publishable [Runtime] (schema payload : JsonObject) : Prop :=
  ∃ body : ValidRequest, validRequest payload = some body ∧
    (∃ t, body.val.occurredAt = .aware t) ∧
      Core.SchemaValidation.validatePayload schema body.val.data = .ok ()

theorem publishable_iff [Runtime] {schema payload : JsonObject}
    {body : PublishEventRequest} {t : Time} (hp : parseRequest payload = some body)
    (ht : body.occurredAt = .aware t) :
    Publishable schema payload ↔ body.valid = true ∧
      Core.SchemaValidation.validatePayload schema body.data = .ok () := by
  unfold Publishable validRequest
  rw [hp]
  by_cases hv : body.valid = true
  · simp only [dif_pos hv]
    constructor
    · rintro ⟨_, heq, -, hdata⟩
      cases heq
      exact ⟨hv, hdata⟩
    · rintro ⟨-, hdata⟩
      exact ⟨_, rfl, ⟨t, ht⟩, hdata⟩
  · simp only [dif_neg hv]
    constructor
    · rintro ⟨_, heq, -⟩
      cases heq
    · rintro ⟨hvalid, -⟩
      exact absurd hvalid hv

end

end EventServer.Api.Publish
