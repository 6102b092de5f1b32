import EventServer.DemoReminder.Client

/-! # The handler of the demo ingress

`server.py`: `do_GET` and `do_POST` of one request. What a request does is kept in `Exchange`: the
bytes it has left unread and those it has read as its body, the calls of `submit` and of the
publisher, and the responses it has written. A handler ends with an exception if nothing catches
it. -/

namespace EventServer.DemoReminder

open EventServer.Lib EventServer.Python

/-- A request up to its body. -/
structure Head where
  method : String
  path : Str
  authorization : Option Str
  contentLength : Option Str
  /-- The client has asked to close the connection. -/
  closes : Bool
  deriving DecidableEq

structure Response where
  status : ℕ
  payload : Fields

structure Exchange where
  unread : List UInt8
  body : List UInt8 := []
  submitted : List Arguments := []
  published : List ReminderRequest := []
  responses : List Response := []

/-- An exchange, and how the handler has ended. -/
abbrev Handled (α : Type) := Exchange × Except Raised α

/-- `REMINDER_PATH`. -/
def reminderPath : Str := .of "/v1/reminders"

/-- `ALLOWED_FIELDS`. -/
def allowedFields : List Str :=
  [.of "text", .of "title", .of "delay", .of "delay_seconds", .of "at", .of "dedupe_key"]

/-- `USAGE`. -/
def usage : Fields :=
  [(.of "service", .str (.of "autoqq-demo-reminder")), (.of "version", .str (.of "0.1.0")),
    (.of "usage", .obj
      [(.of "method", .str (.of "POST")), (.of "path", .str reminderPath),
        (.of "headers", .obj [(.of "Authorization", .str (.of "Bearer <INGRESS_TOKEN>"))]),
        (.of "body", .obj
          [(.of "text", .str (.of "提醒内容（必填）")),
            (.of "title", .str (.of "标题，默认「演示提醒」")),
            (.of "delay", .str (.of "延迟，例如 5m / 10min / 90s / 1h，纯数字按分钟解释")),
            (.of "at", .str (.of "绝对时间（ISO-8601 带时区），与 delay 互斥")),
            (.of "dedupe_key", .str (.of "可选；重复提交同一个 key 只会发布一次"))]),
        (.of "example", .obj [(.of "delay", .str (.of "5m")),
          (.of "text", .str (.of "5 分钟后提醒我一下"))])])]

/-! ### Reading and writing -/

/-- `_respond`: a payload with surrogates cannot be encoded. -/
def respond (status : ℕ) (payload : Fields) (x : Exchange) : Handled Unit :=
  match jsonFields? payload with
  | none => (x, .error .unicodeEncodeError)
  | some _ => ({ x with responses := x.responses ++ [⟨status, payload⟩] }, .ok ())

/-- `{"error": message}`. -/
def errorPayload (message : Str) : Fields := [(.of "error", .str message)]

/-- `rfile.read(length)`. -/
def read (length : ℤ) (x : Exchange) : Handled (List UInt8) :=
  if length < -9223372036854775808 then (x, .error .overflowError)
  else if length < -1 then (x, .error .valueError)
  else if length = -1 then ({ x with unread := [], body := x.unread }, .ok x.unread)
  else
    ({ x with unread := x.unread.drop length.toNat, body := x.unread.take length.toNat },
      .ok (x.unread.take length.toNat))

/-- `hmac.compare_digest(a, b)`. -/
def compareDigest (a b : Str) : Except Raised Bool :=
  if a.isAscii ∧ b.isAscii then .ok (a = b) else .error .typeError

/-- `"Bearer "`. -/
def bearer : Str := .of "Bearer "

/-- `_authorized`. -/
def authorized (settings : PublisherSettings) (head : Head) : Except Raised Bool :=
  let expected := settings.ingressToken.getD []
  let header := head.authorization.getD []
  if expected = [] then .ok false
  else if ¬ bearer <+: header then .ok false
  else compareDigest (Str.strip (header.drop bearer.length)) expected

/-- The order of texts. -/
def strLe : Str → Str → Bool
  | [], _ => true
  | _ :: _, [] => false
  | c :: s, c' :: s' => c.toNat < c'.toNat || (c.toNat = c'.toNat && strLe s s')

/-- `sorted(set(payload) - set(ALLOWED_FIELDS))`. -/
def unknownFields (payload : Fields) : List Str :=
  ((payload.map Prod.fst).filter (· ∉ allowedFields)).dedup.insertionSort fun s s' => strLe s s'

/-- The fields of the payload, as arguments. -/
def arguments (payload : Fields) : Arguments where
  text := payload.get "text"
  title := payload.get "title"
  delay := payload.get "delay"
  delaySeconds := payload.get "delay_seconds"
  at_ := payload.get "at"
  dedupeKey := payload.get "dedupe_key"

variable [Stdlib]

/-- `_read_body`: the body, unless a response has been written. -/
def readBody (maxBodyBytes : ℕ) (head : Head) (x : Exchange) : Handled (Option (List UInt8)) :=
  match Stdlib.intOfStr (head.contentLength.getD []) with
  | none =>
    (respond 411 (errorPayload (.of "Content-Length is required")) x).map id (·.map fun _ => none)
  | some length =>
    if (maxBodyBytes : ℤ) < length then
      (respond 413 (errorPayload (.of "body is too large")) x).map id (·.map fun _ => none)
    else (read length x).map id (·.map some)

/-- `value.astimezone(UTC)`. -/
def toUtc : Time × Option ℤ → Except Raised Time
  | (wall, some offset) => checked (wall - offset)
  | (wall, none) =>
    match Stdlib.localToUtc wall with
    | some t => .ok t
    | none => .error .overflowError

/-- `to_utc_iso(result.notify_at) if result.notify_at else None`. -/
def notifyAtValue (result : PublishResult) : Except Raised Value :=
  match result.notifyAt with
  | none => .ok .null
  | some value => (toUtc value).map fun t => .str (.of (toUtcIso t))

/-- `_serialize`. -/
def serialize (result : PublishResult) : Except Raised Fields :=
  (notifyAtValue result).map fun notifyAt =>
    [(.of "event_id", .str result.eventId), (.of "created", .bool result.created),
      (.of "deliveries_created", .int result.deliveriesCreated), (.of "notify_at", notifyAt)]

/-! ### Requests -/

/-- The part of `do_POST` after `submit` has returned or raised. -/
def answer (result : Except Raised PublishResult) (x : Exchange) : Handled Unit :=
  match result with
  | .error (.reminderInputError message) => respond 400 (errorPayload message) x
  | .error (.delayError message) => respond 400 (errorPayload message) x
  | .error (.publishError message) => respond 502 (errorPayload message) x
  | .error e => (x, .error e)
  | .ok result =>
    match serialize result with
    | .error e => (x, .error e)
    | .ok payload => respond 200 payload x

/-- The part of `do_POST` after the fields are checked. -/
def handleFields (settings : PublisherSettings) (world : World) (payload : Fields) (x : Exchange) :
    Handled Unit :=
  let result := submit settings world (arguments payload)
  answer result.2
    { x with
      submitted := x.submitted ++ [arguments payload]
      published := x.published ++ result.1 }

/-- The part of `do_POST` after the body is read. -/
def handleBody (settings : PublisherSettings) (world : World) (raw : List UInt8) (x : Exchange) :
    Handled Unit :=
  let refused := respond 400 (errorPayload (.of "body must be a JSON object")) x
  match Stdlib.loads raw with
  | .error .unicodeDecodeError => refused
  | .error (.jsonDecodeError _) => refused
  | .error .valueError => (x, .error .valueError)
  | .error .recursionError => (x, .error .recursionError)
  | .ok (.obj payload) =>
    if unknownFields payload = [] then handleFields settings world payload x
    else
      respond 400 (errorPayload (.of "unsupported fields: " ++
        List.intercalate (Str.of ", ") (unknownFields payload))) x
  | .ok _ => refused

/-- `do_POST`. -/
def doPost (settings : PublisherSettings) (world : World) (head : Head) (x : Exchange) :
    Handled Unit :=
  match Stdlib.urlPath head.path with
  | none => (x, .error .valueError)
  | some path =>
    if path ≠ reminderPath then respond 404 (errorPayload (.of "not found")) x
    else
      match authorized settings head with
      | .error e => (x, .error e)
      | .ok false => respond 401 (errorPayload (.of "missing or invalid ingress token")) x
      | .ok true =>
        match readBody settings.maxBodyBytes head x with
        | (x, .error e) => (x, .error e)
        | (x, .ok none) => (x, .ok ())
        | (x, .ok (some raw)) => handleBody settings world raw x

/-- `do_GET`. -/
def doGet (head : Head) (x : Exchange) : Handled Unit :=
  match Stdlib.urlPath head.path with
  | none => (x, .error .valueError)
  | some path =>
    if path = .of "/health" then
      respond 200 [(.of "status", .str (.of "ok")), (.of "version", .str (.of "0.1.0"))] x
    else if path = .of "/" ∨ path = reminderPath then respond 200 usage x
    else respond 404 (errorPayload (.of "not found")) x

end EventServer.DemoReminder
