import EventServer.DemoReminder.Service
import EventServer.ScheduledReminder.Client

/-! # What the demo ingress sends

`messages.py` and `client.py`: the payload of an accepted reminder, with the message that is
rendered in the display time zone, the call of the server and what is read from its answer. `submit`
is the whole way from the arguments to the result, with the requests that the publisher is called
with. -/

namespace EventServer.DemoReminder

open EventServer.Lib EventServer.Python
open EventServer.ScheduledReminder (ZoneInfo scheduledAt)

/-! ### Texts -/

/-- `s.replace(microsecond=0)`. -/
def wholeSecond (t : Time) : Time := t - t % seconds 1

/-- `to_utc_iso` of a point in time in UTC. -/
def toUtcIso (t : Time) : String := scheduledAt (wholeSecond t)

/-- `humanize_delay`. -/
def humanizeDelay (n : ℤ) : String :=
  if n ≤ 0 then "立即"
  else
    let hours := n.toNat / 3600
    let minutes := n.toNat % 3600 / 60
    let secs := n.toNat % 3600 % 60
    " ".intercalate ((if hours = 0 then [] else [toString hours ++ " 小时"]) ++
      (if minutes = 0 then [] else [toString minutes ++ " 分钟"]) ++
      if secs = 0 then [] else [toString secs ++ " 秒"])

example : humanizeDelay 5400 = "1 小时 30 分钟" := by decide

/-- `local.strftime("%m-%d %H:%M")`. -/
def stamp (wall : Time) : List Char :=
  let s := (wall % day).toNat / 1000000
  decPad 2 (dateOf wall).month ++ '-' :: decPad 2 (dateOf wall).day ++
    ' ' :: decPad 2 (s / 3600) ++ ':' :: decPad 2 (s / 60 % 60)

/-- `_offset_label`. -/
def offsetLabel (offset : ℤ) : List Char :=
  let totalMinutes := offset / minutes 1
  "UTC".toList ++ (if 0 ≤ totalMinutes then '+' else '-') ::
    decPad 2 (totalMinutes.natAbs / 60) ++ ':' :: decPad 2 (totalMinutes.natAbs % 60)

/-- `_timing`. -/
def timing (request : ReminderRequest) (zone : ZoneInfo) : Except Raised String := do
  let wall ← checked (zone.fromutc request.notifyAt).1
  let offset := zone.utcoffset wall (zone.fromutc request.notifyAt).2
  let after := if request.delaySeconds ≤ 0 then "立即触发" else humanizeDelay
    request.delaySeconds ++ "后"
  .ok ("提醒时间：" ++ String.ofList (stamp wall) ++ "（" ++ String.ofList (offsetLabel offset) ++ "，" ++
    after ++ "）")

/-- `EVENT_KEY`. -/
def eventKey : String := "demo.reminder.scheduled"

/-- The message with this line on the timing. -/
def message (request : ReminderRequest) (line : String) : Fields :=
  [(.of "title", .str request.title), (.of "text", .str (request.text ++ .of ("\n" ++ line))),
    (.of "data", .obj [(.of "request_id", .str request.requestId),
      (.of "delay_seconds", .int request.delaySeconds),
      (.of "notify_at", .str (.of (toUtcIso request.notifyAt)))]),
    (.of "template_key", .str (.of (eventKey ++ ".default"))), (.of "template_version", .int 1)]

/-- `render`. -/
def render (request : ReminderRequest) (zone : ZoneInfo) : Except Raised Fields :=
  (timing request zone).map (message request)

/-- The payload with this message. -/
def payload (request : ReminderRequest) (message : Fields) : Fields :=
  [(.of "event_key", .str (.of eventKey)), (.of "schema_version", .int 1),
    (.of "dedupe_key", .str request.dedupeKey),
    (.of "occurred_at", .str (.of (toUtcIso request.requestedAt))),
    (.of "notify_at", .str (.of (toUtcIso request.notifyAt))),
    (.of "subject", .obj [(.of "type", .str (.of "reminder")), (.of "id", .str request.requestId)]),
    (.of "data", .obj [(.of "request_id", .str request.requestId),
      (.of "delay_seconds", .int request.delaySeconds),
      (.of "notify_at", .str (.of (toUtcIso request.notifyAt)))]),
    (.of "metadata", .obj [(.of "source", .str (.of "demo-reminder"))]),
    (.of "messages", .obj [(.of "default", .obj message)])]

/-- `build_payload`. -/
def buildPayload (settings : PublisherSettings)
    (request : ReminderRequest) : Except Raised Fields :=
  (render request settings.displayTimezone).map (payload request)

/-! ### The call -/

/-- The request to the server; the body is the JSON that is read from the bytes sent. -/
structure HttpRequest where
  url : Str
  headers : List (String × Str)
  body : JsonObject

/-- How `urlopen` ends. -/
inductive Reply where
  | response (status : ℤ) (raw : List UInt8)
  | httpError (code : ℤ)
  | urlError
  /-- Another exception, such as an answer that breaks off. -/
  | raises

structure PublishResult where
  eventId : Str
  created : Bool
  deliveriesCreated : ℤ
  /-- The wall clock and the offset, if it has one. -/
  notifyAt : Option (Time × Option ℤ)

def publishError {α : Type} (message : String) : Except Raised α :=
  .error (.publishError (.of message))

/-- `_integer_or_zero`. -/
def integerOrZero : Value → ℤ
  | .int n => n
  | _ => 0

section

variable [Stdlib]

/-- `_parse_timestamp`. -/
def parseTimestamp : Value → Option (Time × Option ℤ)
  | .str s => Stdlib.datetimeFromIsoformat s
  | _ => none

/-- `_parse_response`. -/
def parseResponse (raw : List UInt8) : Except Raised PublishResult :=
  match Stdlib.loads raw with
  | .error .unicodeDecodeError => publishError "EventServer returned a malformed response"
  | .error (.jsonDecodeError _) => publishError "EventServer returned a malformed response"
  | .error .valueError => .error .valueError
  | .error .recursionError => .error .recursionError
  | .ok (.obj data) =>
    match Fields.get data "event_id" with
    | .str eventId =>
      if eventId = [] then publishError "EventServer response is missing event_id"
      else .ok
        { eventId
          created := (Fields.get data "created").isTrue
          deliveriesCreated := integerOrZero (Fields.get data "deliveries_created")
          notifyAt := parseTimestamp (Fields.get data "notify_at") }
    | _ => publishError "EventServer response is missing event_id"
  | .ok _ => publishError "EventServer returned a malformed response"

/-- `MAX_RESPONSE_BYTES`. -/
def maxResponseBytes : ℕ := 65536

/-- The request of `publish`. -/
def httpRequest (settings : PublisherSettings) (body : JsonObject) : HttpRequest where
  url := settings.eventServerUrl ++ .of "/v1/publish/events"
  headers := [("Authorization", .of "Bearer " ++ settings.publisherToken),
    ("Content-Type", .of "application/json"), ("User-Agent", .of "AutoQQ-DemoReminder/0.1.0")]
  body

/-- What is made of the answer. -/
def received : Reply → Except Raised PublishResult
  | .httpError code => publishError ("EventServer returned HTTP " ++ toString code)
  | .urlError => publishError "EventServer is unreachable"
  | .raises => .error .transportError
  | .response status raw =>
    if status ≠ 200 then publishError ("EventServer returned HTTP " ++ toString status)
    else if maxResponseBytes < raw.length then
      publishError "EventServer response exceeds the 64 KiB limit"
    else parseResponse raw

/-- `EventServerClient.publish`. -/
def publish (settings : PublisherSettings) (urlopen : HttpRequest → Reply)
    (request : ReminderRequest) :
    Except Raised PublishResult := do
  let payload ← buildPayload settings request
  match jsonFields? payload with
  | none => .error .unicodeEncodeError
  | some body => received (urlopen (httpRequest settings body))

/-- The clock, what is generated at random, and the server. -/
structure World where
  now : Time
  now_range : InRange now
  uuid : Uuid
  urlopen : HttpRequest → Reply

/-- `ReminderService.submit`: the requests that the publisher is called with, and the result. -/
def submit (settings : PublisherSettings) (world : World) (args : Arguments) :
    List ReminderRequest × Except Raised PublishResult :=
  match prepare settings world.now world.uuid args with
  | .error e => ([], .error e)
  | .ok request => ([request], publish settings world.urlopen request)

end

end EventServer.DemoReminder
