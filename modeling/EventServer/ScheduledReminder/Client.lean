import EventServer.ScheduledReminder.Scheduling
import EventServer.Lib.Table

/-! # What the publisher sends

`scheduled_reminder/client.py`: the request of an occurrence, whose `dedupe_key` is made of the id
of the reminder and the text of the instant. A request is sent if its texts can be encoded. A call
may fail before or after the server has stored the event; the server keeps one event for each
key. -/

namespace EventServer.ScheduledReminder

open EventServer.Lib EventServer.Python

/-- `s.replace("+00:00", "Z")`. -/
def replaceOffset : List Char → List Char
  | '+' :: '0' :: '0' :: ':' :: '0' :: '0' :: cs => 'Z' :: replaceOffset cs
  | c :: cs => c :: replaceOffset cs
  | [] => []

/-- `scheduled_at`, the text of the instant. -/
def scheduledAt (t : Time) : String := String.ofList (replaceOffset (isoformat t).toList)

example : scheduledAt (seconds 1789517700) = "2026-09-16T00:15:00Z" := by decide

theorem replaceOffset_append {cs : List Char} (h : '+' ∉ cs) :
    replaceOffset (cs ++ "+00:00".toList) = cs ++ ['Z'] := by
  induction cs with
  | nil => rfl
  | cons c cs ih =>
    rw [List.mem_cons, not_or] at h
    rw [List.cons_append, replaceOffset, ih h.2, List.cons_append]
    rintro rest he -
    exact h.1 he.symm

theorem scheduledAt_eq (t : Time) : scheduledAt t = String.ofList (isoClock t ++ ['Z']) := by
  unfold scheduledAt isoformat
  rw [String.toList_ofList, replaceOffset_append (plus_not_mem_isoClock t)]

theorem scheduledAt_inj {t t' : Time} (ht : InRange t) (ht' : InRange t')
    (h : scheduledAt t = scheduledAt t') : t = t' := by
  rw [scheduledAt_eq, scheduledAt_eq, String.ofList_inj] at h
  exact isoClock_inj ht ht' (List.append_cancel_right h)

def dedupeKey (reminderId : String) (t : Time) : String := reminderId ++ ":" ++ scheduledAt t

theorem toList_dedupeKey (reminderId : String) (t : Time) :
    (dedupeKey reminderId t).toList = reminderId.toList ++ ':' :: (scheduledAt t).toList := by
  unfold dedupeKey
  rw [String.toList_append, String.toList_append, List.append_assoc]
  rfl

theorem append_cons_inj {α : Type} {c : α} {a a' b b' : List α} (ha : c ∉ a) (ha' : c ∉ a')
    (h : a ++ c :: b = a' ++ c :: b') : a = a' ∧ b = b' := by
  induction a generalizing a' with
  | nil =>
    cases a' with
    | nil => exact ⟨rfl, (List.cons.inj h).2⟩
    | cons x a' => exact absurd (List.cons.inj h).1 fun he => ha' (he ▸ List.mem_cons_self)
  | cons x a ih =>
    cases a' with
    | nil => exact absurd (List.cons.inj h).1 fun he => ha (he ▸ List.mem_cons_self)
    | cons x' a' =>
      obtain ⟨rfl, htail⟩ := List.cons.inj h
      obtain ⟨rfl, hb⟩ := ih (List.not_mem_of_not_mem_cons ha)
        (List.not_mem_of_not_mem_cons ha') htail
      exact ⟨rfl, hb⟩

variable [Stdlib]

/-- **Keys are told apart**: an id has no colon, so the first colon of a key ends the id. -/
theorem dedupeKey_inj {id id' : String} {t t' : Time} (hid : isReminderId id = true)
    (hid' : isReminderId id' = true) (ht : InRange t) (ht' : InRange t')
    (h : dedupeKey id t = dedupeKey id' t') : id = id' ∧ t = t' := by
  have hlist := congrArg String.toList h
  rw [toList_dedupeKey, toList_dedupeKey] at hlist
  obtain ⟨hids, hat⟩ := append_cons_inj (colon_not_mem hid) (colon_not_mem hid') hlist
  exact ⟨String.toList_inj.mp hids, scheduledAt_inj ht ht' (String.toList_inj.mp hat)⟩

/-! ### Requests -/

/-- The parts of a payload; its texts may hold surrogates. -/
structure PublishRequest where
  eventKey : String
  schemaVersion : ℤ
  dedupeKey : String
  occurredAt : String
  subject : Fields
  data : Fields
  metadata : Fields
  messages : Fields

/-- The value of a text without surrogates. -/
def strOf (s : String) : Value := .str (.of s)

/-- The `dict` of a request. -/
def PublishRequest.payload (request : PublishRequest) : Fields :=
  [(.of "event_key", strOf request.eventKey), (.of "schema_version", .int request.schemaVersion),
    (.of "dedupe_key", strOf request.dedupeKey), (.of "occurred_at", strOf request.occurredAt),
    (.of "subject", .obj request.subject), (.of "data", .obj request.data),
    (.of "metadata", .obj request.metadata), (.of "messages", .obj request.messages)]

/-- `body`, as the server reads it, or `none` if the payload cannot be encoded. -/
def PublishRequest.body? (request : PublishRequest) : Option JsonObject :=
  jsonFields? request.payload

/-- The payload of `publish`. -/
def publishRequest (config : ReminderConfig) (due : DueReminder) : PublishRequest :=
  let scheduledAt := scheduledAt due.scheduledFor
  let rule := due.rule
  { eventKey := config.eventKey
    schemaVersion := config.schemaVersion
    dedupeKey := dedupeKey due.reminderId due.scheduledFor
    occurredAt := scheduledAt
    subject := [(.of "type", strOf "reminder"), (.of "id", strOf due.reminderId)]
    data := [(.of "reminder_id", strOf due.reminderId), (.of "schedule_kind", strOf rule.kind),
      (.of "scheduled_for", strOf scheduledAt), (.of "timezone", strOf rule.timezone.key),
      (.of "title", .str rule.title)]
    metadata := [(.of "source", strOf "scheduled-reminder")]
    messages := [(.of "default", .obj [(.of "title", .str rule.title), (.of "text", .str rule.text),
      (.of "data", .obj [(.of "reminder_id", strOf due.reminderId),
        (.of "scheduled_for", strOf scheduledAt)]),
      (.of "template_key", strOf "reminder.scheduled.triggered.default"),
      (.of "template_version", .int 1)])] }

/-- The body of a request with the title and the text as they are encoded. -/
def sentBody (config : ReminderConfig) (due : DueReminder) (title text : String) : JsonObject :=
  let scheduledAt := scheduledAt due.scheduledFor
  [("event_key", .str config.eventKey), ("schema_version", .int config.schemaVersion),
    ("dedupe_key", .str (dedupeKey due.reminderId due.scheduledFor)),
    ("occurred_at", .str scheduledAt),
    ("subject", .obj [("type", .str "reminder"), ("id", .str due.reminderId)]),
    ("data", .obj [("reminder_id", .str due.reminderId), ("schedule_kind", .str due.rule.kind),
      ("scheduled_for", .str scheduledAt), ("timezone", .str due.rule.timezone.key),
      ("title", .str title)]),
    ("metadata", .obj [("source", .str "scheduled-reminder")]),
    ("messages", .obj [("default", .obj [("title", .str title), ("text", .str text),
      ("data", .obj [("reminder_id", .str due.reminderId), ("scheduled_for", .str scheduledAt)]),
      ("template_key", .str "reminder.scheduled.triggered.default"),
      ("template_version", .int 1)])])]

omit [Stdlib] in
theorem strOf_inj {s t : String} : strOf s = strOf t ↔ s = t := by
  rw [strOf, strOf, Value.str.injEq, Str.of_inj]

omit [Stdlib] in
@[simp] theorem json?_strOf (s : String) : (strOf s).json? = some (.str s) := by
  simp [strOf, Value.json?]

/-- **A request is sent if its title and its text can be encoded.** -/
theorem body?_publishRequest (config : ReminderConfig) (due : DueReminder) :
    (publishRequest config due).body? =
      due.rule.title.encode?.bind fun title =>
        due.rule.text.encode?.map fun text => sentBody config due title text := by
  cases ht : due.rule.title.encode? <;> cases hx : due.rule.text.encode? <;>
    simp [PublishRequest.body?, PublishRequest.payload, publishRequest, sentBody, jsonFields?,
      Value.json?, ht, hx]

theorem body?_of_encode? (config : ReminderConfig) {due : DueReminder} {title text : String}
    (htitle : due.rule.title.encode? = some title) (htext : due.rule.text.encode? = some text) :
    (publishRequest config due).body? = some (sentBody config due title text) := by
  rw [body?_publishRequest, htitle, htext]
  rfl

/-- The events of the server, one for each key. -/
abbrev Events := Table PublishRequest.dedupeKey PublishRequest.dedupeKey

omit [Stdlib] in
/-- The server stores an event unless it has one with the key. -/
def keep (store : Events) (request : PublishRequest) : Events :=
  (store.insert? request).getD store

/-- How a request ends: it is answered, or it fails before or after the server has stored the
event. -/
inductive Call where
  | delivered
  | failedBefore
  | failedAfter
  deriving DecidableEq

def publish (config : ReminderConfig) (store : Events) (due : DueReminder) (call : Call) :
    Events × Except TickError Unit :=
  match (publishRequest config due).body?, call with
  | none, _ => (store, .error .unicodeEncodeError)
  | some _, .delivered => (keep store (publishRequest config due), .ok ())
  | some _, .failedBefore => (store, .error .publishError)
  | some _, .failedAfter => (keep store (publishRequest config due), .error .publishError)

/-- **A call** fails without a trace, or the server keeps the event, and the call fails or
returns. -/
theorem publish_cases (config : ReminderConfig) (store : Events) (due : DueReminder) (call : Call) :
    (∃ e, (e = .publishError ∨ e = .unicodeEncodeError) ∧
      (publish config store due call = (store, .error e) ∨
        publish config store due call = (keep store (publishRequest config due), .error e))) ∨
    publish config store due call = (keep store (publishRequest config due), .ok ()) := by
  unfold publish
  cases (publishRequest config due).body? with
  | none => exact Or.inl ⟨.unicodeEncodeError, Or.inr rfl, Or.inl rfl⟩
  | some body =>
    cases call with
    | delivered => exact Or.inr rfl
    | failedBefore => exact Or.inl ⟨.publishError, Or.inl rfl, Or.inl rfl⟩
    | failedAfter => exact Or.inl ⟨.publishError, Or.inl rfl, Or.inr rfl⟩

end EventServer.ScheduledReminder
