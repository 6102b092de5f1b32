import EventServer.Api.Requests
import EventServer.Core.RecordSchemas
import EventServer.ScheduledReminder.Limits
import EventServer.ScheduledReminder.Main

/-! # What the server makes of a reminder

The publisher checks its configuration by rules of its own, the server the request and its data. The
rules for ids, instants and the lengths of texts imply those of the server; those for event keys and
the names of time zones are wider, and a text may hold surrogates, which cannot be sent. So an
occurrence of a configuration that loads is a valid event exactly if the key of the event meets the
pattern of the server, the name of the zone is not too long, and the title and the text can be
encoded (`publishable_occurrence`). -/

namespace EventServer.ScheduledReminder

open EventServer.Api.Publish (Pydantic Publishable PublishEventRequest parseRequest publishable_iff)
open EventServer.CatalogAdmin (isEventKey)
open EventServer.Core.SchemaValidation EventServer.Db EventServer.Lib EventServer.Python

/-- `payload_schema` of `config/event-catalog.json`. -/
def payloadSchema : JsonObject :=
  [("type", .str "object"),
    ("required", .arr [.str "reminder_id", .str "schedule_kind", .str "scheduled_for",
      .str "timezone", .str "title"]),
    ("properties", .obj
      [("reminder_id", .obj [("type", .str "string"), ("minLength", .int 1),
        ("maxLength", .int 128)]), ("schedule_kind", .obj [("type", .str "string"),
          ("enum", .arr [.str "weekly", .str "interval"])]),
        ("scheduled_for", .obj [("type", .str "string"), ("minLength", .int 20),
          ("maxLength", .int 64)]),
        ("timezone", .obj [("type", .str "string"), ("minLength", .int 1), ("maxLength", .int 64)]),
        ("title", .obj [("type", .str "string"), ("minLength", .int 1), ("maxLength", .int 200)])]),
    ("additionalProperties", .bool false)]

/-- The schemas of the fields. -/
def payloadFields : JsonObject :=
  [("reminder_id", stringSchema 1 128), ("schedule_kind", enumSchema ["weekly", "interval"]),
    ("scheduled_for", stringSchema 20 64), ("timezone", stringSchema 1 64),
    ("title", stringSchema 1 200)]

theorem payloadSchema_eq : payloadSchema = recordSchema payloadFields := rfl

/-- `ZoneInfo(key).key` is the key. -/
def KeepsKeys [Stdlib] : Prop := ∀ key zone, Stdlib.zoneInfo key = .ok zone → .of zone.key = key

variable [Stdlib]

/-! ### What a configuration that loads keeps to -/

omit [Stdlib] in
theorem requiredString_ok {payload : Fields} {key : String} {value : Str} {maxLength : ℕ}
    (h : requiredString payload key maxLength = .ok value) :
    1 ≤ value.length ∧ value.length ≤ maxLength := by
  unfold requiredString at h
  simp only at h
  split at h
  · rename_i text _
    split_ifs at h with hbad
    · cases h
    · cases h
      rw [not_or, not_lt] at hbad
      refine ⟨?_, hbad.2⟩
      rw [Nat.one_le_iff_ne_zero, ne_eq, List.length_eq_zero_iff]
      exact hbad.1
  · cases h

/-- The bounds on the texts of a rule. -/
structure RuleBounds (rule : ReminderRule) : Prop where
  reminderId : 1 ≤ rule.reminderId.length ∧ rule.reminderId.length ≤ 128
  title : 1 ≤ rule.title.length ∧ rule.title.length ≤ 200
  text : 1 ≤ rule.text.length ∧ rule.text.length ≤ 4000
  timezone : ∃ key, Stdlib.zoneInfo key = .ok rule.timezone ∧ 1 ≤ key.length

theorem timezone_ok {value : Str} {zone : ZoneInfo} (h : timezone value = .ok zone) :
    Stdlib.zoneInfo value = .ok zone := by
  unfold timezone at h
  split at h
  · rename_i heq
    cases h
    exact heq
  · cases h
  · cases h

theorem ruleBounds_of_parseRule {raw : Value} {rule : ReminderRule} (h : parseRule raw = .ok rule) :
    RuleBounds rule := by
  obtain ⟨payload, -, ⟨id, hid, hencode⟩, htitle, htext, ⟨key, hkey, hzone⟩, -⟩ := parseRule_ok h
  refine ⟨?_, requiredString_ok htitle, requiredString_ok htext, key, timezone_ok hzone,
    (requiredString_ok hkey).1⟩
  rw [Str.length_encode? hencode]
  exact requiredString_ok hid

/-- The bounds on what a configuration says. -/
structure ConfigBounds (config : ReminderConfig) : Prop where
  eventKey : config.eventKey.length ≤ 128
  schemaVersion : 1 ≤ config.schemaVersion
  rules : ∀ rule ∈ config.rules, RuleBounds rule

theorem configBounds_of_loadConfig {file : Value} {config : ReminderConfig}
    (h : loadConfig file = .ok config) : ConfigBounds config := by
  obtain ⟨payload, raws, -, hkey, hversion, -, -, -, hrules⟩ := loadConfig_ok h
  obtain ⟨value, hvalue, hencode⟩ := parseEventKey_ok hkey
  have hlength : config.eventKey.length ≤ 128 := by
    rw [Str.length_encode? hencode]
    exact (requiredString_ok hvalue).2
  refine ⟨hlength, hversion, fun rule hr => ?_⟩
  obtain ⟨raw, hraw⟩ := exists_raw_of_parseRules hrules rule hr
  exact ruleBounds_of_parseRule hraw

/-! ### The request -/

omit [Stdlib] in
/-- The text of an instant is of 20 characters, or of 27 with a fraction of a second. -/
theorem length_scheduledAt {t : Time} (ht : InRange t) :
    20 ≤ (scheduledAt t).length ∧ (scheduledAt t).length ≤ 27 := by
  rw [scheduledAt_eq, String.length_ofList, List.length_append, length_isoClock ht]
  simp only [List.length_singleton]
  split_ifs <;> omega

/-- The request as the server reads it. -/
def receivedRequest (config : ReminderConfig) (d : DueReminder) (title text : String) :
    PublishEventRequest where
  eventKey := config.eventKey
  schemaVersion := config.schemaVersion
  dedupeKey := dedupeKey d.reminderId d.scheduledFor
  occurredAt := .aware d.scheduledFor
  subject := [("type", .str "reminder"), ("id", .str d.reminderId)]
  data := [("reminder_id", .str d.reminderId), ("schedule_kind", .str d.rule.kind),
    ("scheduled_for", .str (scheduledAt d.scheduledFor)), ("timezone", .str d.rule.timezone.key),
    ("title", .str title)]
  metadata := [("source", .str "scheduled-reminder")]
  messages := [("default",
    { title := title
      text := text
      data := [("reminder_id", .str d.reminderId),
        ("scheduled_for", .str (scheduledAt d.scheduledFor))]
      templateKey := "reminder.scheduled.triggered.default"
      templateVersion := 1 })]

variable [Pydantic]

theorem parseRequest_eq (config : ReminderConfig) (d : DueReminder) (title text : String) :
    parseRequest (sentBody config d title text) =
      (Pydantic.datetimeOfStr (scheduledAt d.scheduledFor)).map fun occurredAt =>
        { receivedRequest config d title text with occurredAt := occurredAt } := by
  have hbind : parseRequest (sentBody config d title text) =
      (Pydantic.datetimeOfStr (scheduledAt d.scheduledFor)).bind fun occurredAt =>
        some { receivedRequest config d title text with occurredAt := occurredAt } := rfl
  rw [hbind, Option.map_eq_bind]
  rfl

theorem parseRequest_sentBody {config : ReminderConfig} {d : DueReminder} {title text : String}
    (hread : Pydantic.datetimeOfStr (scheduledAt d.scheduledFor) = some (.aware d.scheduledFor)) :
    parseRequest (sentBody config d title text) = some (receivedRequest config d title text) := by
  rw [parseRequest_eq, hread]
  rfl

omit [Pydantic] in
/-- The constraints on the request are met but for the key of the event. -/
theorem valid_receivedRequest {config : ReminderConfig} {rule : ReminderRule} {s : Time}
    (hconfig : ConfigBounds config) (hrule : RuleBounds rule) (hs : InRange s) {title text : String}
    (htitle : rule.title.encode? = some title) (htext : rule.text.encode? = some text) :
    (receivedRequest config (dueAt rule s) title text).valid = isEventKey config.eventKey := by
  have hlen : (dedupeKey rule.reminderId s).length =
      rule.reminderId.length + (1 + (scheduledAt s).length) := by
    rw [← String.length_toList, toList_dedupeKey, List.length_append, List.length_cons,
      String.length_toList, String.length_toList, Nat.add_comm 1]
  obtain ⟨hat, hat'⟩ := length_scheduledAt hs
  have hdedupe : 1 ≤ (dedupeKey rule.reminderId s).length ∧
      (dedupeKey rule.reminderId s).length ≤ 255 := by
    have hid := hrule.reminderId
    omega
  have hmessage : Api.Publish.messageValid
      { title := title
        text := text
        data := [("reminder_id", .str rule.reminderId), ("scheduled_for", .str (scheduledAt s))]
        templateKey := "reminder.scheduled.triggered.default"
        templateVersion := 1 } = true := by
    have htemplate : "reminder.scheduled.triggered.default".length = 36 := by decide
    simp [Api.Publish.messageValid, Str.length_encode? htitle,
      Str.length_encode? htext, hrule.title, hrule.text, htemplate]
  have hvalid : (receivedRequest config (dueAt rule s) title text).valid =
      (isEventKey config.eventKey && decide (config.eventKey.length ≤ 128) &&
        decide (1 ≤ config.schemaVersion) &&
        decide (1 ≤ (dedupeKey rule.reminderId s).length) &&
        decide ((dedupeKey rule.reminderId s).length ≤ 255) && true && true &&
        (Api.Publish.messageValid
          { title := title
            text := text
            data := [("reminder_id", .str rule.reminderId),
              ("scheduled_for", .str (scheduledAt s))]
            templateKey := "reminder.scheduled.triggered.default"
            templateVersion := 1 } && true)) := rfl
  rw [hvalid, hmessage, decide_eq_true hconfig.eventKey, decide_eq_true hconfig.schemaVersion,
    decide_eq_true hdedupe.1, decide_eq_true hdedupe.2]
  simp only [Bool.and_true]

omit [Pydantic] in
theorem validatePayload_iff [Runtime] {config : ReminderConfig} {rule : ReminderRule} {s : Time}
    (hkeys : KeepsKeys) (hrule : RuleBounds rule) (hs : InRange s) {title : String} (text : String)
    (htitle : rule.title.encode? = some title) :
    validatePayload payloadSchema (receivedRequest config (dueAt rule s) title text).data = .ok () ↔
      rule.timezone.key.length ≤ 64 := by
  obtain ⟨hat, hat'⟩ := length_scheduledAt hs
  obtain ⟨key, hzone, hkey⟩ := hrule.timezone
  have hkind : rule.kind ∈ ["weekly", "interval"] := by
    cases rule <;> simp [ReminderRule.kind]
  have hpos : 1 ≤ rule.timezone.key.length := by
    rwa [← Str.length_of, hkeys key rule.timezone hzone]
  have hsame : (receivedRequest config (dueAt rule s) title text).data.map Prod.fst =
      payloadFields.map Prod.fst := rfl
  rw [payloadSchema_eq, validatePayload_recordSchema hsame]
  have hid : (receivedRequest config (dueAt rule s) title text).data.lookup "reminder_id" =
      some (.str rule.reminderId) := rfl
  have hkindOf : (receivedRequest config (dueAt rule s) title text).data.lookup "schedule_kind" =
      some (.str rule.kind) := rfl
  have hfor : (receivedRequest config (dueAt rule s) title text).data.lookup "scheduled_for" =
      some (.str (scheduledAt s)) := rfl
  have hzoneOf : (receivedRequest config (dueAt rule s) title text).data.lookup "timezone" =
      some (.str rule.timezone.key) := rfl
  have htitleOf : (receivedRequest config (dueAt rule s) title text).data.lookup "title" =
      some (.str title) := rfl
  have hlength := Str.length_encode? htitle
  simp only [payloadFields, List.forall_mem_cons]
  rw [fieldAdmits_of_lookup _ hid, fieldAdmits_of_lookup _ hkindOf, fieldAdmits_of_lookup _ hfor,
    fieldAdmits_of_lookup _ hzoneOf, fieldAdmits_of_lookup _ htitleOf]
  simp only [admits_stringSchema, admits_enumSchema]
  constructor
  · rintro ⟨-, -, -, hzone, -⟩
    exact hzone.2
  · intro hlen
    exact ⟨hrule.reminderId, hkind, ⟨hat, by omega⟩, ⟨hpos, hlen⟩, hlength ▸ hrule.title, by simp⟩

/-- **An occurrence of a configuration that loads is sent and is a valid event** exactly if the key
of the event meets the pattern of the server, the name of the time zone has at most 64 characters,
and the title and the text can be encoded. -/
theorem publishable_occurrence [Runtime] {file : Value} {config : ReminderConfig}
    (hload : loadConfig file = .ok config) (hkeys : KeepsKeys) {rule : ReminderRule}
    (hrule : rule ∈ config.rules) {after until_ : Time} {due : List DueReminder}
    (hdue : dueBetween rule after until_ = .ok due) {d : DueReminder} (hd : d ∈ due)
    (hread : Pydantic.datetimeOfStr (scheduledAt d.scheduledFor) = some (.aware d.scheduledFor)) :
    (∃ body, (publishRequest config d).body? = some body ∧ Publishable payloadSchema body) ↔
      isEventKey config.eventKey = true ∧ rule.timezone.key.length ≤ 64 ∧ rule.title.Encodable ∧
        rule.text.Encodable := by
  obtain ⟨s, rfl, hs⟩ := inRange_of_mem_dueBetween hdue d hd
  have hconfig := configBounds_of_loadConfig hload
  have hbounds := hconfig.rules rule hrule
  have hpublishable : ∀ title text, rule.title.encode? = some title →
      rule.text.encode? = some text →
      (Publishable payloadSchema (sentBody config (dueAt rule s) title text) ↔
        isEventKey config.eventKey = true ∧ rule.timezone.key.length ≤ 64) := by
    intro title text htitle htext
    rw [publishable_iff (parseRequest_sentBody hread) rfl,
      valid_receivedRequest hconfig hbounds hs htitle htext,
      validatePayload_iff hkeys hbounds hs text htitle]
  constructor
  · rintro ⟨body, hsent, hp⟩
    rw [body?_publishRequest] at hsent
    obtain ⟨title, htitle, hsent⟩ := Option.bind_eq_some_iff.mp hsent
    obtain ⟨text, htext, rfl⟩ := Option.map_eq_some_iff.mp hsent
    obtain ⟨hkey, hzone⟩ := (hpublishable title text htitle htext).mp hp
    exact ⟨hkey, hzone, ⟨title, htitle⟩, text, htext⟩
  · rintro ⟨hkey, hzone, ⟨title, htitle⟩, text, htext⟩
    exact ⟨_, body?_of_encode? config htitle htext,
      (hpublishable title text htitle htext).mpr ⟨hkey, hzone⟩⟩

/-! ### A key that the server refuses -/

section Sample

omit [Stdlib] [Pydantic]

/-- The library on the text of the sample's instant. -/
abbrev samplePydantic : Pydantic where
  intOfStr _ := none
  datetimeOfStr s := if s = "2026-09-16T08:00:00Z" then some (.aware (seconds 1789545600)) else none
  datetimeOfNumber _ := none

/-- The configuration of the sample with the key of its event in capitals. -/
def upperFile : Value := .obj
  [(.of "event_key", strOf "Reminder.Scheduled.Triggered"),
    (.of "reminders", .arr [.obj [(.of "id", strOf "stand-up"), (.of "title", strOf "Stand-up"),
      (.of "text", strOf "Stand-up"), (.of "timezone", strOf "UTC"), (.of "kind", strOf "weekly"),
      (.of "weekdays", .arr [strOf "wednesday"]), (.of "times", .arr [strOf "08:00"])]])]

def upperConfig : @ReminderConfig .sample :=
  @ReminderConfig.mk .sample "Reminder.Scheduled.Triggered" 1 [sampleRule] 100
    (@ReminderConfig.ids_nodup .sample sampleConfig)

theorem dueBetween_sample :
    @dueBetween .sample sampleRule (seconds 1789545540) (seconds 1789545660) =
      .ok [@dueAt .sample sampleRule (seconds 1789545600)] := rfl

/-- **A configuration loads whose occurrences are refused**: the key of its event has capitals. -/
theorem not_publishable :
    let _ := Stdlib.sample
    let _ := samplePydantic
    let _ := Runtime.sample
    loadConfig upperFile = .ok upperConfig ∧ sampleRule ∈ upperConfig.rules ∧
      dueBetween sampleRule (seconds 1789545540) (seconds 1789545660) =
        .ok [dueAt sampleRule (seconds 1789545600)] ∧
      ¬ ∃ body, (publishRequest upperConfig (dueAt sampleRule (seconds 1789545600))).body? =
        some body ∧
        Publishable payloadSchema body := by
  let _ := Stdlib.sample
  let _ := samplePydantic
  let _ := Runtime.sample
  refine ⟨rfl, List.mem_singleton.mpr rfl, dueBetween_sample, ?_⟩
  have hsent : (publishRequest upperConfig (dueAt sampleRule (seconds 1789545600))).body? =
      some (sentBody upperConfig (dueAt sampleRule (seconds 1789545600)) "Stand-up" "Stand-up") :=
    body?_of_encode? upperConfig (Str.encode?_of _) (Str.encode?_of _)
  have hrefused : (Api.Publish.validRequest (sentBody upperConfig
      (dueAt sampleRule (seconds 1789545600)) "Stand-up" "Stand-up")).isNone = true := by
    decide
  rintro ⟨_, he, body, hbody, -⟩
  rw [hsent, Option.some_inj] at he
  rw [← he] at hbody
  rw [hbody] at hrefused
  cases hrefused

/-- The occurrence of the sample is sent and accepted. -/
theorem publishable_occurrence_sample :
    let _ := Stdlib.sample
    let _ := samplePydantic
    let _ := Runtime.sample
    ∃ body, (publishRequest sampleConfig (dueAt sampleRule (seconds 1789545600))).body? =
      some body ∧
      Publishable payloadSchema body := by
  let _ := Stdlib.sample
  let _ := samplePydantic
  let _ := Runtime.sample
  have hkeys : KeepsKeys := by
    intro key zone h
    by_cases hkey : key = .of "UTC"
    · subst hkey
      cases h
      rfl
    · have hnone : Stdlib.zoneInfo key = .error .zoneInfoNotFoundError := if_neg hkey
      rw [hnone] at h
      cases h
  have hread : Pydantic.datetimeOfStr (scheduledAt (seconds 1789545600)) =
      some (.aware (seconds 1789545600)) := by rfl
  exact (publishable_occurrence loadConfig_sample hkeys (List.mem_singleton.mpr rfl)
    dueBetween_sample (List.mem_singleton.mpr rfl) hread).mpr
      ⟨by decide, by decide, Str.encodable_of _, Str.encodable_of _⟩

end Sample

end EventServer.ScheduledReminder
