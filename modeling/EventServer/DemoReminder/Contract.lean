import EventServer.Api.Requests
import EventServer.Core.RecordSchemas
import EventServer.DemoReminder.Client

/-! # What the server makes of a demo reminder

A reminder that is accepted is of bounded lengths, and so are the texts that are rendered from it.
The server's bounds on requests, messages and data follow from those of the ingress. What does not
follow is that the payload can be built and sent at all: the point in time may have no wall clock in
the display time zone, and the texts may hold surrogates. An accepted reminder is a valid event
exactly if neither is so (`publishable_reminder`). -/

namespace EventServer.DemoReminder

open EventServer.Api.Publish (Pydantic Publishable PublishEventRequest parseRequest publishable_iff)
open EventServer.Core.SchemaValidation EventServer.Db EventServer.Lib EventServer.Python
open EventServer.ScheduledReminder (ZoneInfo scheduledAt_eq)

/-- `payload_schema` of `config/event-catalog.json`. -/
def payloadSchema : JsonObject :=
  [("type", .str "object"),
    ("required", .arr [.str "request_id", .str "delay_seconds", .str "notify_at"]),
    ("properties", .obj
      [("request_id", .obj [("type", .str "string"), ("minLength", .int 1),
        ("maxLength", .int 128)]), ("delay_seconds",
        .obj [("type", .str "integer"), ("minimum", .int 0),
          ("maximum", .int 86400)]),
        ("notify_at", .obj [("type", .str "string"), ("minLength", .int 20),
          ("maxLength", .int 64)])]),
    ("additionalProperties", .bool false)]

/-- The schemas of the fields. -/
def payloadFields : JsonObject :=
  [("request_id", stringSchema 1 128), ("delay_seconds", integerSchema 0 86400),
    ("notify_at", stringSchema 20 64)]

theorem payloadSchema_eq : payloadSchema = recordSchema payloadFields := rfl

/-! ### Lengths -/

theorem inRange_iff {t : ℤ} : InRange t ↔ -62135596800000000 ≤ t ∧ t < 253402300800000000 := Iff.rfl

theorem inRange_wholeSecond {t : ℤ} (h : InRange t) : InRange (wholeSecond t) := by
  have hwhole : wholeSecond t = t - t % 1000000 := rfl
  rw [inRange_iff] at h
  rw [hwhole, inRange_iff]
  omega

theorem length_toUtcIso {t : ℤ} (h : InRange t) : (toUtcIso t).length = 20 := by
  have hwhole : (wholeSecond t % day).toNat % 1000000 = 0 := by
    unfold wholeSecond seconds
    rw [day_eq]
    omega
  unfold toUtcIso
  rw [scheduledAt_eq, String.length_ofList, List.length_append,
    length_isoClock (inRange_wholeSecond h), if_pos hwhole]
  rfl

theorem length_decPad_le {w m n : ℕ} (hw : w ≤ m) (hm : 0 < m) (h : n < 10 ^ m) :
    (decPad w n).length ≤ m := by
  have hdigits : (Nat.toDigits 10 n).length ≤ m :=
    (Nat.length_toDigits_le_iff (by omega) hm).mpr h
  unfold decPad
  rw [List.length_append, List.length_replicate]
  omega

theorem length_toString_le {m n : ℕ} (hm : 0 < m) (h : n < 10 ^ m) : (toString n).length ≤ m := by
  have hrepr : toString n = String.ofList (Nat.toDigits 10 n) := rfl
  rw [hrepr, String.length_ofList]
  exact (Nat.length_toDigits_le_iff (by omega) hm).mpr h

theorem length_humanizeDelay {n : ℤ} (h : n ≤ 86400) : (humanizeDelay n).length ≤ 20 := by
  have hhours : (toString (n.toNat / 3600)).length ≤ 2 := length_toString_le (by omega) (by omega)
  have hminutes : (toString (n.toNat % 3600 / 60)).length ≤ 2 :=
    length_toString_le (by omega) (by omega)
  have hsecs : (toString (n.toNat % 3600 % 60)).length ≤ 2 :=
    length_toString_le (by omega) (by omega)
  have hunit : " 小时".length = 3 ∧ " 分钟".length = 3 ∧ " 秒".length = 2 := by decide
  have hspace : " ".length = 1 := by decide
  unfold humanizeDelay
  split_ifs
  · decide
  · simp only
    generalize toString (n.toNat / 3600) = hours at hhours ⊢
    generalize toString (n.toNat % 3600 / 60) = minutes at hminutes ⊢
    generalize toString (n.toNat % 3600 % 60) = secs at hsecs ⊢
    split_ifs <;>
      simp only [List.nil_append, List.cons_append, String.intercalate_nil,
        String.intercalate_singleton, String.intercalate_cons_cons, String.length_append,
        String.length_empty, hspace, hunit.1, hunit.2.1, hunit.2.2] <;>
      omega

theorem length_stamp {wall : ℤ} (h : InRange wall) : (stamp wall).length ≤ 11 := by
  obtain ⟨hlo, hhi, -⟩ := ordinal_spec h
  obtain ⟨-, -, hm, hd⟩ := toOrdinal_ofOrdinal hlo hhi
  have hus := toNat_emod_day_lt wall
  have hmonth : (decPad 2 (dateOf wall).month).length ≤ 2 :=
    length_decPad_le (by omega) (by omega) hm
  have hday : (decPad 2 (dateOf wall).day).length ≤ 2 := length_decPad_le (by omega) (by omega) hd
  have hhour : (decPad 2 ((wall % day).toNat / 1000000 / 3600)).length ≤ 2 :=
    length_decPad_le (by omega) (by omega) (by omega)
  have hminute : (decPad 2 ((wall % day).toNat / 1000000 / 60 % 60)).length ≤ 2 :=
    length_decPad_le (by omega) (by omega) (by omega)
  unfold stamp
  simp only [List.length_append, List.length_cons]
  omega

/-- An offset between two `datetime`s has hours of 8 digits at most. -/
theorem length_offsetLabel {offset t : ℤ} (ht : InRange t) (hwall : InRange (t + offset)) :
    (offsetLabel offset).length ≤ 15 := by
  rw [inRange_iff] at ht hwall
  have hminutes : minutes 1 = 60000000 := rfl
  have hhours : (offset / minutes 1).natAbs / 60 < 10 ^ 8 := by
    rw [hminutes]
    omega
  have hhour : (decPad 2 ((offset / minutes 1).natAbs / 60)).length ≤ 8 :=
    length_decPad_le (by omega) (by omega) hhours
  have hminute : (decPad 2 ((offset / minutes 1).natAbs % 60)).length ≤ 2 :=
    length_decPad_le (by omega) (by omega) (by omega)
  have hutc : "UTC".toList.length = 3 := by decide
  unfold offsetLabel
  simp only [List.length_append, List.length_cons, hutc]
  omega

/-! ### The message -/

/-- The line on the timing is there exactly if there is a wall clock. -/
theorem timing_eq_ok {request : ReminderRequest} {zone : ZoneInfo} {line : String}
    (h : timing request zone = .ok line) (ht : InRange request.notifyAt)
    (hmax : request.delaySeconds ≤ 86400) :
    InRange (zone.fromutc request.notifyAt).1 ∧ line.length ≤ 60 := by
  unfold timing at h
  rw [bind_eq_ok] at h
  obtain ⟨wall, hwall, h⟩ := h
  obtain ⟨hin, rfl⟩ := checked_eq_ok.mp hwall
  cases h
  refine ⟨hin, ?_⟩
  have hback := zone.fromutc_utcoffset request.notifyAt
  generalize zone.fromutc request.notifyAt = local_ at hin hback
  have hstamp := length_stamp hin
  have hwall' : InRange (request.notifyAt + zone.utcoffset local_.1 local_.2) := by
    rw [← hback, Int.sub_add_cancel]
    exact hin
  have hoffset := length_offsetLabel ht hwall'
  have hafter : (if request.delaySeconds ≤ 0 then "立即触发"
      else humanizeDelay request.delaySeconds ++ "后").length ≤ 21 := by
    have hhumanize := length_humanizeDelay hmax
    have hlit : "立即触发".length = 4 ∧ "后".length = 1 := by decide
    split_ifs
    · omega
    · rw [String.length_append]
      omega
  have hlit : "提醒时间：".length = 5 ∧ "（".length = 1 ∧ "，".length = 1 ∧ "）".length = 1 := by decide
  simp only [String.length_append, String.length_ofList]
  omega

/-! ### The payload -/

theorem timing_ok_iff {request : ReminderRequest} {zone : ZoneInfo} :
    (∃ line, timing request zone = .ok line) ↔ InRange (zone.fromutc request.notifyAt).1 := by
  unfold timing
  simp only [bind_eq_ok, checked_eq_ok]
  constructor
  · rintro ⟨_, _, ⟨hin, -⟩, -⟩
    exact hin
  · intro hin
    exact ⟨_, _, ⟨hin, rfl⟩, rfl⟩

theorem buildPayload_eq_ok {settings : PublisherSettings} {request : ReminderRequest}
    {fields : Fields} :
    buildPayload settings request = .ok fields ↔ ∃ line,
      timing request settings.displayTimezone = .ok line ∧
        fields = payload request (message request line) := by
  unfold buildPayload render
  simp only [map_eq_ok]
  constructor
  · rintro ⟨_, ⟨line, hline, rfl⟩, rfl⟩
    exact ⟨line, hline, rfl⟩
  · rintro ⟨line, hline, rfl⟩
    exact ⟨_, ⟨line, hline, rfl⟩, rfl⟩

/-- The payload as it is sent. -/
def sentPayload (request : ReminderRequest) (key title text : String) : JsonObject :=
  [("event_key", .str eventKey), ("schema_version", .int 1), ("dedupe_key", .str key),
    ("occurred_at", .str (toUtcIso request.requestedAt)),
    ("notify_at", .str (toUtcIso request.notifyAt)),
    ("subject", .obj [("type", .str "reminder"), ("id", .str key)]),
    ("data", .obj [("request_id", .str key), ("delay_seconds", .int request.delaySeconds),
      ("notify_at", .str (toUtcIso request.notifyAt))]),
    ("metadata", .obj [("source", .str "demo-reminder")]),
    ("messages", .obj [("default", .obj [("title", .str title), ("text", .str text),
      ("data", .obj [("request_id", .str key), ("delay_seconds", .int request.delaySeconds),
        ("notify_at", .str (toUtcIso request.notifyAt))]),
      ("template_key", .str (eventKey ++ ".default")), ("template_version", .int 1)])])]

/-- The payload can be sent if the key and the texts can be encoded. -/
theorem jsonFields?_payload {request : ReminderRequest} {key : String} (line : String)
    (hdedupe : request.dedupeKey = request.requestId)
    (hkey : request.requestId.encode? = some key) :
    jsonFields? (payload request (message request line)) =
      request.title.encode?.bind fun title => request.text.encode?.map fun text =>
        sentPayload request key title (text ++ ("\n" ++ line)) := by
  cases ht : request.title.encode? <;> cases hx : request.text.encode? <;>
    simp [payload, message, jsonFields?, Value.json?, hdedupe, hkey, ht, hx, Str.encode?_append,
      sentPayload]

/-- The request as the server reads it. -/
def receivedRequest (request : ReminderRequest)
    (key title text : String) : PublishEventRequest where
  eventKey := eventKey
  schemaVersion := 1
  dedupeKey := key
  occurredAt := .aware (wholeSecond request.requestedAt)
  notifyAt := some (.aware (wholeSecond request.notifyAt))
  subject := [("type", .str "reminder"), ("id", .str key)]
  data := [("request_id", .str key), ("delay_seconds", .int request.delaySeconds),
    ("notify_at", .str (toUtcIso request.notifyAt))]
  metadata := [("source", .str "demo-reminder")]
  messages := [("default",
    { title
      text
      data := [("request_id", .str key), ("delay_seconds", .int request.delaySeconds),
        ("notify_at", .str (toUtcIso request.notifyAt))]
      templateKey := eventKey ++ ".default"
      templateVersion := 1 })]

section Accepted

variable [Stdlib] {settings : PublisherSettings} {now : Time} {uuid : Uuid} {args : Arguments}
  {request : ReminderRequest}

/-- What is accepted is of bounded lengths. -/
structure Bounded (request : ReminderRequest) : Prop where
  key : 1 ≤ request.requestId.length ∧ request.requestId.length ≤ 128
  title : 1 ≤ request.title.length ∧ request.title.length ≤ 100
  text : 1 ≤ request.text.length ∧ request.text.length ≤ 500
  delay : 0 ≤ request.delaySeconds ∧ request.delaySeconds ≤ 86400
  notifyAt : InRange request.notifyAt

theorem Accepted.bounded (h : Accepted settings now uuid args request) : Bounded request where
  key := by
    obtain ⟨hlo, hhi, -⟩ := chooseKey_ok h.key
    exact ⟨hlo, hhi⟩
  title := by
    rcases cleanTitle_ok h.title with ⟨hdefault, -⟩ | ⟨_, -, -, hlen⟩
    · rw [hdefault]
      decide
    · exact hlen
  text := by
    obtain ⟨_, -, -, hlen⟩ := cleanText_ok h.text
    exact hlen
  delay := ⟨h.moment.nonneg, h.within.trans settings.max_le⟩
  notifyAt := h.range

theorem Accepted.encodable_title (h : Accepted settings now uuid args request) :
    request.title.Encodable ↔ ∀ s, args.title = .str s → s.Encodable := by
  rcases cleanTitle_ok h.title with ⟨hdefault, hblank⟩ | ⟨s, hs, hstrip, -⟩
  · refine iff_of_true ?_ fun s hs => ?_
    · rw [hdefault]
      exact Str.encodable_of _
    · rw [← Str.encodable_strip, hblank s hs]
      exact Str.encodable_of ""
  · rw [hstrip, Str.encodable_strip, hs]
    constructor
    · intro henc s' hs'
      cases hs'
      exact henc
    · intro hall
      exact hall s rfl

theorem Accepted.encodable_text (h : Accepted settings now uuid args request) :
    request.text.Encodable ↔ ∀ s, args.text = .str s → s.Encodable := by
  obtain ⟨s, hs, hstrip, -⟩ := cleanText_ok h.text
  rw [hstrip, Str.encodable_strip, hs]
  constructor
  · intro henc s' hs'
    cases hs'
    exact henc
  · intro hall
    exact hall s rfl

/-- The reminder can be sent: the texts have no surrogates, and the point in time has a wall clock
in the display time zone. -/
structure Sendable (settings : PublisherSettings) (now : Time) (args : Arguments) : Prop where
  title : ∀ s, args.title = .str s → s.Encodable
  text : ∀ s, args.text = .str s → s.Encodable
  wall : ∀ t n, Moment settings now args t n → InRange (settings.displayTimezone.fromutc t).1

omit [Stdlib] in
/-- The payload of the request, as it is sent. -/
def Sends (settings : PublisherSettings) (request : ReminderRequest) (body : JsonObject) : Prop :=
  ∃ fields, buildPayload settings request = .ok fields ∧ jsonFields? fields = some body

/-- **What can be sent is sent.** -/
theorem Accepted.sends_iff (h : Accepted settings now uuid args request) :
    (∃ body, Sends settings request body) ↔ Sendable settings now args := by
  obtain ⟨-, -, key, hkey⟩ := chooseKey_ok h.key
  constructor
  · rintro ⟨body, fields, hfields, hbody⟩
    obtain ⟨line, hline, rfl⟩ := buildPayload_eq_ok.mp hfields
    rw [jsonFields?_payload line h.dedupeKey hkey, Option.bind_eq_some_iff] at hbody
    obtain ⟨title, htitle, hbody⟩ := hbody
    rw [Option.map_eq_some_iff] at hbody
    obtain ⟨text, htext, -⟩ := hbody
    refine ⟨h.encodable_title.mp ⟨title, htitle⟩, h.encodable_text.mp ⟨text, htext⟩,
      fun t n ht => ?_⟩
    rw [(ht.unique h.moment).1]
    exact timing_ok_iff.mp ⟨line, hline⟩
  · intro hsend
    obtain ⟨title, htitle⟩ := h.encodable_title.mpr hsend.title
    obtain ⟨text, htext⟩ := h.encodable_text.mpr hsend.text
    obtain ⟨line, hline⟩ := timing_ok_iff.mpr (hsend.wall _ _ h.moment)
    refine ⟨sentPayload request key title (text ++ ("\n" ++ line)), _,
      buildPayload_eq_ok.mpr ⟨line, hline, rfl⟩, ?_⟩
    rw [jsonFields?_payload line h.dedupeKey hkey, htitle, htext]
    rfl

theorem Accepted.sent (h : Accepted settings now uuid args request) {body : JsonObject}
    (hs : Sends settings request body) :
    ∃ key title text, body = sentPayload request key title text ∧
      (1 ≤ key.length ∧ key.length ≤ 128) ∧ (1 ≤ title.length ∧ title.length ≤ 100) ∧
        1 ≤ text.length ∧ text.length ≤ 561 := by
  obtain ⟨fields, hfields, hbody⟩ := hs
  obtain ⟨line, hline, rfl⟩ := buildPayload_eq_ok.mp hfields
  obtain ⟨-, -, key, hkey⟩ := chooseKey_ok h.key
  rw [jsonFields?_payload line h.dedupeKey hkey, Option.bind_eq_some_iff] at hbody
  obtain ⟨title, htitle, hbody⟩ := hbody
  rw [Option.map_eq_some_iff] at hbody
  obtain ⟨text, htext, rfl⟩ := hbody
  have hbounded := h.bounded
  have hlineLength := (timing_eq_ok hline hbounded.notifyAt hbounded.delay.2).2
  refine ⟨key, title, _, rfl, ?_, ?_, ?_⟩
  · rw [Str.length_encode? hkey]
    exact hbounded.key
  · rw [Str.length_encode? htitle]
    exact hbounded.title
  · have hbounds := hbounded.text
    have hbreak : "\n".length = 1 := by decide
    rw [String.length_append, String.length_append, hbreak, Str.length_encode? htext]
    omega

theorem accepted_of_submit {world : World} (h : (submit settings world args).1 = [request]) :
    Accepted settings world.now world.uuid args request := by
  rw [← prepare_eq_ok]
  unfold submit at h
  cases hp : prepare settings world.now world.uuid args with
  | error e =>
    rw [hp] at h
    cases h
  | ok request' =>
    rw [hp] at h
    rw [(List.cons.inj h).1]

end Accepted

variable [Pydantic]

theorem parseRequest_sentPayload {request : ReminderRequest} {key title text : String}
    (hrequested : Pydantic.datetimeOfStr (toUtcIso request.requestedAt) =
      some (.aware (wholeSecond request.requestedAt)))
    (hnotify : Pydantic.datetimeOfStr (toUtcIso request.notifyAt) =
      some (.aware (wholeSecond request.notifyAt))) :
    parseRequest (sentPayload request key title text) =
      some (receivedRequest request key title text) := by
  have hbind : parseRequest (sentPayload request key title text) =
      (Pydantic.datetimeOfStr (toUtcIso request.requestedAt)).bind fun occurredAt =>
        ((Pydantic.datetimeOfStr (toUtcIso request.notifyAt)).map some).bind fun notifyAt =>
          some { receivedRequest request key title text with occurredAt := occurredAt
                                                             notifyAt := notifyAt } := rfl
  rw [hbind, hrequested, hnotify]
  rfl

omit [Pydantic] in
theorem valid_receivedRequest {request : ReminderRequest} {key title text : String}
    (hkey : 1 ≤ key.length ∧ key.length ≤ 128) (htitle : 1 ≤ title.length ∧ title.length ≤ 100)
    (htext : 1 ≤ text.length ∧ text.length ≤ 561) :
    (receivedRequest request key title text).valid = true := by
  have hmessage : ∀ data : JsonObject, Api.Publish.messageValid
      { title := title, text := text, data := data, templateKey := eventKey ++ ".default"
        templateVersion := 1 } = true := by
    intro data
    have htemplate : (eventKey ++ ".default").length = 31 := by decide
    simp only [Api.Publish.messageValid, htemplate]
    simp only [Bool.and_eq_true, decide_eq_true_eq]
    omega
  have hevent : CatalogAdmin.isEventKey eventKey = true ∧ eventKey.length = 23 := by decide
  have hvalid : (receivedRequest request key title text).valid =
      (CatalogAdmin.isEventKey eventKey && decide (eventKey.length ≤ 128) && true &&
        decide (1 ≤ key.length) && decide (key.length ≤ 255) && true && true &&
        (Api.Publish.messageValid
          { title := title
            text := text
            data := [("request_id", .str key), ("delay_seconds", .int request.delaySeconds),
              ("notify_at", .str (toUtcIso request.notifyAt))]
            templateKey := eventKey ++ ".default"
            templateVersion := 1 } && true)) := rfl
  have hdedupe : key.length ≤ 255 := by omega
  rw [hvalid, hmessage, hevent.1, hevent.2, decide_eq_true hkey.1, decide_eq_true hdedupe]
  rfl

omit [Pydantic] in
theorem validatePayload_receivedRequest [Runtime] {request : ReminderRequest}
    {key title text : String} (hkey : 1 ≤ key.length ∧ key.length ≤ 128)
    (hdelay : 0 ≤ request.delaySeconds ∧ request.delaySeconds ≤ 86400)
    (ht : InRange request.notifyAt) :
    validatePayload payloadSchema (receivedRequest request key title text).data = .ok () := by
  have hsame : (receivedRequest request key title text).data.map Prod.fst =
      payloadFields.map Prod.fst := rfl
  have hid : (receivedRequest request key title text).data.lookup "request_id" =
      some (.str key) := rfl
  have hseconds : (receivedRequest request key title text).data.lookup "delay_seconds" =
      some (.int request.delaySeconds) := rfl
  have hat : (receivedRequest request key title text).data.lookup "notify_at" =
      some (.str (toUtcIso request.notifyAt)) := rfl
  have hlen := length_toUtcIso ht
  rw [payloadSchema_eq, validatePayload_recordSchema hsame]
  simp only [payloadFields, List.forall_mem_cons]
  rw [fieldAdmits_of_lookup _ hid, fieldAdmits_of_lookup _ hseconds, fieldAdmits_of_lookup _ hat]
  simp only [admits_stringSchema, admits_integerSchema]
  exact ⟨hkey, hdelay, by omega, List.forall_mem_nil _⟩

/-! ### The contract -/

/-- **A reminder that reaches the publisher is a valid event** exactly if it can be sent. -/
theorem publishable_reminder [Stdlib] [Runtime] {settings : PublisherSettings} {world : World}
    {args : Arguments} {request : ReminderRequest}
    (hsubmit : (submit settings world args).1 = [request])
    (hrequested : Pydantic.datetimeOfStr (toUtcIso request.requestedAt) =
      some (.aware (wholeSecond request.requestedAt)))
    (hnotify : Pydantic.datetimeOfStr (toUtcIso request.notifyAt) =
      some (.aware (wholeSecond request.notifyAt))) :
    (∃ fields body, buildPayload settings request = .ok fields ∧ jsonFields? fields = some body ∧
        Publishable payloadSchema body) ↔ Sendable settings world.now args := by
  have haccepted := accepted_of_submit hsubmit
  rw [← haccepted.sends_iff]
  constructor
  · rintro ⟨fields, body, hfields, hbody, -⟩
    exact ⟨body, fields, hfields, hbody⟩
  · rintro ⟨body, hsends⟩
    obtain ⟨fields, hfields, hbody⟩ := hsends
    refine ⟨fields, body, hfields, hbody, ?_⟩
    obtain ⟨key, title, text, rfl, hkey, htitle, htext⟩ := haccepted.sent ⟨fields, hfields, hbody⟩
    have hbounded := haccepted.bounded
    rw [publishable_iff (parseRequest_sentPayload hrequested hnotify) rfl]
    exact ⟨valid_receivedRequest hkey htitle htext,
      validatePayload_receivedRequest hkey hbounded.delay hbounded.notifyAt⟩

/-! ### A sample -/

section Sample

omit [Pydantic]

/-- The bytes of an ASCII text. -/
def bytes (s : String) : List UInt8 := s.toList.map fun c => UInt8.ofNat c.toNat

/-- The integer of a text of ASCII digits. -/
def sampleNat (s : Str) : Option ℤ :=
  if s ≠ [] ∧ s.all (fun c => 48 ≤ c.toNat && c.toNat < 58) = true then
    some (s.foldl (fun n c => n * 10 + (c.toNat - 48 : ℕ)) 0)
  else none

/-- The library on the texts of the samples, for a table of the bodies that are read. -/
abbrev Stdlib.sample (bodies : List (String × Value)) : Stdlib where
  loads raw :=
    match (bodies.map fun b => (bytes b.1, b.2)).lookup raw with
    | some value => .ok value
    | none => .error (.jsonDecodeError "Expecting value")
  datetimeFromIsoformat s :=
    if s = .of "0001-01-01T00:00:00+00:00" then some (-62135596800000000, some 0) else none
  localToUtc wall := some wall
  decimal _ := none
  timesSixty
    | .finite q => .finite (q * 60)
    | x => x
  intOfStr
    | .char '-' :: s => (sampleNat s).map (- ·)
    | s => sampleNat s
  floatOfStr _ := none
  zoneInfo _ := none
  urlPath s := some s

/-- The zone of the key `Etc/GMT+5`. -/
def sampleZone : ZoneInfo where
  key := "Etc/GMT+5"
  fromutc t := (t - seconds 18000, false)
  utcoffset _ _ := -seconds 18000
  fromutc_utcoffset t := by simp

def sampleSettings : PublisherSettings where
  eventServerUrl := .of "http://eventserver:8080"
  publisherToken := .of "tttttttttttttttttttttttttttttttt"
  ingressToken := some (.of "ingress-token-0123456789")
  httpHost := .of "0.0.0.0"
  httpPort := 8080
  defaultDelaySeconds := 300
  maxDelaySeconds := 3600
  requestTimeoutSeconds := .finite 10
  maxBodyBytes := 16384
  displayTimezone := sampleZone
  default_nonneg := by decide
  default_le := by decide
  max_le := by decide
  body_bounds := by decide

/-- At eight; the server cannot be reached. -/
def sampleWorld : World where
  now := seconds 1789545600
  now_range := by decide
  uuid := ⟨List.replicate 32 'a', rfl⟩
  urlopen _ := .urlError

/-- For the default delay. -/
def sampleArguments : Arguments := { text := .str (.of "drink water") }

def sampleRequest : ReminderRequest where
  requestId := List.replicate 32 (.char 'a')
  dedupeKey := List.replicate 32 (.char 'a')
  title := defaultTitle
  text := .of "drink water"
  delaySeconds := 300
  requestedAt := seconds 1789545600
  notifyAt := seconds 1789545900

/-- For the first instant of the year 1. -/
def pastArguments : Arguments :=
  { text := .str (.of "drink water"), at_ := .str (.of "0001-01-01T00:00:00+00:00") }

/-- **A reminder is accepted that cannot be rendered**: its point in time is before the year 1 on
the wall. -/
theorem not_sendable :
    let _ := Stdlib.sample []
    (submit sampleSettings sampleWorld pastArguments).1 =
        [{ sampleRequest with delaySeconds := 0, notifyAt := -62135596800000000 }] ∧
      buildPayload sampleSettings
        { sampleRequest with delaySeconds := 0, notifyAt := -62135596800000000 } =
          .error .overflowError := ⟨rfl, rfl⟩

/-- The library on the texts of the sample's points in time. -/
abbrev samplePydantic : Pydantic where
  intOfStr _ := none
  datetimeOfStr s :=
    if s = "2026-09-16T08:00:00Z" then some (.aware (seconds 1789545600))
    else if s = "2026-09-16T08:05:00Z" then some (.aware (seconds 1789545900)) else none
  datetimeOfNumber _ := none

/-- The reminder of the sample is a valid event. -/
theorem publishable_reminder_sample :
    let _ := Stdlib.sample []
    let _ := samplePydantic
    let _ := Runtime.sample
    ∃ fields body, buildPayload sampleSettings sampleRequest = .ok fields ∧
      jsonFields? fields = some body ∧ Publishable payloadSchema body := by
  let _ := Stdlib.sample []
  let _ := samplePydantic
  let _ := Runtime.sample
  have hsubmit : (submit sampleSettings sampleWorld sampleArguments).1 = [sampleRequest] := rfl
  have hprepare : prepare sampleSettings sampleWorld.now sampleWorld.uuid sampleArguments =
      .ok sampleRequest := rfl
  have hsendable : Sendable sampleSettings sampleWorld.now sampleArguments := by
    refine ⟨fun s h => ?_, fun s h => ?_, fun t n h => ?_⟩
    · cases h
    · cases h
      exact Str.encodable_of _
    · rw [(h.unique (prepare_eq_ok.mp hprepare).moment).1]
      decide
  exact (publishable_reminder hsubmit rfl rfl).mpr hsendable

end Sample

end EventServer.DemoReminder
