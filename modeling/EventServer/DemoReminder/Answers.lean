import EventServer.DemoReminder.Contract
import EventServer.DemoReminder.Server

/-! # Which requests are answered

`do_POST` catches what `submit` refuses and what fails at the server; any other exception leaves the
client without an answer. They come from the comparison of the token, the length of the body, the
reading of JSON, the timing, the rendering, the encoding of texts and the answer of the server.
`Regular` says of a request that none of these raises, and exactly then it is answered, once
(`answers_iff`). -/

namespace EventServer.DemoReminder

open EventServer.Lib EventServer.Python

/-! ### Ends of a handler -/

/-- The handler returns exactly if `P`, and then it has written one response. -/
structure Ends (x : Exchange) (r : Handled Unit) (P : Prop) : Prop where
  iff : r.2 = .ok () ↔ P
  once : r.2 = .ok () → ∃ response, r.1.responses = x.responses ++ [response]

theorem Ends.congr {x : Exchange} {r : Handled Unit} {P Q : Prop} (h : Ends x r P) (hpq : P ↔ Q) :
    Ends x r Q := ⟨h.iff.trans hpq, h.once⟩

theorem ends_error {x y : Exchange} {e : Raised} {P : Prop} (h : ¬ P) : Ends x (y, .error e) P where
  iff := iff_of_false (fun he => by cases he) h
  once he := by cases he

theorem ends_respond {x y : Exchange} {status : ℕ} {payload : Fields}
    (hsame : y.responses = x.responses) :
    Ends x (respond status payload y) (∃ body, jsonFields? payload = some body) := by
  unfold respond
  cases h : jsonFields? payload with
  | none => exact ends_error (by simp)
  | some body => exact ⟨iff_of_true rfl ⟨body, rfl⟩, fun _ => ⟨_, by rw [hsame]⟩⟩

theorem jsonFields?_errorPayload {message : Str} :
    (∃ body, jsonFields? (errorPayload message) = some body) ↔ message.Encodable := by
  unfold Str.Encodable
  cases h : message.encode? <;> simp [errorPayload, jsonFields?, Value.json?, h]

theorem ends_respond_error {x y : Exchange} {status : ℕ} {message : Str} {P : Prop}
    (hsame : y.responses = x.responses) (hm : message.Encodable) (hp : P) :
    Ends x (respond status (errorPayload message) y) P :=
  (ends_respond hsame).congr (iff_of_true (jsonFields?_errorPayload.mpr hm) hp)

/-! ### Messages -/

/-- Raised before the publisher is called; the texts of refusals have no surrogates. -/
def Raised.BeforeCall : Raised → Prop
  | .reminderInputError message | .delayError message => message.Encodable
  | .publishError _ => False
  | _ => True

/-- Raised by the call of the publisher. -/
def Raised.InCall : Raised → Prop
  | .publishError message => message.Encodable
  | .reminderInputError _ | .delayError _ => False
  | _ => True

section Messages

variable {α : Type}

theorem raises_inputError (message : String) :
    Raises Raised.BeforeCall (inputError message : Except Raised α) :=
  raises_error.mpr (Str.encodable_of message)

theorem raises_delayError (message : String) :
    Raises Raised.BeforeCall (delayError message : Except Raised α) :=
  raises_error.mpr (Str.encodable_of message)

theorem raises_checked (t : Time) : Raises Raised.BeforeCall (checked t) := by
  unfold checked
  split_ifs
  · exact raises_ok t
  · exact raises_error.mpr trivial

theorem raises_intOfFloat (x : Number) : Raises Raised.BeforeCall (intOfFloat x) := by
  cases x with
  | finite _ | negZero => exact raises_ok _
  | inf | negInf | nan => exact raises_error.mpr trivial

theorem raises_parseSeconds (value : Value) : Raises Raised.BeforeCall (parseSeconds value) := by
  cases value with
  | int n =>
    unfold parseSeconds
    simp only
    split_ifs
    · exact raises_inputError _
    · exact raises_ok _
  | float x =>
    unfold parseSeconds
    simp only
    split_ifs
    · exact raises_inputError _
    · exact raises_intOfFloat x
  | null | bool _ | str _ | arr _ | obj _ => exact raises_inputError _

/-- A `ReminderInputError` with a text of the source. -/
def Raised.IsInput (e : Raised) : Prop := ∃ message : String, e = .reminderInputError (.of message)

theorem Raised.IsInput.beforeCall {e : Raised} (h : e.IsInput) : e.BeforeCall := by
  obtain ⟨message, rfl⟩ := h
  exact Str.encodable_of message

theorem not_escapes_of_input {x : Except Raised α} (h : Raises Raised.IsInput x) : ¬ Escapes x := by
  rintro ⟨e, he, hr⟩
  obtain ⟨message, rfl⟩ := h e he
  cases hr

theorem input_error (message : String) :
    Raises Raised.IsInput (inputError message : Except Raised α) := raises_error.mpr ⟨message, rfl⟩

theorem input_cleanText (value : Value) : Raises Raised.IsInput (cleanText value) := by
  cases value with
  | str s =>
    unfold cleanText
    simp only
    split_ifs
    · exact input_error _
    · exact input_error _
    · exact raises_ok _
  | null | bool _ | int _ | float _ | arr _ | obj _ => exact input_error _

theorem input_cleanTitle (value : Value) : Raises Raised.IsInput (cleanTitle value) := by
  cases value with
  | null => exact raises_ok _
  | str s =>
    unfold cleanTitle
    simp only
    split_ifs
    · exact raises_ok _
    · exact input_error _
    · exact raises_ok _
  | bool _ | int _ | float _ | arr _ | obj _ => exact input_error _

theorem input_chooseKey (uuid : Uuid)
    (value : Value) : Raises Raised.IsInput (chooseKey uuid value) := by
  unfold chooseKey
  split_ifs
  · cases value with
    | str s =>
      unfold cleanDedupeKey
      simp only
      split_ifs
      · exact raises_ok _
      · exact input_error _
    | null | bool _ | int _ | float _ | arr _ | obj _ => exact input_error _
  · exact raises_ok _

variable [Stdlib]

theorem raises_delayValue (value : Value) : Raises Raised.BeforeCall (delayValue value) := by
  cases value with
  | int n => exact raises_ok _
  | float x => exact raises_intOfFloat _
  | str s =>
    unfold delayValue
    simp only
    cases hm : matchDelay s.strip with
    | none => exact raises_delayError _
    | some m =>
      obtain ⟨v, unit⟩ := m
      have hunit : unit.Encodable := by
        unfold matchDelay at hm
        simp only at hm
        split_ifs at hm with hall
        cases hm
        exact Str.encodable_of_all hall.2.2 fun _ => rfl
      simp only
      cases factor? unit with
      | none => exact raises_error.mpr (Str.encodable_append.mpr ⟨Str.encodable_of _, hunit⟩)
      | some factor => exact raises_ok _
  | null | bool _ | arr _ | obj _ => exact raises_delayError _

theorem raises_parseDelay (value : Value) (maxSeconds : ℤ) :
    Raises Raised.BeforeCall (parseDelay value maxSeconds) := by
  refine raises_bind (raises_delayValue value) fun n _ => ?_
  split_ifs
  · exact raises_delayError _
  · exact raises_delayError _
  · exact raises_ok _

theorem raises_parseAbsolute (value : Value) : Raises Raised.BeforeCall (parseAbsolute value) := by
  cases value with
  | str s =>
    unfold parseAbsolute
    simp only
    split
    · exact raises_inputError _
    · exact raises_inputError _
    · exact raises_checked _
  | null | bool _ | int _ | float _ | arr _ | obj _ => exact raises_inputError _

theorem raises_chooseTiming (settings : PublisherSettings) (now : Time) (args : Arguments) :
    Raises Raised.BeforeCall (chooseTiming settings now args) := by
  unfold chooseTiming
  split_ifs
  · exact raises_bind (raises_parseAbsolute _) fun _ _ => raises_ok _
  · refine raises_bind ?_ fun _ _ => raises_bind (raises_checked _) fun _ _ => raises_ok _
    unfold chooseSeconds
    split_ifs
    · exact raises_ok _
    · exact raises_parseSeconds _
    · exact raises_parseDelay _ _

theorem raises_resolveTiming (settings : PublisherSettings) (now : Time) (args : Arguments) :
    Raises Raised.BeforeCall (resolveTiming settings now args) := by
  unfold resolveTiming
  split_ifs
  · exact raises_inputError _
  · refine raises_bind (raises_chooseTiming settings now args) fun _ _ => ?_
    split_ifs
    · exact raises_inputError _
    · exact raises_ok _

omit [Stdlib] in
/-- The part of `submit` between the timing and the publisher. -/
def finish (now : Time) (uuid : Uuid) (args : Arguments) (timing : Time × ℤ) :
    Except Raised ReminderRequest := do
  let key ← chooseKey uuid args.dedupeKey
  let title ← cleanTitle args.title
  let text ← cleanText args.text
  .ok ⟨key, key, title, text, timing.2, now, timing.1⟩

theorem prepare_eq (settings : PublisherSettings) (now : Time) (uuid : Uuid) (args : Arguments) :
    prepare settings now uuid args =
      (resolveTiming settings now args >>= finish now uuid args) := rfl

omit [Stdlib] in
theorem input_finish (now : Time) (uuid : Uuid) (args : Arguments) (timing : Time × ℤ) :
    Raises Raised.IsInput (finish now uuid args timing) :=
  raises_bind (input_chooseKey _ _) fun _ _ => raises_bind (input_cleanTitle _) fun _ _ =>
    raises_bind (input_cleanText _) fun _ _ => raises_ok _

theorem raises_prepare (settings : PublisherSettings) (now : Time) (uuid : Uuid)
    (args : Arguments) :
    Raises Raised.BeforeCall (prepare settings now uuid args) := by
  rw [prepare_eq]
  exact raises_bind (raises_resolveTiming settings now args) fun timing _ =>
    (input_finish now uuid args timing).mono fun _ h => h.beforeCall

theorem escapes_prepare {settings : PublisherSettings} {now : Time} {uuid : Uuid}
    {args : Arguments} :
    Escapes (prepare settings now uuid args) ↔ ¬ Computable settings now args := by
  rw [prepare_eq, escapes_bind_left fun timing =>
    not_escapes_of_input (input_finish now uuid args timing), escapes_resolveTiming]

end Messages

/-! ### The answer of the server -/

variable [Stdlib]

/-- The point in time can be converted to UTC. -/
def Convertible : Time × Option ℤ → Prop
  | (wall, some offset) => InRange (wall - offset)
  | (wall, none) => ∃ t, Stdlib.localToUtc wall = some t

/-- The result can be written in a response. -/
structure Writable (result : PublishResult) : Prop where
  eventId : result.eventId.Encodable
  notifyAt : ∀ value, result.notifyAt = some value → Convertible value

/-- The bytes of an answer are read without an exception that is not caught, and what is said of the
event can be written in a response. -/
structure Legible (raw : List UInt8) : Prop where
  digits : Stdlib.loads raw ≠ .error .valueError
  nesting : Stdlib.loads raw ≠ .error .recursionError
  eventId : ∀ data eventId, Stdlib.loads raw = .ok (.obj data) →
    Fields.get data "event_id" = .str eventId → eventId.Encodable
  notifyAt : ∀ data eventId value, Stdlib.loads raw = .ok (.obj data) →
    Fields.get data "event_id" = .str eventId → eventId ≠ [] →
      parseTimestamp (Fields.get data "notify_at") = some value → Convertible value

/-- The call of the server ends well or as the client expects. -/
def Reply.Regular : Reply → Prop
  | .response status raw => status = 200 → raw.length ≤ maxResponseBytes → Legible raw
  | .httpError _ | .urlError => True
  | .raises => False

theorem succeeds_toUtc {value : Time × Option ℤ} : Succeeds (toUtc value) ↔ Convertible value := by
  obtain ⟨wall, offset⟩ := value
  cases offset with
  | some offset =>
    constructor
    · rintro ⟨t, ht⟩
      exact (checked_eq_ok.mp ht).1
    · intro h
      exact ⟨_, checked_eq_ok.mpr ⟨h, rfl⟩⟩
  | none =>
    cases h : Stdlib.localToUtc wall with
    | none => simp [toUtc, Convertible, h]
    | some t => simp [toUtc, Convertible, h]

theorem ends_answer_ok {x y : Exchange} (hsame : y.responses = x.responses)
    (result : PublishResult) :
    Ends x (answer (.ok result) y) (Writable result) := by
  unfold answer serialize
  simp only
  have hnotify : Succeeds (notifyAtValue result) ↔
      ∀ value, result.notifyAt = some value → Convertible value := by
    unfold notifyAtValue
    cases result.notifyAt with
    | none => simp
    | some value => simp [succeeds_map, succeeds_toUtc]
  cases hv : notifyAtValue result with
  | error e =>
    refine ends_error fun h => ?_
    obtain ⟨v, hok⟩ := hnotify.mpr h.notifyAt
    rw [hv] at hok
    cases hok
  | ok v =>
    have hall := hnotify.mp ⟨v, hv⟩
    have hv' : ∃ j, v.json? = some j := by
      unfold notifyAtValue at hv
      split at hv
      · cases hv
        exact ⟨_, rfl⟩
      · obtain ⟨t, -, rfl⟩ := map_eq_ok.mp hv
        exact ⟨.str (toUtcIso t), by simp [Value.json?]⟩
    obtain ⟨j, hj⟩ := hv'
    refine (ends_respond hsame).congr ?_
    have hencode : (∃ body, jsonFields? [(Str.of "event_id", Value.str result.eventId),
        (Str.of "created", .bool result.created),
        (Str.of "deliveries_created", .int result.deliveriesCreated), (Str.of "notify_at", v)] =
          some body) ↔ result.eventId.Encodable := by
      unfold Str.Encodable
      cases he : result.eventId.encode? <;> simp [jsonFields?, Value.json?, he, hj]
    exact hencode.trans ⟨fun h => ⟨h, hall⟩, fun h => h.eventId⟩

theorem legible_of_no_event {raw : List UInt8} {value : Value}
    (hvalue : Stdlib.loads raw = .ok value)
    (hall : ∀ data eventId, value = .obj data → Fields.get data "event_id" = .str eventId →
      eventId = []) : Legible raw := by
  refine ⟨fun h => ?_, fun h => ?_, fun data eventId h hid => ?_,
    fun data eventId _ h hid hne => ?_⟩
  · rw [hvalue] at h
    cases h
  · rw [hvalue] at h
    cases h
  · rw [hvalue] at h
    cases h
    rw [hall data eventId rfl hid]
    exact Str.encodable_of ""
  · rw [hvalue] at h
    cases h
    exact absurd (hall data eventId rfl hid) hne

theorem parseResponse_of_event {raw : List UInt8} {data : Fields} {eventId : Str}
    (hloads : Stdlib.loads raw = .ok (.obj data)) (hid : Fields.get data "event_id" = .str eventId)
    (hne : eventId ≠ []) : ∃ result, parseResponse raw = .ok result ∧ result.eventId = eventId ∧
      result.notifyAt = parseTimestamp (Fields.get data "notify_at") := by
  unfold parseResponse
  rw [hloads]
  simp only [hid, if_neg hne]
  exact ⟨_, rfl, rfl, rfl⟩

theorem writable_iff_legible {raw : List UInt8} {data : Fields} {result : PublishResult}
    (hloads : Stdlib.loads raw = .ok (.obj data))
    (hid : Fields.get data "event_id" = .str result.eventId) (hne : result.eventId ≠ [])
    (hat : result.notifyAt = parseTimestamp (Fields.get data "notify_at")) :
    Writable result ↔ Legible raw := by
  constructor
  · rintro ⟨henc, hconvertible⟩
    refine ⟨by simp [hloads], by simp [hloads], fun data' eventId h h' => ?_,
      fun data' eventId stamp h _ _ hstamp => ?_⟩
    · rw [hloads] at h
      cases h
      rw [hid] at h'
      cases h'
      exact henc
    · rw [hloads] at h
      cases h
      rw [← hat] at hstamp
      exact hconvertible stamp hstamp
  · intro h
    refine ⟨h.eventId data result.eventId hloads hid, fun stamp hstamp => ?_⟩
    rw [hat] at hstamp
    exact h.notifyAt data result.eventId stamp hloads hid hne hstamp

theorem parseResponse_cases (raw : List UInt8) :
    (Legible raw ∧ ∃ message, parseResponse raw = publishError message) ∨
      (¬ Legible raw ∧ (parseResponse raw = .error .valueError ∨
        parseResponse raw = .error .recursionError)) ∨
      ∃ result, parseResponse raw = .ok result ∧ (Writable result ↔ Legible raw) := by
  cases hloads : Stdlib.loads raw with
  | error e =>
    cases e with
    | valueError =>
      exact Or.inr (Or.inl ⟨fun h => h.digits hloads,
        Or.inl (by simp only [parseResponse, hloads])⟩)
    | recursionError =>
      exact Or.inr (Or.inl ⟨fun h => h.nesting hloads,
        Or.inr (by simp only [parseResponse, hloads])⟩)
    | unicodeDecodeError | jsonDecodeError _ =>
      refine Or.inl ⟨⟨?_, ?_, ?_, ?_⟩, "EventServer returned a malformed response",
        by simp only [parseResponse, hloads]⟩
      all_goals simp [hloads]
  | ok value =>
    cases value with
    | obj data =>
      cases hid : Fields.get data "event_id" with
      | str eventId =>
        by_cases hempty : eventId = []
        · refine Or.inl ⟨legible_of_no_event hloads fun data' eventId' h h' => ?_,
            "EventServer response is missing event_id", ?_⟩
          · cases h
            rw [hid] at h'
            cases h'
            exact hempty
          · simp only [parseResponse, hloads, hid, if_pos hempty]
        · obtain ⟨result, hparse, rfl, hat⟩ := parseResponse_of_event hloads hid hempty
          exact Or.inr (Or.inr ⟨result, hparse, writable_iff_legible hloads hid hempty hat⟩)
      | null | bool _ | int _ | float _ | arr _ | obj _ =>
        refine Or.inl ⟨legible_of_no_event hloads fun data' eventId' h h' => ?_,
          "EventServer response is missing event_id", ?_⟩
        · cases h
          rw [hid] at h'
          cases h'
        · simp only [parseResponse, hloads, hid]
    | null | bool _ | int _ | float _ | str _ | arr _ =>
      refine Or.inl ⟨legible_of_no_event hloads fun data' eventId' h _ => ?_,
        "EventServer returned a malformed response", ?_⟩
      · cases h
      · simp only [parseResponse, hloads]

theorem ends_answer_received {x y : Exchange} (hsame : y.responses = x.responses) (reply : Reply) :
    Ends x (answer (received reply) y) reply.Regular := by
  have hexpected : ∀ (message : String) (P : Prop), P →
      Ends x (answer (publishError message) y) P :=
    fun message P hp => ends_respond_error hsame (Str.encodable_of message) hp
  cases reply with
  | httpError code => exact hexpected _ _ trivial
  | urlError => exact hexpected _ _ trivial
  | raises => exact ends_error fun h => h
  | response status raw =>
    unfold received
    simp only
    split_ifs with hstatus hlong
    · exact hexpected _ _ fun h => absurd h hstatus
    · exact hexpected _ _ fun _ h => absurd h (not_le.mpr hlong)
    · have hregular : (Reply.response status raw).Regular ↔ Legible raw :=
        ⟨fun h => h (not_not.mp hstatus) (not_lt.mp hlong), fun h _ _ => h⟩
      refine Ends.congr ?_ hregular.symm
      obtain ⟨hlegible, message, hp⟩ | ⟨hillegible, hp | hp⟩ | ⟨result, hp, hiff⟩ :=
        parseResponse_cases raw
      · rw [hp]
        exact hexpected message _ hlegible
      · rw [hp]
        exact ends_error hillegible
      · rw [hp]
        exact ends_error hillegible
      · rw [hp]
        exact (ends_answer_ok hsame result).congr hiff

/-! ### Submission -/

variable {settings : PublisherSettings} {world : World} {args : Arguments}

/-- The timing can be computed, and if the publisher is called, the reminder can be sent and the
call ends as the client expects. -/
structure Submittable (settings : PublisherSettings) (world : World) (args : Arguments) : Prop where
  timing : Computable settings world.now args
  sendable : ∀ request, Accepted settings world.now world.uuid args request →
    Sendable settings world.now args
  reply : ∀ request body, Accepted settings world.now world.uuid args request →
    Sends settings request body → (world.urlopen (httpRequest settings body)).Regular

omit [Stdlib] in
theorem overflows_buildPayload (settings : PublisherSettings) (request : ReminderRequest) :
    RaisesOnly .overflowError (buildPayload settings request) := by
  refine raises_map (raises_map (raises_bind ?_ fun _ _ => raises_ok _))
  intro e h
  unfold checked at h
  split_ifs at h
  cases h
  rfl

theorem publish_cases (settings : PublisherSettings) (urlopen : HttpRequest → Reply)
    (request : ReminderRequest) :
    ((¬ ∃ body, Sends settings request body) ∧
      (publish settings urlopen request = .error .overflowError ∨
      publish settings urlopen request = .error .unicodeEncodeError)) ∨
      ∃ body, (∀ body', Sends settings request body' ↔ body = body') ∧
        publish settings urlopen request = received (urlopen (httpRequest settings body)) := by
  unfold Sends
  cases hb : buildPayload settings request with
  | error e =>
    obtain rfl : e = .overflowError := overflows_buildPayload settings request e hb
    refine Or.inl ⟨?_, Or.inl ?_⟩
    · rintro ⟨body, fields, hfields, -⟩
      cases hfields
    · simp only [publish, hb, bind, Except.bind]
  | ok fields =>
    cases hj : jsonFields? fields with
    | none =>
      refine Or.inl ⟨?_, Or.inr ?_⟩
      · rintro ⟨body, fields', hfields, hbody⟩
        cases hfields
        rw [hj] at hbody
        cases hbody
      · simp only [publish, hb, bind, Except.bind, hj]
    | some body =>
      refine Or.inr ⟨body, fun body' => ?_, ?_⟩
      · constructor
        · rintro ⟨fields', hfields, hbody⟩
          cases hfields
          rw [hj] at hbody
          cases hbody
          rfl
        · rintro rfl
          exact ⟨fields, rfl, hj⟩
      · simp only [publish, hb, bind, Except.bind, hj]

/-- Of a request that `prepare` refuses only the timing can be irregular. -/
theorem submittable_of_error {e : Raised}
    (hp : prepare settings world.now world.uuid args = .error e) :
    Submittable settings world args ↔ Computable settings world.now args := by
  have hnone : ∀ request, ¬ Accepted settings world.now world.uuid args request := by
    intro request h
    rw [← prepare_eq_ok, hp] at h
    cases h
  exact ⟨fun h => h.timing, fun h =>
    ⟨h, fun request ha => absurd ha (hnone request), fun request _ ha => absurd ha (hnone request)⟩⟩

/-- What `prepare` raises is no refusal exactly if the timing cannot be computed. -/
theorem not_isRefusal_iff {e : Raised}
    (hp : prepare settings world.now world.uuid args = .error e) :
    e.isRefusal = false ↔ ¬ Computable settings world.now args := by
  have hprepare : Escapes (prepare settings world.now world.uuid args) ↔
      ¬ Computable settings world.now args := escapes_prepare
  rw [← hprepare, hp]
  constructor
  · intro hr
    exact ⟨e, rfl, hr⟩
  · rintro ⟨e', he, hr⟩
    cases he
    exact hr

theorem submittable_of_ok {request : ReminderRequest}
    (hp : prepare settings world.now world.uuid args = .ok request) :
    Submittable settings world args ↔ Sendable settings world.now args ∧
      ∀ body, Sends settings request body →
        (world.urlopen (httpRequest settings body)).Regular := by
  have haccepted := prepare_eq_ok.mp hp
  have hone : ∀ request', Accepted settings world.now world.uuid args request' →
      request' = request := by
    intro request' h
    rw [← prepare_eq_ok, hp] at h
    cases h
    rfl
  have hcomputable : Computable settings world.now args := by
    have hprepare : Escapes (prepare settings world.now world.uuid args) ↔
        ¬ Computable settings world.now args := escapes_prepare
    by_contra hnot
    rw [← hprepare, hp] at hnot
    exact not_escapes_ok request hnot
  constructor
  · intro h
    exact ⟨h.sendable request haccepted, fun body => h.reply request body haccepted⟩
  · rintro ⟨hsend, hreply⟩
    refine ⟨hcomputable, fun _ _ => hsend, fun request' body ha hs => ?_⟩
    rw [hone request' ha] at hs
    exact hreply body hs

theorem ends_submit {x y : Exchange} (hsame : y.responses = x.responses) :
    Ends x (answer (submit settings world args).2 y) (Submittable settings world args) := by
  unfold submit
  cases hp : prepare settings world.now world.uuid args with
  | error e =>
    have hescapes := not_isRefusal_iff hp
    have hbefore := raises_error.mp (hp ▸ raises_prepare settings world.now world.uuid args)
    refine Ends.congr ?_ (submittable_of_error hp).symm
    cases e with
    | reminderInputError message | delayError message =>
      refine ends_respond_error hsame hbefore ?_
      by_contra hnot
      cases hescapes.mpr hnot
    | publishError message => exact absurd hbefore id
    | valueError | overflowError | typeError | recursionError | unicodeEncodeError
    | transportError =>
      exact ends_error (hescapes.mp rfl)
  | ok request =>
    refine Ends.congr ?_ (submittable_of_ok hp).symm
    rw [← (prepare_eq_ok.mp hp).sends_iff]
    obtain ⟨hnone, h | h⟩ | ⟨body, hbody, h⟩ := publish_cases settings world.urlopen request
    · simp only [h]
      exact ends_error fun hs => hnone hs.1
    · simp only [h]
      exact ends_error fun hs => hnone hs.1
    · simp only [h, hbody]
      exact (ends_answer_received hsame _).congr (by simp)

/-! ### The token -/

section Token

omit [Stdlib]

/-- The header carries the token of the settings. -/
def Authentic (settings : PublisherSettings) (head : Head) : Prop :=
  ∃ token rest, settings.ingressToken = some token ∧ token ≠ [] ∧
    head.authorization = some (bearer ++ rest) ∧ Str.strip rest = token

/-- The tokens that are compared are ASCII texts. -/
def Comparable (settings : PublisherSettings) (head : Head) : Prop :=
  ∀ token rest, settings.ingressToken = some token → token ≠ [] →
    head.authorization = some (bearer ++ rest) → (Str.strip rest).isAscii = true ∧
      token.isAscii = true

theorem authorized_cases (settings : PublisherSettings) (head : Head) :
    (¬ Comparable settings head ∧ authorized settings head = .error .typeError) ∨
      (Comparable settings head ∧ ¬ Authentic settings head ∧
        authorized settings head = .ok false) ∨
        Comparable settings head ∧ Authentic settings head ∧
          authorized settings head = .ok true := by
  by_cases hgiven : ∃ token rest, settings.ingressToken = some token ∧ token ≠ [] ∧
      head.authorization = some (bearer ++ rest)
  · obtain ⟨token, rest, htoken, hne, hheader⟩ := hgiven
    have hdrop : (bearer ++ rest).drop bearer.length = rest := List.drop_left
    have hcompare : authorized settings head = compareDigest (Str.strip rest) token := by
      simp only [authorized, htoken, hheader, Option.getD_some, if_neg hne,
        List.prefix_append, not_true_eq_false, if_false, hdrop]
    have honly : ∀ token' rest', settings.ingressToken = some token' →
        head.authorization = some (bearer ++ rest') → token' = token ∧ rest' = rest := by
      intro token' rest' ht hh
      rw [htoken] at ht
      rw [hheader, Option.some.injEq, List.append_right_inj] at hh
      cases ht
      exact ⟨rfl, hh.symm⟩
    have hcomparable : Comparable settings head ↔
        (Str.strip rest).isAscii = true ∧ token.isAscii = true := by
      constructor
      · intro h
        exact h token rest htoken hne hheader
      · intro h token' rest' ht _ hh
        obtain ⟨rfl, rfl⟩ := honly token' rest' ht hh
        exact h
    have hauthentic : Authentic settings head ↔ Str.strip rest = token := by
      constructor
      · rintro ⟨token', rest', ht, -, hh, he⟩
        obtain ⟨rfl, rfl⟩ := honly token' rest' ht hh
        exact he
      · intro he
        exact ⟨token, rest, htoken, hne, hheader, he⟩
    rw [hcompare, hcomparable, hauthentic]
    unfold compareDigest
    split_ifs with hascii
    · by_cases he : Str.strip rest = token
      · exact Or.inr (Or.inr ⟨hascii, he, by rw [decide_eq_true he]⟩)
      · exact Or.inr (Or.inl ⟨hascii, he, by rw [decide_eq_false he]⟩)
    · exact Or.inl ⟨hascii, rfl⟩
  · refine Or.inr (Or.inl ⟨?_, ?_, ?_⟩)
    · intro token rest ht hne hh
      exact absurd ⟨token, rest, ht, hne, hh⟩ hgiven
    · rintro ⟨token, rest, ht, hne, hh, -⟩
      exact hgiven ⟨token, rest, ht, hne, hh⟩
    · unfold authorized
      simp only
      split_ifs with hempty hbearer
      · rfl
      · -- a token is expected and the header begins as it should
        exfalso
        obtain ⟨rest, hrest⟩ := hbearer
        cases ht : settings.ingressToken with
        | none => exact hempty (by rw [ht]; rfl)
        | some token =>
          rw [ht, Option.getD_some] at hempty
          cases hh : head.authorization with
          | none =>
            rw [hh] at hrest
            exact absurd hrest (by simp [bearer, Str.of])
          | some header =>
            rw [hh, Option.getD_some] at hrest
            exact hgiven ⟨token, rest, ht, hempty, by rw [hh, hrest]⟩
      · rfl

end Token

/-! ### Names of fields -/

section Names

omit [Stdlib]

theorem mem_unknownFields {payload : Fields} {name : Str} : name ∈ unknownFields payload ↔
    (∃ field ∈ payload, field.1 = name) ∧ name ∉ allowedFields := by
  unfold unknownFields
  simp only [List.mem_insertionSort, List.mem_dedup, List.mem_filter, List.mem_map,
    decide_eq_true_eq]

theorem unknownFields_eq_nil {payload : Fields} :
    unknownFields payload = [] ↔ ∀ field ∈ payload, field.1 ∈ allowedFields := by
  rw [List.eq_nil_iff_forall_not_mem]
  constructor
  · intro h field hf
    by_contra hnot
    exact h field.1 (mem_unknownFields.mpr ⟨⟨field, hf, rfl⟩, hnot⟩)
  · intro h name hn
    obtain ⟨⟨field, hf, rfl⟩, hnot⟩ := mem_unknownFields.mp hn
    exact hnot (h field hf)

theorem encodable_intercalate {sep : Str} (hsep : sep.Encodable) (names : List Str) :
    Str.Encodable (List.intercalate sep names) ↔ ∀ name ∈ names, Str.Encodable name := by
  induction names with
  | nil => exact iff_of_true (Str.encodable_of "") (List.forall_mem_nil _)
  | cons name names ih =>
    cases names with
    | nil => simp [List.intercalate]
    | cons name' names =>
      rw [List.forall_mem_cons, ← ih, List.intercalate_cons_cons, Str.encodable_append,
        Str.encodable_append]
      exact and_congr_left fun _ => and_iff_left hsep

end Names

/-! ### The body -/

/-- The bytes of a body are read without an exception that is not caught, the names in a message can
be encoded, and if there are only allowed fields, these can be submitted. -/
structure RegularBody (settings : PublisherSettings) (world : World) (raw : List UInt8) : Prop where
  digits : Stdlib.loads raw ≠ .error .valueError
  nesting : Stdlib.loads raw ≠ .error .recursionError
  names : ∀ payload, Stdlib.loads raw = .ok (.obj payload) → ∀ field ∈ payload,
    field.1 ∉ allowedFields → Str.Encodable field.1
  fields : ∀ payload, Stdlib.loads raw = .ok (.obj payload) →
    (∀ field ∈ payload, field.1 ∈ allowedFields) → Submittable settings world (arguments payload)

theorem regularBody_obj {raw : List UInt8} {payload : Fields}
    (hloads : Stdlib.loads raw = .ok (.obj payload)) : RegularBody settings world raw ↔
      (∀ field ∈ payload, field.1 ∉ allowedFields → Str.Encodable field.1) ∧
        ((∀ field ∈ payload, field.1 ∈ allowedFields) →
          Submittable settings world (arguments payload)) := by
  constructor
  · intro h
    exact ⟨h.names payload hloads, h.fields payload hloads⟩
  · rintro ⟨hnames, hfields⟩
    refine ⟨by simp [hloads], by simp [hloads], ?_, ?_⟩
    · intro payload' h
      rw [hloads] at h
      cases h
      exact hnames
    · intro payload' h
      rw [hloads] at h
      cases h
      exact hfields

theorem ends_handleBody {x y : Exchange} (hsame : y.responses = x.responses) (raw : List UInt8) :
    Ends x (handleBody settings world raw y) (RegularBody settings world raw) := by
  have hrefused : RegularBody settings world raw →
      Ends x (respond 400 (errorPayload (.of "body must be a JSON object")) y)
        (RegularBody settings world raw) := fun h =>
    ends_respond_error hsame (Str.encodable_of _) h
  cases hloads : Stdlib.loads raw with
  | error e =>
    cases e with
    | valueError =>
      simp only [handleBody, hloads]
      exact ends_error fun h => h.digits hloads
    | recursionError =>
      simp only [handleBody, hloads]
      exact ends_error fun h => h.nesting hloads
    | unicodeDecodeError | jsonDecodeError _ =>
      simp only [handleBody, hloads]
      exact hrefused ⟨by simp [hloads], by simp [hloads], by simp [hloads], by simp [hloads]⟩
  | ok value =>
    cases value with
    | obj payload =>
      refine Ends.congr ?_ (regularBody_obj hloads).symm
      simp only [handleBody, hloads]
      by_cases hall : ∀ field ∈ payload, field.1 ∈ allowedFields
      · rw [if_pos (unknownFields_eq_nil.mpr hall)]
        have hends : Ends x (answer (submit settings world (arguments payload)).2
            { y with
              submitted := y.submitted ++ [arguments payload]
              published := y.published ++ (submit settings world (arguments payload)).1 })
            (Submittable settings world (arguments payload)) := ends_submit hsame
        refine hends.congr ⟨fun h => ⟨?_, fun _ => h⟩, fun h => h.2 hall⟩
        exact fun field hf hnot => absurd (hall field hf) hnot
      · rw [if_neg fun h => hall (unknownFields_eq_nil.mp h)]
        refine (ends_respond hsame).congr ?_
        rw [jsonFields?_errorPayload, Str.encodable_append,
          and_iff_right (Str.encodable_of _), encodable_intercalate (Str.encodable_of _)]
        constructor
        · intro h
          refine ⟨fun field hf hnot => ?_, fun hall' => absurd hall' hall⟩
          exact h field.1 (mem_unknownFields.mpr ⟨⟨field, hf, rfl⟩, hnot⟩)
        · rintro ⟨h, -⟩ name hn
          obtain ⟨⟨field, hf, rfl⟩, hnot⟩ := mem_unknownFields.mp hn
          exact h field hf hnot
    | null | bool _ | int _ | float _ | str _ | arr _ =>
      simp only [handleBody, hloads]
      exact hrefused ⟨by simp [hloads], by simp [hloads], by simp [hloads], by simp [hloads]⟩

/-! ### A request for a reminder -/

/-- The bytes that are read as the body of a request that is let in. -/
def Received (settings : PublisherSettings) (head : Head) (unread raw : List UInt8) : Prop :=
  Authentic settings head ∧ ∃ length, Stdlib.intOfStr (head.contentLength.getD []) = some length ∧
    length ≤ settings.maxBodyBytes ∧
      (0 ≤ length ∧ raw = unread.take length.toNat ∨ length = -1 ∧ raw = unread)

/-- Nothing in the request makes `do_POST` raise. -/
structure Regular (settings : PublisherSettings) (world : World) (head : Head)
    (unread : List UInt8) : Prop where
  token : Comparable settings head
  length : Authentic settings head → ∀ length,
    Stdlib.intOfStr (head.contentLength.getD []) = some length → -1 ≤ length
  body : ∀ raw, Received settings head unread raw → RegularBody settings world raw

omit [Stdlib] in
theorem respond_of (status : ℕ) (message : String) (x : Exchange) :
    respond status (errorPayload (.of message)) x =
      ({ x with responses := x.responses ++ [⟨status, errorPayload (.of message)⟩] }, .ok ()) := by
  have hjson : jsonFields? (errorPayload (.of message)) = some [("error", .str message)] := by
    simp [errorPayload, jsonFields?, Value.json?]
  unfold respond
  rw [hjson]

theorem readBody_cases (settings : PublisherSettings) (head : Head) (x : Exchange) :
    ((∀ length, Stdlib.intOfStr (head.contentLength.getD []) = some length →
        (settings.maxBodyBytes : ℤ) < length) ∧ ∃ response, readBody settings.maxBodyBytes head x =
          ({ x with responses := x.responses ++ [response] }, .ok none)) ∨
      (∃ length, Stdlib.intOfStr (head.contentLength.getD []) = some length ∧ length < -1 ∧
        ∃ e, readBody settings.maxBodyBytes head x = (x, .error e)) ∨
      ∃ length raw rest, Stdlib.intOfStr (head.contentLength.getD []) = some length ∧
        length ≤ settings.maxBodyBytes ∧
        (0 ≤ length ∧ raw = x.unread.take length.toNat ∧ rest = x.unread.drop length.toNat ∨
          length = -1 ∧ raw = x.unread ∧ rest = []) ∧
        readBody settings.maxBodyBytes head x =
          ({ x with unread := rest, body := raw }, .ok (some raw)) := by
  cases hlength : Stdlib.intOfStr (head.contentLength.getD []) with
  | none =>
    refine Or.inl ⟨by simp, ⟨411, errorPayload (.of "Content-Length is required")⟩, ?_⟩
    simp only [readBody, hlength, respond_of]
    rfl
  | some length =>
    by_cases hbig : (settings.maxBodyBytes : ℤ) < length
    · refine Or.inl ⟨fun length' h => ?_, ⟨413, errorPayload (.of "body is too large")⟩, ?_⟩
      · cases h
        exact hbig
      · simp only [readBody, hlength, if_pos hbig, respond_of]
        rfl
    · have hread : readBody settings.maxBodyBytes head x = (read length x).map id (·.map some) := by
        simp only [readBody, hlength, if_neg hbig]
      rw [hread]
      unfold read
      by_cases hneg : length < -1
      · refine Or.inr (Or.inl ⟨length, rfl, hneg, ?_⟩)
        by_cases hhuge : length < -9223372036854775808
        · rw [if_pos hhuge]
          exact ⟨.overflowError, rfl⟩
        · rw [if_neg hhuge, if_pos hneg]
          exact ⟨.valueError, rfl⟩
      · have hhuge : ¬ length < -9223372036854775808 := by omega
        rw [if_neg hhuge, if_neg hneg]
        by_cases hall : length = -1
        · rw [if_pos hall]
          exact Or.inr (Or.inr ⟨length, x.unread, [], rfl, not_lt.mp hbig,
            Or.inr ⟨hall, rfl, rfl⟩, rfl⟩)
        · rw [if_neg hall]
          exact Or.inr (Or.inr ⟨length, _, _, rfl, not_lt.mp hbig,
            Or.inl ⟨by omega, rfl, rfl⟩, rfl⟩)

theorem ends_doPost {head : Head} (hpath : Stdlib.urlPath head.path = some reminderPath)
    (x : Exchange) :
    Ends x (doPost settings world head x) (Regular settings world head x.unread) := by
  simp only [doPost, hpath, ne_eq, not_true_eq_false, if_false]
  obtain ⟨hnot, h⟩ | ⟨hcomparable, hnot, h⟩ | ⟨hcomparable, hauthentic, h⟩ :=
    authorized_cases settings head
  · simp only [h]
    exact ends_error fun hr => hnot hr.token
  · simp only [h]
    exact ends_respond_error rfl (Str.encodable_of _)
      ⟨hcomparable, fun ha => absurd ha hnot, fun raw hr => absurd hr.1 hnot⟩
  · simp only [h]
    obtain ⟨hbig, response, hr⟩ | ⟨length, hlength, hneg, e, hr⟩ |
      ⟨length, raw, rest, hlength, hmax, hraw, hr⟩ := readBody_cases settings head x
    · simp only [hr]
      refine ⟨iff_of_true rfl ⟨hcomparable, fun _ length hlength => ?_, ?_⟩,
        fun _ => ⟨response, rfl⟩⟩
      · have := hbig length hlength
        omega
      · rintro raw ⟨-, length, hlength, hmax, -⟩
        exact absurd (hbig length hlength) (not_lt.mpr hmax)
    · simp only [hr]
      refine ends_error fun hregular => ?_
      exact absurd hneg (not_lt.mpr (hregular.length hauthentic length hlength))
    · simp only [hr]
      have hends : Ends x (handleBody settings world raw { x with unread := rest, body := raw })
          (RegularBody settings world raw) := by
        apply ends_handleBody
        rfl
      refine hends.congr ⟨fun hbody => ⟨hcomparable, fun _ length' h' => ?_, ?_⟩,
        fun hregular => ?_⟩
      · rw [hlength] at h'
        cases h'
        omega
      · rintro raw' ⟨-, length', h', -, hraw'⟩
        rw [hlength] at h'
        cases h'
        have hsame : raw' = raw := by
          rcases hraw with ⟨hpos, rfl, -⟩ | ⟨hall, rfl, -⟩ <;> rcases hraw' with ⟨hpos', rfl⟩ |
            ⟨hall', rfl⟩
          · rfl
          · omega
          · omega
          · rfl
        rw [hsame]
        exact hbody
      · refine hregular.body raw ⟨hauthentic, length, hlength, hmax, ?_⟩
        rcases hraw with ⟨hpos, hraw, -⟩ | ⟨hall, hraw, -⟩
        · exact Or.inl ⟨hpos, hraw⟩
        · exact Or.inr ⟨hall, hraw⟩

/-! ### What a request does besides -/

omit [Stdlib] in
theorem exists_respond (status : ℕ) (payload : Fields) (x : Exchange) :
    ∃ responses, (respond status payload x).1 = { x with responses := responses } := by
  unfold respond
  cases jsonFields? payload with
  | none => exact ⟨x.responses, rfl⟩
  | some _ => exact ⟨_, rfl⟩

theorem exists_answer (result : Except Raised PublishResult) (x : Exchange) :
    ∃ responses, (answer result x).1 = { x with responses := responses } := by
  cases result with
  | ok result =>
    unfold answer
    simp only
    cases serialize result with
    | error e => exact ⟨x.responses, rfl⟩
    | ok payload => exact exists_respond _ _ _
  | error e =>
    cases e with
    | reminderInputError _ | delayError _ | publishError _ => exact exists_respond _ _ _
    | valueError | overflowError | typeError | recursionError | unicodeEncodeError
    | transportError =>
      exact ⟨x.responses, rfl⟩

theorem exists_handleFields (settings : PublisherSettings) (world : World) (payload : Fields)
    (x : Exchange) : ∃ responses, (handleFields settings world payload x).1 = { x with
      submitted := x.submitted ++ [arguments payload]
      published := x.published ++ (submit settings world (arguments payload)).1
      responses := responses } := by
  unfold handleFields
  obtain ⟨responses, hr⟩ := exists_answer (submit settings world (arguments payload)).2
    { x with
      submitted := x.submitted ++ [arguments payload]
      published := x.published ++ (submit settings world (arguments payload)).1 }
  rw [hr]
  exact ⟨responses, rfl⟩

theorem handleBody_cases (settings : PublisherSettings) (world : World) (raw : List UInt8)
    (x : Exchange) :
    (∃ responses, (handleBody settings world raw x).1 = { x with responses := responses }) ∨
      ∃ payload, Stdlib.loads raw = .ok (.obj payload) ∧
        (∀ field ∈ payload, field.1 ∈ allowedFields) ∧
        handleBody settings world raw x = handleFields settings world payload x := by
  cases hloads : Stdlib.loads raw with
  | error e =>
    simp only [handleBody, hloads]
    cases e with
    | valueError | recursionError => exact Or.inl ⟨x.responses, rfl⟩
    | unicodeDecodeError | jsonDecodeError _ => exact Or.inl (exists_respond _ _ _)
  | ok value =>
    simp only [handleBody, hloads]
    cases value with
    | obj payload =>
      by_cases hall : unknownFields payload = []
      · exact Or.inr ⟨payload, rfl, unknownFields_eq_nil.mp hall, if_pos hall⟩
      · refine Or.inl ?_
        simp only [if_neg hall]
        exact exists_respond _ _ _
    | null | bool _ | int _ | float _ | str _ | arr _ => exact Or.inl (exists_respond _ _ _)

theorem doPost_cases (settings : PublisherSettings) (world : World) {head : Head}
    (hpath : Stdlib.urlPath head.path = some reminderPath) (x : Exchange) :
    ((doPost settings world head x).1.submitted = x.submitted ∧
        (doPost settings world head x).1.published = x.published) ∨
      ∃ raw rest payload, Authentic settings head ∧ Stdlib.loads raw = .ok (.obj payload) ∧
        (∀ field ∈ payload, field.1 ∈ allowedFields) ∧
        doPost settings world head x =
          handleFields settings world payload { x with unread := rest, body := raw } := by
  simp only [doPost, hpath, ne_eq, not_true_eq_false, if_false]
  obtain ⟨-, h⟩ | ⟨-, -, h⟩ | ⟨-, hauthentic, h⟩ := authorized_cases settings head
  · simp only [h]
    exact Or.inl ⟨trivial, trivial⟩
  · simp only [h]
    obtain ⟨responses, hr⟩ := exists_respond 401
      (errorPayload (.of "missing or invalid ingress token")) x
    rw [hr]
    exact Or.inl ⟨rfl, rfl⟩
  · simp only [h]
    obtain ⟨-, response, hr⟩ | ⟨-, -, -, e, hr⟩ | ⟨length, raw, rest, -, -, -, hr⟩ :=
      readBody_cases settings head x
    · simp only [hr]
      exact Or.inl ⟨trivial, trivial⟩
    · simp only [hr]
      exact Or.inl ⟨trivial, trivial⟩
    · simp only [hr]
      obtain ⟨responses, hb⟩ | ⟨payload, hloads, hall, hb⟩ :=
        handleBody_cases settings world raw { x with unread := rest, body := raw }
      · rw [hb]
        exact Or.inl ⟨rfl, rfl⟩
      · exact Or.inr ⟨raw, rest, payload, hauthentic, hloads, hall, hb⟩

theorem status_of_refused {payload : Fields} {x : Exchange}
    (hok : (handleFields settings world payload x).2 = .ok ())
    (hnone : (submit settings world (arguments payload)).1 = []) :
    ∃ response, (handleFields settings world payload x).1.responses = x.responses ++ [response] ∧
      response.status = 400 := by
  have hbefore := raises_prepare settings world.now world.uuid (arguments payload)
  cases hp : prepare settings world.now world.uuid (arguments payload) with
  | ok request =>
    unfold submit at hnone
    rw [hp] at hnone
    cases hnone
  | error e =>
    have hsubmit : submit settings world (arguments payload) = ([], .error e) := by
      simp only [submit, hp]
    rw [hp, raises_error] at hbefore
    unfold handleFields at hok ⊢
    rw [hsubmit] at hok ⊢
    cases e with
    | reminderInputError message | delayError message =>
      obtain ⟨body, hbody⟩ := jsonFields?_errorPayload.mpr hbefore
      refine ⟨⟨400, errorPayload message⟩, ?_, rfl⟩
      simp only [answer, respond, hbody]
    | publishError message => exact absurd hbefore id
    | valueError | overflowError | typeError | recursionError | unicodeEncodeError
    | transportError =>
      cases hok

/-! ### All requests -/

/-- The request is answered, once; `submit` is called only with the token and for an object with
allowed fields, and what it refuses is answered with 400 before the publisher is called. -/
structure Answers (settings : PublisherSettings) (head : Head) (r : Handled Unit) : Prop where
  returns : r.2 = .ok ()
  once : ∃ response, r.1.responses = [response]
  submits : ∀ args ∈ r.1.submitted, Authentic settings head ∧
    ∃ payload, Stdlib.loads r.1.body = .ok (.obj payload) ∧
      (∀ field ∈ payload, field.1 ∈ allowedFields) ∧ args = arguments payload
  refuses : r.1.submitted ≠ [] → r.1.published = [] →
    ∃ response, r.1.responses = [response] ∧ response.status = 400

/-- **A request for a reminder is answered** exactly if nothing in it makes the handler raise. -/
theorem answers_iff (settings : PublisherSettings) (world : World) {head : Head}
    (hpath : Stdlib.urlPath head.path = some reminderPath) (unread : List UInt8) :
    Answers settings head (doPost settings world head { unread }) ↔
      Regular settings world head unread := by
  have hends : Ends { unread } (doPost settings world head { unread })
      (Regular settings world head unread) := ends_doPost hpath { unread }
  constructor
  · intro h
    exact hends.iff.mp h.returns
  · intro h
    have hok := hends.iff.mpr h
    refine ⟨hok, hends.once hok, ?_, ?_⟩
    · obtain ⟨hnone, -⟩ | ⟨raw, rest, payload, hauthentic, hloads, hall, hpost⟩ :=
        doPost_cases settings world hpath { unread }
      · rw [hnone]
        exact List.forall_mem_nil _
      · obtain ⟨responses, hfields⟩ :=
          exists_handleFields settings world payload { unread := rest, body := raw }
        rw [hpost, hfields]
        intro args hargs
        exact ⟨hauthentic, payload, hloads, hall, List.mem_singleton.mp hargs⟩
    · obtain ⟨hnone, -⟩ | ⟨raw, rest, payload, hauthentic, hloads, hall, hpost⟩ :=
        doPost_cases settings world hpath { unread }
      · intro hsubmitted
        exact absurd hnone hsubmitted
      · intro _ hpublished
        obtain ⟨responses, hfields⟩ :=
          exists_handleFields settings world payload { unread := rest, body := raw }
        rw [hpost, hfields] at hpublished
        rw [hpost] at hok ⊢
        exact status_of_refused hok hpublished

/-! ### A sample -/

section Sample

omit [Stdlib]

/-- A request for a reminder with the token of the sample. -/
def sampleHead (contentLength : String) : Head where
  method := "POST"
  path := reminderPath
  authorization := some (bearer ++ .of "ingress-token-0123456789")
  contentLength := some (.of contentLength)
  closes := false

def hugeBody : String := "\x7b\"text\": \"drink water\", \"delay_seconds\": 1000000000000\x7d"

/-- **A number of seconds that is too large is not refused**: it is added to the clock first. -/
theorem not_answered :
    let _ := Stdlib.sample [(hugeBody, .obj [(.of "text", .str (.of "drink water")),
      (.of "delay_seconds", .int 1000000000000)])]
    (doPost sampleSettings sampleWorld (sampleHead "55") { unread := bytes hugeBody }).2 =
        .error .overflowError ∧
      (doPost sampleSettings sampleWorld (sampleHead "55")
        { unread := bytes hugeBody }).1.responses = [] := ⟨rfl, rfl⟩

def sampleBody : String := "\x7b\"delay\": 5\x7d"

/-- The request of the sample is answered: it has no text. -/
theorem answers_iff_sample :
    let _ := Stdlib.sample [(sampleBody, .obj [(.of "delay", .int 5)])]
    Regular sampleSettings sampleWorld (sampleHead "12") (bytes sampleBody) := by
  let _ := Stdlib.sample [(sampleBody, .obj [(.of "delay", .int 5)])]
  refine (answers_iff sampleSettings sampleWorld rfl (bytes sampleBody)).mp ⟨rfl, ⟨_, rfl⟩, ?_, ?_⟩
  · intro args hargs
    have hone : args = { delay := .int 5 } := List.mem_singleton.mp hargs
    refine ⟨⟨_, _, rfl, by decide, rfl, rfl⟩, _, rfl, ?_, hone⟩
    decide
  · intro _ _
    exact ⟨_, rfl, rfl⟩

end Sample

end EventServer.DemoReminder
