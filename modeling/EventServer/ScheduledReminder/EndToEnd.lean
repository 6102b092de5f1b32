import EventServer.Api.Custody
import EventServer.Api.Responses
import EventServer.ScheduledReminder.Contract

/-! # The publisher and the server together

`scheduled_reminder/main.py` over HTTP: the requests of the publisher are served by the application,
in between those of others. A request may be lost, and so may its response; the publisher then sends
it again with a later tick. The server of `Main` is what the publisher sees of the application
(`Mirrors`), so after a tick that returns the application holds each occurrence exactly once, and no
user is told twice of one occurrence (`stored_once`). -/

namespace EventServer.ScheduledReminder.EndToEnd

open EventServer.Api.App (Draw Publishes Sound requestId route serve)
open EventServer.Api.Publish (Pydantic PublishEventResponse ValidRequest event_ok parseRequest
  publishEvent_ok validRequest)
open EventServer.Core.Publication EventServer.Db EventServer.Lib EventServer.Python
  EventServer.System

/-! ### The publisher over HTTP -/

/-- The state of the application. -/
abbrev Server := Api.Server.State

/-- What becomes of a request of the publisher. -/
inductive Link where
  /-- A `URLError`, before the request has reached the server. -/
  | unreachable
  /-- The request is served; its response may be lost, or be too long. -/
  | reached (d : Draw) (answered : Bool)

/-- A call of `publish`: what others ask of the server before it, and what becomes of the
request. -/
structure Exchange where
  meanwhile : List Api.App.Action := []
  link : Link

/-- A call of `run_once`, with its calls of `publish`. -/
structure Tick where
  now : Time
  now_range : InRange now
  exchanges : ℕ → Exchange

/-- The publisher and the server. -/
structure World where
  lastCheckedAt : Option Time := none
  server : Server

inductive Event where
  | tick (t : Tick)
  | other (action : Api.App.Action)

/-- The time of a tick. -/
def Event.now? : Event → Option Time
  | .tick t => some t.now
  | .other _ => none

/-- The request of `publish`. -/
def httpRequest (token : String) (body : JsonObject) : Api.App.Request where
  credentials := some ⟨"Bearer", token⟩
  target := .publishEvent (.json (.obj body))

section Publisher

variable [Stdlib] [Runtime] [Pydantic] (settings : Api.App.Settings) (token : String)

def publish (config : ReminderConfig) (server : Server) (due : DueReminder) (x : Exchange) :
    Server × Except TickError Unit :=
  let server := run (Api.App.step settings) server x.meanwhile
  match (publishRequest config due).body?, x.link with
  | none, _ => (server, .error .unicodeEncodeError)
  | some _, .unreachable => (server, .error .publishError)
  | some body, .reached d answered =>
    let r := serve settings server d (httpRequest token body)
    (r.1, if r.2.status = 200 ∧ answered = true then .ok () else .error .publishError)

/-- The loop over the occurrences, from the call number `i`. -/
def publishAll (config : ReminderConfig) (exchanges : ℕ → Exchange) :
    ℕ → List DueReminder → Server → Server × Except TickError Unit
  | _, [], server => (server, .ok ())
  | i, due :: rest, server =>
    match publish settings token config server due (exchanges i) with
    | (server, .error e) => (server, .error e)
    | (server, .ok ()) => publishAll config exchanges (i + 1) rest server

def runOnce (file : Value) (w : World) (tick : Tick) : World × Except TickError ℕ :=
  match loadConfig file with
  | .error e => (w, .error (.config e))
  | .ok config =>
    match w.lastCheckedAt with
    | none => ({ w with lastCheckedAt := some tick.now }, .ok 0)
    | some after =>
      match allDue after tick.now config.rules with
      | .error e => (w, .error e)
      | .ok found =>
        let due := found.insertionSort fun d d' => d.before d'
        if due.length > config.maxDuePerTick then
          (w, .error (.runtimeError "too many due reminders; refusing an unbounded catch-up"))
        else
          match publishAll settings token config tick.exchanges 0 due w.server with
          | (server, .error e) => ({ w with server := server }, .error e)
          | (server, .ok ()) =>
            ({ lastCheckedAt := some tick.now, server := server }, .ok due.length)

/-- The publisher and the server after an event. -/
def next (file : Value) (w : World) : Event → World
  | .tick t => (runOnce settings token file w t).1
  | .other action => { w with server := Api.App.step settings w.server action }

end Publisher

/-! ### What others leave alone -/

section Pydantic

variable [Pydantic]

/-- The action is no valid request to publish an event of the type. -/
def Foreign (eventKey : String) : Api.App.Action → Prop
  | .http _ req => ∀ fields body, req.target = .publishEvent (.json (.obj fields)) →
      validRequest fields = some body → body.val.eventKey ≠ eventKey
  | _ => True

/-- Only the publisher publishes events of the type. -/
def Event.Foreign (eventKey : String) : Event → Prop
  | .tick t => ∀ i, ∀ action ∈ (t.exchanges i).meanwhile, EndToEnd.Foreign eventKey action
  | .other action => EndToEnd.Foreign eventKey action

end Pydantic

variable [Runtime] [Pydantic] {settings : Api.App.Settings}

/-- **What a publication stores**: its event, unless there is one with the dedupe key. -/
theorem publishes_occurrences {sv : Server} {d : Draw} {req : Api.App.Request}
    {c : Api.Publish.Call} {x : Store × PublishEventResponse}
    (h : Publishes settings sv d req c x) :
    ∃ fields body, req.target = .publishEvent (.json (.obj fields)) ∧
      validRequest fields = some body ∧ ∃ o ∈ x.1.eventOccurrences,
        o.eventKey = body.val.eventKey ∧ o.dedupeKey = body.val.dedupeKey ∧
          (x.1.eventOccurrences = sv.store.eventOccurrences ∨
            sv.store.eventOccurrences.insert? o = some x.1.eventOccurrences ∧
              body.val.occurredAt = .aware o.occurredAt ∧ o.data = body.val.data) := by
  obtain ⟨fields, body, htarget, hvalid, rfl⟩ := h.body
  refine ⟨fields, body, htarget, hvalid, ?_⟩
  obtain ⟨publisher, event, notifyAt, published, hacc⟩ :=
    publishEvent_ok (Api.App.publishEvent_eq_ok h.returned)
  have hoccurrences : x.1.eventOccurrences = published.eventOccurrences := by
    rw [hacc.store]
  obtain ⟨-, hkey, -, hdedupe, hdata, -⟩ := event_ok hacc.isEvent
  have hat : body.val.occurredAt = .aware event.occurredAt := by
    have hevent := hacc.isEvent
    unfold Api.Publish.Call.event at hevent
    split at hevent
    · cases hevent
    · rename_i t ht
      cases hevent
      exact ht
  have hstored := publish_ok hacc.stored
  generalize (⟨x.2.eventId, x.2.created, x.2.deliveriesCreated⟩ : PublicationResult) =
    result at hstored
  cases hstored with
  | existing o hfound =>
    have hmatch : o.eventKey = event.eventKey ∧ o.dedupeKey = event.dedupeKey :=
      of_decide_eq_true (List.find?_some (p := fun o : EventOccurrence =>
        decide (o.eventKey = event.eventKey ∧ o.dedupeKey = event.dedupeKey)) hfound)
    refine ⟨o, ?_, hmatch.1.trans hkey, hmatch.2.trans hdedupe, Or.inl hoccurrences⟩
    rw [hoccurrences]
    exact List.mem_of_find?_eq_some hfound
  | created eventType fallback _ _ ho _ _ =>
    refine ⟨occurrenceOf event, ?_, hkey, hdedupe, Or.inr ⟨?_, hat, hdata⟩⟩
    · rw [hoccurrences, ← Table.mem_rows, (Table.insert?_eq_some.mp ho).2.2]
      exact List.mem_append_right _ List.mem_cons_self
    · rw [hoccurrences]
      exact ho

theorem mem_step_foreign {eventKey : String} {sv : Server} {action : Api.App.Action}
    (h : Foreign eventKey action) {o : EventOccurrence} (ho : o.eventKey = eventKey) :
    o ∈ (Api.App.step settings sv action).store.eventOccurrences ↔
      o ∈ sv.store.eventOccurrences := by
  cases action with
  | upsert a =>
    simp only [Api.App.step]
    split <;> rfl
  | tool op =>
    obtain ⟨op, htool⟩ := op
    have hsame : SameOutbox sv.store (System.step settings.deliveryMaxAttempts sv.store op) :=
      sameOutbox_step sv.store (by cases op <;> first | rfl | cases htool)
    simp only [Api.App.step, hsame.eventOccurrences]
  | http d req =>
    by_cases hkind : req.target.kind = .publish
    · rcases Api.App.publishes_cases settings sv d hkind with ⟨e, hfailed⟩ | ⟨c, x, hpublishes⟩
      · simp only [Api.App.step, serve, hfailed]
      · simp only [Api.App.step, hpublishes.state]
        obtain ⟨fields, body, htarget, hvalid, o', -, hkey, -, hstored⟩ :=
          publishes_occurrences hpublishes
        rcases hstored with hsame | ⟨hinsert, -⟩
        · rw [hsame]
        · rw [← Table.mem_rows, (Table.insert?_eq_some.mp hinsert).2.2, List.mem_append,
            List.mem_singleton, or_iff_left, Table.mem_rows]
          rintro rfl
          exact h fields body htarget hvalid (hkey.symm.trans ho)
    · simp only [Api.App.step, Api.App.eventOccurrences_serve hkind]

/-! ### What the publisher sees of the server -/

section Mirrors

/-- The event stored for a request. -/
structure Records (request : PublishRequest) (o : EventOccurrence) : Prop where
  eventKey : o.eventKey = request.eventKey
  dedupeKey : o.dedupeKey = request.dedupeKey
  occurredAt : Pydantic.datetimeOfStr request.occurredAt = some (.aware o.occurredAt)
  data : jsonFields? request.data = some o.data

/-- The events of the type on the server are those of the requests in the store. -/
structure Mirrors (eventKey : String) (store : Events) (sv : Server) : Prop where
  sound : Sound sv.store
  keys : ∀ x ∈ store, x.eventKey = eventKey
  stored : ∀ x ∈ store, ∃ o ∈ sv.store.eventOccurrences, Records x o
  only : ∀ o ∈ sv.store.eventOccurrences, o.eventKey = eventKey → ∃ x ∈ store, Records x o

variable {store : Events} {sv : Server} [Stdlib] {config : ReminderConfig}

omit [Stdlib] in
theorem mirrors_foreign {eventKey : String} (h : Mirrors eventKey store sv)
    {action : Api.App.Action} (hf : Foreign eventKey action) :
    Mirrors eventKey store (Api.App.step settings sv action) := by
  refine ⟨Api.App.sound_run settings h.sound [action], h.keys, fun x hx => ?_, fun o ho hkey => ?_⟩
  · obtain ⟨o, ho, hrec⟩ := h.stored x hx
    exact ⟨o, (mem_step_foreign hf (hrec.eventKey.trans (h.keys x hx))).mpr ho, hrec⟩
  · exact h.only o ((mem_step_foreign hf hkey).mp ho) hkey

omit [Stdlib] in
theorem mirrors_run {eventKey : String} (h : Mirrors eventKey store sv)
    {actions : List Api.App.Action} (hf : ∀ action ∈ actions, Foreign eventKey action) :
    Mirrors eventKey store (run (Api.App.step settings) sv actions) := by
  refine run_invariant (C := fun _ action => Foreign eventKey action) (I := Mirrors eventKey store)
    (fun _ _ hm hfa => mirrors_foreign hm hfa) h ?_
  rintro pre action post rfl
  exact hf action (by simp)

omit [Runtime] in
theorem validRequest_body? {d : DueReminder} {sent : JsonObject}
    (hsent : (publishRequest config d).body? = some sent) {body : ValidRequest}
    (h : validRequest sent = some body) :
    body.val.eventKey = (publishRequest config d).eventKey ∧
      body.val.dedupeKey = (publishRequest config d).dedupeKey ∧
      Pydantic.datetimeOfStr (publishRequest config d).occurredAt = some body.val.occurredAt ∧
      jsonFields? (publishRequest config d).data = some body.val.data := by
  rw [body?_publishRequest] at hsent
  obtain ⟨title, htitle, hsent⟩ := Option.bind_eq_some_iff.mp hsent
  obtain ⟨text, -, rfl⟩ := Option.map_eq_some_iff.mp hsent
  have hdata : jsonFields? (publishRequest config d).data =
      some (receivedRequest config d title text).data := by
    simp [publishRequest, receivedRequest, jsonFields?, Value.json?, htitle]
  unfold validRequest at h
  rw [parseRequest_eq] at h
  cases hat : Pydantic.datetimeOfStr (scheduledAt d.scheduledFor) with
  | none =>
    rw [hat] at h
    cases h
  | some occurredAt =>
    rw [hat, Option.map_some] at h
    simp only at h
    split_ifs at h
    cases h
    exact ⟨rfl, rfl, hat, hdata⟩

/-- **A request that stores its event**, or repeats it. -/
theorem mirrors_publishes {token : String} (h : Mirrors config.eventKey store sv) {d : Draw}
    {due : DueReminder} {body : JsonObject} (hbody : (publishRequest config due).body? = some body)
    {c : Api.Publish.Call} {x : Store × PublishEventResponse}
    (hp : Publishes settings sv d (httpRequest token body) c x) :
    Mirrors config.eventKey (keep store (publishRequest config due))
      (serve settings sv d (httpRequest token body)).1 := by
  have hsound : Sound (serve settings sv d (httpRequest token body)).1.store :=
    Api.App.sound_run settings h.sound [.http d _]
  obtain ⟨fields, valid, htarget, hvalid, o, ho, hkey, hdedupe, hstored⟩ := publishes_occurrences hp
  cases htarget
  obtain ⟨hkey', hdedupe', hat, hdata⟩ := validRequest_body? hbody hvalid
  have hrequestKey : (publishRequest config due).eventKey = config.eventKey := rfl
  generalize publishRequest config due = request at *
  rw [hkey'] at hkey
  rw [hdedupe'] at hdedupe
  have holds : ∀ o' ∈ sv.store.eventOccurrences, o' ∈ x.1.eventOccurrences := by
    intro o' ho'
    rcases hstored with hsame | ⟨hinsert, -⟩
    · rw [hsame]
      exact ho'
    · rw [← Table.mem_rows, (Table.insert?_eq_some.mp hinsert).2.2]
      exact List.mem_append_left _ ho'
  -- the event records the requests with its dedupe key
  have hrecords : ∀ y ∈ keep store request, y.dedupeKey = request.dedupeKey → Records y o := by
    intro y hy hyk
    rcases mem_keep hy with hmem | rfl
    · obtain ⟨o', ho', hrec⟩ := h.stored y hmem
      have hdedupes : o'.dedupe = o.dedupe := by
        unfold EventOccurrence.dedupe
        rw [hrec.eventKey, h.keys y hmem, hrec.dedupeKey, hyk, hkey, hdedupe, hrequestKey]
      rw [← Table.alt_inj (holds o' ho') ho hdedupes]
      exact hrec
    · rcases hstored with hsame | ⟨-, hat', hdata'⟩
      · rw [hsame] at ho
        obtain ⟨y', hy', hrec⟩ := h.only o ho (hkey.trans hrequestKey)
        rw [← Table.key_inj (mem_keep_of_mem hy') hy (hrec.dedupeKey.symm.trans hdedupe)]
        exact hrec
      · exact ⟨hkey, hdedupe, by rw [hat, hat'], by rw [hdata, hdata']⟩
  refine ⟨hsound, fun y hy => ?_, fun y hy => ?_, fun o' ho' hkey' => ?_⟩
  · rcases mem_keep hy with hmem | rfl
    · exact h.keys y hmem
    · exact hrequestKey
  · rw [hp.state]
    by_cases hyk : y.dedupeKey = request.dedupeKey
    · exact ⟨o, ho, hrecords y hy hyk⟩
    · rcases mem_keep hy with hmem | rfl
      · obtain ⟨o', ho', hrec⟩ := h.stored y hmem
        exact ⟨o', holds o' ho', hrec⟩
      · exact absurd rfl hyk
  · rw [hp.state] at ho'
    have hcases : o' ∈ sv.store.eventOccurrences ∨ o' = o := by
      rcases hstored with hsame | ⟨hinsert, -⟩
      · rw [hsame] at ho'
        exact Or.inl ho'
      · rw [← Table.mem_rows, (Table.insert?_eq_some.mp hinsert).2.2, List.mem_append,
          List.mem_singleton] at ho'
        exact ho'
    rcases hcases with hold | rfl
    · obtain ⟨y, hy, hrec⟩ := h.only o' hold hkey'
      exact ⟨y, mem_keep_of_mem hy, hrec⟩
    · obtain ⟨y, hy, hyk⟩ := exists_mem_keep store request
      exact ⟨y, hy, hrecords y hy hyk⟩

omit [Runtime] [Pydantic] [Stdlib] in
theorem status_of_published {id : String} {result : Except Api.App.Failure Api.App.Payload}
    {r : PublishEventResponse} (h : (Api.App.respond id result).payload = .published r) :
    (Api.App.respond id result).status = 200 := by
  cases result with
  | ok payload => rfl
  | error e =>
    cases e with
    | unmatched methodNotAllowed => cases methodNotAllowed <;> cases h
    | _ => cases h

/-- **The server answers a request of the publisher** with 200 and keeps its event, or refuses
it. -/
theorem serve_cases {token : String} (h : Mirrors config.eventKey store sv) (d : Draw)
    {due : DueReminder} {body : JsonObject} (hbody : (publishRequest config due).body? = some body)
    {r : Server × Api.App.Response} (hr : serve settings sv d (httpRequest token body) = r) :
    (r.2.status = 200 ∧ Mirrors config.eventKey (keep store (publishRequest config due)) r.1) ∨
      r.2.status ≠ 200 ∧ r.1 = sv := by
  have hkind : (httpRequest token body).target.kind = .publish := rfl
  have hexplained : Api.App.AllExplained settings sv d (httpRequest token body) _ :=
    Api.App.route_explained h.sound
  rcases Api.App.publishes_cases settings sv d hkind with ⟨e, hfailed⟩ | ⟨c, x, hp⟩
  · right
    unfold serve at hr
    simp only [hfailed] at hr
    rw [← hr]
    refine ⟨fun h200 => ?_, rfl⟩
    rw [hfailed] at hexplained
    cases (Api.App.status_iff_isOk hexplained).mp h200
  · left
    have hm := mirrors_publishes h hbody hp
    rw [hr] at hm
    refine ⟨?_, hm⟩
    rw [← hr]
    exact status_of_published hp.payload

/-! ### The publisher of `Main` -/

variable (settings) (token : String)

/-- A call over HTTP is a call of `Main` that ends in one of the ways listed there. -/
theorem publish_simulated (h : Mirrors config.eventKey store sv) (due : DueReminder)
    {x : Exchange} (hf : ∀ action ∈ x.meanwhile, Foreign config.eventKey action) :
    ∃ call, Mirrors config.eventKey (ScheduledReminder.publish config store due call).1
        (publish settings token config sv due x).1 ∧
      (publish settings token config sv due x).2 =
        (ScheduledReminder.publish config store due call).2 := by
  have hrun : Mirrors config.eventKey store (run (Api.App.step settings) sv x.meanwhile) :=
    mirrors_run h hf
  unfold publish ScheduledReminder.publish
  cases hbody : (publishRequest config due).body? with
  | none => exact ⟨.failedBefore, hrun, rfl⟩
  | some body =>
    cases x.link with
    | unreachable => exact ⟨.failedBefore, hrun, rfl⟩
    | reached d answered =>
      simp only
      generalize hr : serve settings (run (Api.App.step settings) sv x.meanwhile) d
        (httpRequest token body) = r
      rcases serve_cases hrun d hbody hr with ⟨h200, hm⟩ | ⟨hrefused, hsame⟩
      · cases answered with
        | true => exact ⟨.delivered, hm, by simp [h200]⟩
        | false => exact ⟨.failedAfter, hm, by simp⟩
      · refine ⟨.failedBefore, ?_, by simp [hrefused]⟩
        rw [hsame]
        exact hrun

omit [Runtime] [Pydantic] in
theorem publishAll_congr {calls calls' : ℕ → Call} {due : List DueReminder} {i : ℕ}
    (h : ∀ j, i ≤ j → calls j = calls' j) (store : Events) :
    ScheduledReminder.publishAll config calls i due store =
      ScheduledReminder.publishAll config calls' i due store := by
  induction due generalizing i store with
  | nil => rfl
  | cons d due ih =>
    unfold ScheduledReminder.publishAll
    rw [h i le_rfl]
    split
    · rfl
    · exact ih (fun j hj => h j (by omega)) _

theorem publishAll_simulated {exchanges : ℕ → Exchange}
    (hf : ∀ i, ∀ action ∈ (exchanges i).meanwhile, Foreign config.eventKey action)
    (h : Mirrors config.eventKey store sv) (due : List DueReminder) (i : ℕ) :
    ∃ calls, Mirrors config.eventKey (ScheduledReminder.publishAll config calls i due store).1
        (publishAll settings token config exchanges i due sv).1 ∧
      (publishAll settings token config exchanges i due sv).2 =
        (ScheduledReminder.publishAll config calls i due store).2 := by
  induction due generalizing i store sv with
  | nil => exact ⟨fun _ => .delivered, h, rfl⟩
  | cons d due ih =>
    obtain ⟨call, hm, hres⟩ := publish_simulated settings token h d (hf i)
    unfold publishAll
    generalize hx : publish settings token config sv d (exchanges i) = x at hm hres
    obtain ⟨sv', res⟩ := x
    generalize hy : ScheduledReminder.publish config store d call = y at hm hres
    obtain ⟨store', res'⟩ := y
    cases hres
    cases res with
    | error e =>
      refine ⟨fun _ => call, ?_⟩
      unfold ScheduledReminder.publishAll
      rw [hy]
      exact ⟨hm, rfl⟩
    | ok u =>
      obtain ⟨calls, hms, hress⟩ := ih hm (i + 1)
      have hcongr : ScheduledReminder.publishAll config (Function.update calls i call)
          (i + 1) due store' = ScheduledReminder.publishAll config calls (i + 1) due store' :=
        publishAll_congr (fun j hj => Function.update_of_ne (by omega) _ _) store'
      refine ⟨Function.update calls i call, ?_⟩
      unfold ScheduledReminder.publishAll
      rw [Function.update_self, hy]
      simp only [hcongr]
      exact ⟨hms, hress⟩

/-- The publisher and the server, and those of `Main`. -/
structure Follows (eventKey : String) (w : World) (st : ScheduledReminder.State) : Prop where
  cursor : w.lastCheckedAt = st.lastCheckedAt
  mirrors : Mirrors eventKey st.store w.server

/-- **A tick over HTTP is a tick of `Main`**, with the same result. -/
theorem runOnce_simulated {file : Value} (hload : loadConfig file = .ok config)
    {w : World} {st : ScheduledReminder.State} (h : Follows config.eventKey w st) {tick : Tick}
    (hf : ∀ i, ∀ action ∈ (tick.exchanges i).meanwhile, Foreign config.eventKey action) :
    ∃ calls, Follows config.eventKey (runOnce settings token file w tick).1
        (ScheduledReminder.runOnce file st ⟨tick.now, tick.now_range, calls⟩).1 ∧
      (runOnce settings token file w tick).2 =
        (ScheduledReminder.runOnce file st ⟨tick.now, tick.now_range, calls⟩).2 := by
  unfold runOnce ScheduledReminder.runOnce
  simp only [hload, h.cursor]
  cases hcursor : st.lastCheckedAt with
  | none => exact ⟨fun _ => .delivered, ⟨rfl, h.mirrors⟩, rfl⟩
  | some after =>
    simp only
    cases allDue after tick.now config.rules with
    | error e => exact ⟨fun _ => .delivered, h, rfl⟩
    | ok found =>
      simp only
      split_ifs with hmax
      · exact ⟨fun _ => .delivered, h, rfl⟩
      · obtain ⟨calls, hm, hres⟩ := publishAll_simulated settings token hf
          h.mirrors (found.insertionSort fun d d' => d.before d') 0
        refine ⟨calls, ?_⟩
        generalize publishAll settings token config tick.exchanges 0 _ w.server = x at hm hres
        generalize ScheduledReminder.publishAll config calls 0 _ st.store = y at hm hres
        obtain ⟨sv', res⟩ := x
        obtain ⟨store', res'⟩ := y
        cases hres
        cases res with
        | error e => exact ⟨⟨rfl, hm⟩, rfl⟩
        | ok u => exact ⟨⟨rfl, hm⟩, rfl⟩

/-- The ticks of `Main` that an event amounts to. -/
def Matches (e : Event) (ticks : List ScheduledReminder.Tick) : Prop :=
  ticks.map (·.now) = e.now?.toList

omit [Runtime] [Pydantic] [Stdlib] in
theorem map_now_flatten {events : List Event} {pss : List (List ScheduledReminder.Tick)}
    (h : List.Forall₂ Matches events pss) :
    pss.flatten.map (·.now) = events.filterMap Event.now? := by
  induction h with
  | nil => rfl
  | @cons e ps events pss hps _ ih =>
    rw [List.flatten_cons, List.map_append, hps, ih]
    cases e <;> rfl

/-- **A run over HTTP is a run of `Main`**, with its ticks at the same times. -/
theorem run_followed {file : Value} (hload : loadConfig file = .ok config)
    {w : World} {st : ScheduledReminder.State} (h : Follows config.eventKey w st)
    {events : List Event} (hf : ∀ e ∈ events, e.Foreign config.eventKey) :
    ∃ ticks : List ScheduledReminder.Tick, ticks.map (·.now) = events.filterMap Event.now? ∧
      Follows config.eventKey (run (next settings token file) w events)
        (run (ScheduledReminder.next file) st ticks) := by
  have hstep : ∀ w st e, Follows config.eventKey w st → Event.Foreign config.eventKey e →
      ∃ ticks, Matches e ticks ∧ Follows config.eventKey (next settings token file w e)
        (run (ScheduledReminder.next file) st ticks) := by
    intro w st e hfollows hf
    cases e with
    | other action => exact ⟨[], rfl, hfollows.cursor, mirrors_foreign hfollows.mirrors hf⟩
    | tick t =>
      obtain ⟨calls, hnext, -⟩ := runOnce_simulated settings token hload
        hfollows hf
      exact ⟨[⟨t.now, t.now_range, calls⟩], rfl, hnext⟩
  obtain ⟨pss, hpss, hfollows⟩ := run_simulated hstep h hf
  exact ⟨pss.flatten, map_now_flatten hpss, hfollows⟩

/-! ### Each occurrence once -/

omit [Runtime] [Pydantic] [Stdlib] in
/-- The event tells of this occurrence of the reminder. -/
def Tells (o : EventOccurrence) (reminderId : String) (s : Time) : Prop :=
  o.data.lookup "reminder_id" = some (.str reminderId) ∧
    o.data.lookup "scheduled_for" = some (.str (scheduledAt s))

omit [Runtime] [Pydantic] [Stdlib] in
/-- The delivery is of an event of the publisher that tells of this occurrence. -/
def About (eventKey : String) (sv : Server) (x : Delivery) (reminderId : String)
    (s : Time) : Prop :=
  ∃ o ∈ sv.store.eventOccurrences, o.eventId = x.eventId ∧ o.eventKey = eventKey ∧
    Tells o reminderId s

omit [Runtime] [Stdlib] in
theorem Records.tells {x : PublishRequest} {o : EventOccurrence} (h : Records x o)
    {reminderId : String} {s : Time} : Tells o reminderId s ↔ x.TellsOf reminderId s := by
  have hread : ∀ key text, o.data.lookup key = some (.str text) ↔
      x.data.lookup (.of key) = some (strOf text) := by
    intro key text
    rw [lookup_jsonFields? h.data, Option.bind_eq_some_iff]
    simp only [json?_eq_str, exists_eq_right]
    rfl
  rw [Tells, PublishRequest.TellsOf, hread, hread]

section Kept

variable {t₀ checkedAt latest : Time} {st : ScheduledReminder.State}

omit [Runtime] in
theorem scheduled_of_mem (hkept : Kept config t₀ checkedAt latest st)
    (hm : Mirrors config.eventKey st.store sv) {o : EventOccurrence}
    (ho : o ∈ sv.store.eventOccurrences) (hkey : o.eventKey = config.eventKey) :
    ∃ rule ∈ config.rules, ∃ s, Within t₀ latest s ∧ Scheduled rule s ∧
      Records (publishRequest config (dueAt rule s)) o := by
  obtain ⟨x, hx, hrec⟩ := hm.only o ho hkey
  obtain ⟨rule, hr, s, hw, hs, rfl⟩ := hkept.sound x hx
  exact ⟨rule, hr, s, hw, hs, hrec⟩

omit [Runtime] in
theorem eq_of_tells (hkept : Kept config t₀ checkedAt latest st)
    (hm : Mirrors config.eventKey st.store sv) (ht₀ : InRange t₀) (hlatest : InRange latest)
    {o o' : EventOccurrence} (ho : o ∈ sv.store.eventOccurrences)
    (ho' : o' ∈ sv.store.eventOccurrences) (hkey : o.eventKey = config.eventKey)
    (hkey' : o'.eventKey = config.eventKey) {reminderId : String} {s : Time} (hs : InRange s)
    (h : Tells o reminderId s) (h' : Tells o' reminderId s) : o = o' := by
  obtain ⟨rule, hr, t, hw, -, hrec⟩ := scheduled_of_mem hkept hm ho hkey
  obtain ⟨rule', hr', t', hw', -, hrec'⟩ := scheduled_of_mem hkept hm ho' hkey'
  have hin : ∀ t, Within t₀ latest t → InRange t := fun t hw => ht₀.between hlatest hw.1.le hw.2
  obtain ⟨hid, rfl⟩ := (tellsOf_iff (hin t hw) hs).mp (hrec.tells.mp h)
  obtain ⟨hid', rfl⟩ := (tellsOf_iff (hin t' hw') hs).mp (hrec'.tells.mp h')
  obtain rfl := List.inj_on_of_nodup_map config.ids_nodup hr hr' (hid.trans hid'.symm)
  refine Table.alt_inj ho ho' ?_
  unfold EventOccurrence.dedupe
  rw [hkey, hkey', hrec.dedupeKey, hrec'.dedupeKey]

end Kept

/-- The publisher after a tick has sent what it had to, and the server has it. -/
theorem kept_after {file : Value} (hload : loadConfig file = .ok config)
    (hplain : ∀ rule ∈ config.rules, rule.Plain)
    (hforward : ∀ rule ∈ config.rules, rule.timezone.Forward) {sv₀ : Server} (h₀ : Sound sv₀.store)
    (hnone : ∀ o ∈ sv₀.store.eventOccurrences, o.eventKey ≠ config.eventKey) {first : Tick}
    {events : List Event} (hf : ∀ e ∈ Event.tick first :: events, e.Foreign config.eventKey)
    (hmono : ((Event.tick first :: events).filterMap Event.now?).Pairwise fun t t' => t ≤ t')
    {pre post : List Event} {tick : Tick}
    (he : Event.tick first :: events = pre ++ .tick tick :: post) {r : World × Except TickError ℕ}
    (hr : runOnce settings token file (run (next settings token file) { server := sv₀ } pre)
      tick = r) :
    ∃ checkedAt st, Kept config first.now checkedAt tick.now st ∧
      Mirrors config.eventKey st.store r.1.server ∧ (r.2.isOk = true → checkedAt = tick.now) := by
  have hstart : Follows config.eventKey { server := sv₀ } {} :=
    ⟨rfl, h₀, fun _ hx => absurd hx List.not_mem_nil, fun _ hx => absurd hx List.not_mem_nil,
      fun o ho hkey => absurd hkey (hnone o ho)⟩
  rw [he, List.forall_mem_append, List.forall_mem_cons] at hf
  obtain ⟨before, hbefore, hfollows⟩ := run_followed settings token hload hstart hf.1
  obtain ⟨calls, hafter, hres⟩ := runOnce_simulated settings token hload hfollows hf.2.1
  rw [hr] at hafter hres
  generalize ht : (⟨tick.now, tick.now_range, calls⟩ : ScheduledReminder.Tick) = t at hafter hres
  have hnow : t.now = tick.now := by rw [← ht]
  -- the ticks of `Main` are at the times of those over HTTP
  have htimes : (before ++ [t]).map (·.now) <+: first.now :: events.filterMap Event.now? := by
    have hall : (Event.tick first :: events).filterMap Event.now? =
        first.now :: events.filterMap Event.now? := rfl
    rw [← hall, he, List.map_append, hbefore, List.filterMap_append]
    exact List.prefix_append_right_inj _ |>.mpr
      ⟨post.filterMap Event.now?, by simp [hnow, Event.now?]⟩
  obtain ⟨first', ticks, hticks⟩ : ∃ first' ticks, before ++ [t] = first' :: ticks :=
    List.exists_cons_of_ne_nil (by simp)
  have hmono' : (first' :: ticks).Pairwise fun a b => a.now ≤ b.now := by
    rw [← hticks, ← List.pairwise_map (R := fun t t' : Time => t ≤ t')]
    exact hmono.sublist htimes.sublist
  have hfirst : first'.now = first.now := by
    rw [hticks, List.map_cons, List.cons_prefix_cons] at htimes
    exact htimes.1
  obtain ⟨checkedAt, hkept, hcaught⟩ := kept_tick hload hplain hforward hmono' hticks.symm
  rw [hfirst, hnow] at hkept
  rw [hnow] at hcaught
  exact ⟨checkedAt, _, hkept, hafter.mirrors, fun hok => hcaught (by rwa [← hres])⟩

/-- **Each occurrence is stored once, and each user is told of it once.** For a configuration with
plain times and time zones whose date does not go backwards, on a server without events of its type
that others do not publish: after each tick the server holds only scheduled occurrences since the
first tick, and if the tick returns, each of them exactly once, whatever has become of the requests,
and whatever else the server has been asked for; and no user has two deliveries about one
occurrence. -/
theorem stored_once {file : Value} (hload : loadConfig file = .ok config)
    (hplain : ∀ rule ∈ config.rules, rule.Plain)
    (hforward : ∀ rule ∈ config.rules, rule.timezone.Forward) {sv₀ : Server} (h₀ : Sound sv₀.store)
    (hnone : ∀ o ∈ sv₀.store.eventOccurrences, o.eventKey ≠ config.eventKey) {first : Tick}
    {events : List Event} (hf : ∀ e ∈ Event.tick first :: events, e.Foreign config.eventKey)
    (hmono : ((Event.tick first :: events).filterMap Event.now?).Pairwise fun t t' => t ≤ t')
    {pre post : List Event} {tick : Tick}
    (he : Event.tick first :: events = pre ++ .tick tick :: post) :
    let r := runOnce settings token file (run (next settings token file) { server := sv₀ } pre) tick
    (∀ n, r.2 = .ok n → ∀ rule ∈ config.rules, ∀ s, Within first.now tick.now s → Scheduled rule s →
        ∃! o, o ∈ r.1.server.store.eventOccurrences ∧ o.eventKey = config.eventKey ∧
          Tells o rule.reminderId s) ∧
      (∀ o ∈ r.1.server.store.eventOccurrences, o.eventKey = config.eventKey →
        ∃ rule ∈ config.rules, ∃ s, Within first.now tick.now s ∧ Scheduled rule s ∧
          Tells o rule.reminderId s) ∧
      ∀ reminderId s, InRange s → ∀ x ∈ r.1.server.store.deliveries,
        ∀ x' ∈ r.1.server.store.deliveries, About config.eventKey r.1.server x reminderId s →
          About config.eventKey r.1.server x' reminderId s → x.platform = x'.platform →
            x.openid = x'.openid → x = x' := by
  intro r
  obtain ⟨checkedAt, st, hkept, hm, hcaught⟩ :=
    kept_after settings token hload hplain hforward h₀ hnone hf hmono he rfl
  have hin : ∀ s, Within first.now tick.now s → InRange s := fun s hw =>
    first.now_range.between tick.now_range hw.1.le hw.2
  refine ⟨fun n hn rule hr s hw hs => ?_, fun o ho hkey => ?_, ?_⟩
  · obtain rfl := hcaught (by rw [hn]; rfl)
    obtain ⟨o, ho, hrec⟩ := hm.stored _ (hkept.complete rule hr s hw hs)
    have htells : Tells o rule.reminderId s :=
      hrec.tells.mpr ((tellsOf_iff (hin s hw) (hin s hw)).mpr ⟨rfl, rfl⟩)
    refine ⟨o, ⟨ho, hrec.eventKey, htells⟩, ?_⟩
    rintro o' ⟨ho', hkey', htells'⟩
    exact eq_of_tells hkept hm first.now_range tick.now_range ho' ho hkey' hrec.eventKey
      (hin s hw) htells' htells
  · obtain ⟨rule, hr, s, hw, hs, hrec⟩ := scheduled_of_mem hkept hm ho hkey
    exact ⟨rule, hr, s, hw, hs,
      hrec.tells.mpr ((tellsOf_iff (hin s hw) (hin s hw)).mpr ⟨rfl, rfl⟩)⟩
  · rintro reminderId s hs x hx x' hx' ⟨o, ho, hid, hkey, htells⟩
      ⟨o', ho', hid', hkey', htells'⟩ hp hopenid
    obtain rfl := eq_of_tells hkept hm first.now_range tick.now_range ho ho' hkey hkey'
      hs htells htells'
    refine Table.alt_inj hx hx' ?_
    unfold Delivery.target
    rw [← hid, ← hid', hp, hopenid]

end Mirrors

/-! ### A sample -/

section Sample

omit [Runtime] [Pydantic]

/-- The event type of `config/event-catalog.json`. -/
def sampleEntry : CatalogAdmin.ValidEntry where
  val := { eventKey := "reminder.scheduled.triggered", displayName := "Reminder",
           payloadSchema := payloadSchema }
  property := by decide

/-- The publisher may publish reminders. -/
def sampleServer : Server :=
  run (@Api.App.step Api.Server.sampleRuntime samplePydantic Api.App.sampleSettings) {}
    [.tool ⟨.register sampleEntry, rfl⟩,
      .upsert { publisherKey := "reminders", token := "0123456789abcdef0123456789abcdef",
                prefixes := ["reminder."] }]

theorem sampleFirst_range : InRange (seconds 1789545540) := by decide

theorem sampleLost_range : InRange (seconds 1789545660) := by decide

theorem sampleAgain_range : InRange (seconds 1789545720) := by decide

/-- A minute before eight. -/
def sampleFirst : Tick where
  now := seconds 1789545540
  now_range := sampleFirst_range
  exchanges _ := { link := .unreachable }

/-- A minute after eight; the response is lost. -/
def sampleLost : Tick where
  now := seconds 1789545660
  now_range := sampleLost_range
  exchanges _ := { link := .reached Api.App.sampleDraw false }

/-- Two minutes after eight. -/
def sampleAgain : Tick where
  now := seconds 1789545720
  now_range := sampleAgain_range
  exchanges _ := { link := .reached Api.App.sampleDraw true }

/-- The last of the three ticks. -/
def sampleResult : World × Except TickError ℕ :=
  @runOnce .sample Api.Server.sampleRuntime samplePydantic Api.App.sampleSettings
    "0123456789abcdef0123456789abcdef" sampleFile
    (run (@next .sample Api.Server.sampleRuntime samplePydantic Api.App.sampleSettings
      "0123456789abcdef0123456789abcdef" sampleFile) { server := sampleServer }
      [.tick sampleFirst, .tick sampleLost]) sampleAgain

theorem sampleResult_ok : sampleResult.2 = .ok 1 := by
  have hsome : sampleResult.2.toOption = some 1 := by decide +kernel
  cases h : sampleResult.2 with
  | error e =>
    rw [h] at hsome
    cases hsome
  | ok n =>
    rw [h] at hsome
    cases hsome
    rfl

/-- The publisher has sent its request twice, and the server has one event. -/
theorem stored_once_sample : ∃! o, o ∈ sampleResult.1.server.store.eventOccurrences ∧
    o.eventKey = "reminder.scheduled.triggered" ∧ Tells o "stand-up" (seconds 1789545600) := by
  have hforward : ∀ rule ∈ (@ReminderConfig.rules .sample sampleConfig),
      (@ReminderRule.timezone .sample rule).Forward := by
    intro rule hr
    rw [List.mem_singleton.mp hr]
    exact fun s s' h => Int.ediv_le_ediv (by decide) h
  have hplain : ∀ rule ∈ (@ReminderConfig.rules .sample sampleConfig),
      @ReminderRule.Plain .sample rule := by
    intro rule hr
    rw [List.mem_singleton.mp hr]
    intro time ht
    rw [List.mem_singleton.mp ht]
  have hsound : Sound sampleServer.store :=
    @Api.App.sound_run Api.Server.sampleRuntime samplePydantic Api.App.sampleSettings {}
      Api.App.sound_empty _
  have hempty : sampleServer.store.eventOccurrences.rows = [] :=
    List.length_eq_zero_iff.mp (by decide)
  have hforeign : ∀ e ∈ [Event.tick sampleFirst, .tick sampleLost, .tick sampleAgain],
      @Event.Foreign samplePydantic "reminder.scheduled.triggered" e := by
    simp [Event.Foreign, sampleFirst, sampleLost, sampleAgain]
  have hmono : ([Event.tick sampleFirst, .tick sampleLost, .tick sampleAgain].filterMap
      Event.now?).Pairwise fun t t' => t ≤ t' := by decide
  obtain ⟨hall, -⟩ := @stored_once Api.Server.sampleRuntime samplePydantic
    Api.App.sampleSettings .sample sampleConfig "0123456789abcdef0123456789abcdef" sampleFile
    loadConfig_sample hplain hforward sampleServer hsound (fun o ho =>
    absurd (Table.mem_rows.mpr ho) (by rw [hempty]; exact List.not_mem_nil))
    sampleFirst _ hforeign hmono [.tick sampleFirst, .tick sampleLost] [] sampleAgain rfl
  have hwithin : Within (seconds 1789545540) (seconds 1789545720) (seconds 1789545600) :=
    ⟨by decide, by decide⟩
  have hscheduled : @Scheduled .sample sampleRule (seconds 1789545600) :=
    ⟨by decide, sampleClock, List.mem_singleton.mpr rfl, by decide⟩
  have hok := sampleResult_ok
  unfold sampleResult at hok ⊢
  generalize @runOnce .sample Api.Server.sampleRuntime samplePydantic _ _ _ _ _ = r at hall hok ⊢
  exact hall 1 hok sampleRule (List.mem_singleton.mpr rfl) (seconds 1789545600) hwithin hscheduled

end Sample

end EventServer.ScheduledReminder.EndToEnd
