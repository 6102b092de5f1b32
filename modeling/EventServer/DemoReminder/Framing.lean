import EventServer.DemoReminder.Answers
import EventServer.Lib.Runs

/-! # The framing of a connection

The server keeps a connection open after a request, unless the client has asked to close it or the
handler has raised, and parses the next request from the first byte that is unread. A handler that
answers without reading the body leaves it to be parsed as a request, and one that reads to the end
of the connection takes the requests that follow. `Tidy` says of a request that neither happens; a
connection is framed at every point exactly if each request is tidy that is served while the
connection is open (`framed_iff`). -/

namespace EventServer.DemoReminder

open EventServer.Lib EventServer.Python

/-! ### Connections -/

/-- What the library makes of the bytes of a connection. -/
inductive Parsed where
  | eof
  /-- The library answers with a page of its own. -/
  | refused (status : ℕ)
  | request (head : Head) (unread : List UInt8)

/-- A request as the client sends it; `bytes` is all of it before the body. -/
structure ClientRequest where
  bytes : List UInt8
  head : Head
  body : List UInt8

/-- One request as the server serves it: the head, unless the library has refused it, the bytes that
are read as the body, and what is written. -/
structure Turn where
  head : Option Head
  body : List UInt8
  responses : List Response

structure Connection where
  unread : List UInt8
  closed : Bool := false
  turns : List Turn := []

/-- What has been written. -/
def Connection.wire (c : Connection) : List Response := c.turns.flatMap Turn.responses

/-- The bytes of the requests. -/
def stream (requests : List ClientRequest) : List UInt8 :=
  requests.flatMap fun r => r.bytes ++ r.body

theorem stream_cons (r : ClientRequest) (requests : List ClientRequest) :
    stream (r :: requests) = r.bytes ++ (r.body ++ stream requests) := by
  simp [stream]

/-- The library parses the heads of the requests, wherever they stand. -/
structure Parses (parse : List UInt8 → Parsed) (requests : List ClientRequest) : Prop where
  eof : parse [] = .eof
  head : ∀ r ∈ requests, ∀ rest, parse (r.bytes ++ rest) = .request r.head rest

/-- The method has a handler. -/
def Head.supported (head : Head) : Bool := head.method = "GET" || head.method = "POST"

section Steps

variable [Stdlib]

/-- The body is delimited by `Content-Length`; without a length that is a natural number there is
none. -/
def ClientRequest.Delimited (r : ClientRequest) : Prop :=
  r.body.length = ((Stdlib.intOfStr (r.head.contentLength.getD [])).getD 0).toNat

/-- The handler of a request. To another method the library answers itself. -/
def handle (settings : PublisherSettings) (world : World) (head : Head)
    (x : Exchange) : Handled Unit :=
  if head.method = "GET" then doGet head x
  else if head.method = "POST" then doPost settings world head x
  else ({ x with responses := x.responses ++ [⟨501, []⟩] }, .ok ())

/-- `handle_one_request`. -/
def step (settings : PublisherSettings) (parse : List UInt8 → Parsed) (c : Connection)
    (world : World) :
    Connection :=
  if c.closed then c
  else
    match parse c.unread with
    | .eof => { c with closed := true }
    | .refused status => { c with closed := true, turns := c.turns ++ [⟨none, [], [⟨status, []⟩]⟩] }
    | .request head unread =>
      let r := handle settings world head { unread }
      { unread := r.1.unread
        closed := head.closes || !head.supported || !r.2.isOk
        turns := c.turns ++ [⟨some head, r.1.body, r.1.responses⟩] }

end Steps

/-! ### What a handler writes -/

/-- The handler writes one response if it returns, and none if it raises. -/
def Writes (x : Exchange) (r : Handled Unit) : Prop :=
  (∃ response, r.2 = .ok () ∧ r.1.responses = x.responses ++ [response]) ∨
    ∃ e, r.2 = .error e ∧ r.1.responses = x.responses

theorem writes_error {x y : Exchange} (e : Raised) (hsame : y.responses = x.responses) :
    Writes x (y, .error e) := Or.inr ⟨e, rfl, hsame⟩

theorem writes_respond {x y : Exchange} (status : ℕ) (payload : Fields)
    (hsame : y.responses = x.responses) : Writes x (respond status payload y) := by
  unfold respond
  cases jsonFields? payload with
  | none => exact writes_error _ hsame
  | some _ => exact Or.inl ⟨⟨status, payload⟩, rfl, by rw [hsame]⟩

variable [Stdlib]

theorem writes_answer {x y : Exchange} (result : Except Raised PublishResult)
    (hsame : y.responses = x.responses) : Writes x (answer result y) := by
  cases result with
  | ok result =>
    unfold answer
    simp only
    cases serialize result with
    | error e => exact writes_error e hsame
    | ok payload => exact writes_respond _ _ hsame
  | error e =>
    cases e with
    | reminderInputError _ | delayError _ | publishError _ => exact writes_respond _ _ hsame
    | valueError | overflowError | typeError | recursionError | unicodeEncodeError
    | transportError =>
      exact writes_error _ hsame

theorem writes_handleBody {x y : Exchange} (settings : PublisherSettings) (world : World)
    (raw : List UInt8) (hsame : y.responses = x.responses) :
    Writes x (handleBody settings world raw y) := by
  unfold handleBody
  simp only
  split
  · exact writes_respond _ _ hsame
  · exact writes_respond _ _ hsame
  · exact writes_error _ hsame
  · exact writes_error _ hsame
  · split_ifs
    · exact writes_answer _ hsame
    · exact writes_respond _ _ hsame
  · exact writes_respond _ _ hsame

theorem writes_doPost (settings : PublisherSettings) (world : World) (head : Head) (x : Exchange) :
    Writes x (doPost settings world head x) := by
  unfold doPost
  split
  · exact writes_error _ rfl
  · split_ifs
    · exact writes_respond _ _ rfl
    · split
      · exact writes_error _ rfl
      · exact writes_respond _ _ rfl
      · obtain ⟨-, response, hr⟩ | ⟨-, -, -, e, hr⟩ | ⟨length, raw, rest, -, -, -, hr⟩ :=
          readBody_cases settings head x
        · simp only [hr]
          exact Or.inl ⟨response, rfl, rfl⟩
        · simp only [hr]
          exact writes_error e rfl
        · simp only [hr]
          apply writes_handleBody
          rfl

theorem writes_doGet (head : Head) (x : Exchange) : Writes x (doGet head x) := by
  unfold doGet
  split
  · exact writes_error _ rfl
  · split_ifs
    · exact writes_respond _ _ rfl
    · exact writes_respond _ _ rfl
    · exact writes_respond _ _ rfl

theorem writes_handle (settings : PublisherSettings) (world : World) (head : Head) (x : Exchange) :
    Writes x (handle settings world head x) := by
  unfold handle
  split_ifs
  · exact writes_doGet head x
  · exact writes_doPost settings world head x
  · exact Or.inl ⟨⟨501, []⟩, rfl, rfl⟩

/-! ### What a handler reads -/

variable {settings : PublisherSettings} {world : World} {head : Head}

/-- A body of `length` bytes is read; of `-1`, all that is left. -/
structure ReadsBody (settings : PublisherSettings) (head : Head) (length : ℤ) : Prop where
  method : head.method = "POST"
  path : Stdlib.urlPath head.path = some reminderPath
  token : Comparable settings head ∧ Authentic settings head
  contentLength : Stdlib.intOfStr (head.contentLength.getD []) = some length
  bounds : -1 ≤ length ∧ length ≤ settings.maxBodyBytes

/-- The handler has taken `body` and left `rest`. -/
def Takes (r : Handled Unit) (body rest : List UInt8) : Prop := r.1.body = body ∧ r.1.unread = rest

omit [Stdlib] in
theorem takes_respond (status : ℕ) (payload : Fields) (x : Exchange) :
    Takes (respond status payload x) x.body x.unread := by
  obtain ⟨responses, h⟩ := exists_respond status payload x
  unfold Takes
  rw [h]
  exact ⟨rfl, rfl⟩

theorem takes_handleBody (settings : PublisherSettings) (world : World) (raw : List UInt8)
    (x : Exchange) : Takes (handleBody settings world raw x) x.body x.unread := by
  unfold Takes
  obtain ⟨responses, h⟩ | ⟨payload, -, -, h⟩ := handleBody_cases settings world raw x
  · rw [h]
    exact ⟨rfl, rfl⟩
  · obtain ⟨responses, hr⟩ := exists_answer (submit settings world (arguments payload)).2
      { x with
        submitted := x.submitted ++ [arguments payload]
        published := x.published ++ (submit settings world (arguments payload)).1 }
    rw [h, handleFields, hr]
    exact ⟨rfl, rfl⟩

theorem takes_doGet (head : Head) (unread : List UInt8) : Takes (doGet head { unread })
    [] unread := by
  unfold doGet
  split
  · exact ⟨rfl, rfl⟩
  · split_ifs
    · exact takes_respond _ _ _
    · exact takes_respond _ _ _
    · exact takes_respond _ _ _

theorem handle_takes (settings : PublisherSettings) (world : World) (head : Head)
    (unread : List UInt8) :
    (∃ length, ReadsBody settings head length ∧
      (0 ≤ length ∧ Takes (handle settings world head { unread }) (unread.take length.toNat)
          (unread.drop length.toNat) ∨
        length = -1 ∧ Takes (handle settings world head { unread }) unread [])) ∨
      (∀ length, ¬ ReadsBody settings head length) ∧
        Takes (handle settings world head { unread }) [] unread := by
  unfold handle
  split_ifs with hget hpost
  · refine Or.inr ⟨fun length h => ?_, takes_doGet head unread⟩
    rw [h.method] at hget
    exact absurd hget (by decide)
  · unfold doPost
    cases hpath : Stdlib.urlPath head.path with
    | none =>
      refine Or.inr ⟨fun length h => ?_, rfl, rfl⟩
      have := h.path
      rw [hpath] at this
      cases this
    | some path =>
      simp only
      by_cases hreminder : path = reminderPath
      · subst hreminder
        rw [if_neg (not_not.mpr rfl)]
        obtain ⟨hnot, h⟩ | ⟨-, hnot, h⟩ | ⟨hcomparable, hauthentic, h⟩ :=
          authorized_cases settings head
        · rw [h]
          exact Or.inr ⟨fun length hl => hnot hl.token.1, rfl, rfl⟩
        · rw [h]
          exact Or.inr ⟨fun length hl => hnot hl.token.2, takes_respond _ _ _⟩
        · simp only [h]
          obtain ⟨hbig, response, hr⟩ | ⟨length, hlength, hneg, e, hr⟩ |
            ⟨length, raw, rest, hlength, hmax, hraw, hr⟩ := readBody_cases settings head { unread }
          · simp only [hr]
            refine Or.inr ⟨fun length hl => ?_, rfl, rfl⟩
            exact absurd (hbig length hl.contentLength) (not_lt.mpr hl.bounds.2)
          · simp only [hr]
            refine Or.inr ⟨fun length' hl => ?_, rfl, rfl⟩
            have hsame := hl.contentLength
            rw [hlength] at hsame
            cases hsame
            exact absurd hneg (not_lt.mpr hl.bounds.1)
          · simp only [hr]
            have hreads : -1 ≤ length → ReadsBody settings head length := fun hle =>
              ⟨hpost, hpath, ⟨hcomparable, hauthentic⟩, hlength, hle, hmax⟩
            have htakes : Takes (handleBody settings world raw { unread := rest, body := raw })
              raw rest :=
              takes_handleBody settings world raw _
            rcases hraw with ⟨hpos, rfl, rfl⟩ | ⟨rfl, rfl, rfl⟩
            · exact Or.inl ⟨length, hreads (by omega), Or.inl ⟨hpos, htakes⟩⟩
            · exact Or.inl ⟨-1, hreads le_rfl, Or.inr ⟨rfl, htakes⟩⟩
      · rw [if_pos hreminder]
        refine Or.inr ⟨fun length h => ?_, takes_respond _ _ _⟩
        have := h.path
        rw [hpath] at this
        cases this
        exact hreminder rfl
  · exact Or.inr ⟨fun length h => hpost h.method, rfl, rfl⟩

/-- The handler returns, in the world in which it is called. -/
def Returns (settings : PublisherSettings) (world : World) (head : Head)
    (unread : List UInt8) : Prop :=
  ∃ path, Stdlib.urlPath head.path = some path ∧
    (head.method = "GET" ∨ head.method = "POST" ∧
      (path = reminderPath → Regular settings world head unread))

theorem ends_doGet (head : Head) (x : Exchange) :
    Ends x (doGet head x) (∃ path, Stdlib.urlPath head.path = some path) := by
  unfold doGet
  cases hpath : Stdlib.urlPath head.path with
  | none => exact ends_error (by simp)
  | some path =>
    have husage : ∃ body, jsonFields? usage = some body := by
      simp [usage, reminderPath, jsonFields?, Value.json?]
    have hhealth : ∃ body, jsonFields?
        [(Str.of "status", Value.str (.of "ok")), (Str.of "version", .str (.of "0.1.0"))] =
          some body := by
      simp [jsonFields?, Value.json?]
    simp only
    split_ifs
    · exact (ends_respond rfl).congr (iff_of_true hhealth ⟨path, rfl⟩)
    · exact (ends_respond rfl).congr (iff_of_true husage ⟨path, rfl⟩)
    · exact ends_respond_error rfl (Str.encodable_of _) ⟨path, rfl⟩

theorem ends_doPost_any (settings : PublisherSettings) (world : World) (head : Head)
    (x : Exchange) :
    Ends x (doPost settings world head x) (∃ path, Stdlib.urlPath head.path = some path ∧
      (path = reminderPath → Regular settings world head x.unread)) := by
  cases hpath : Stdlib.urlPath head.path with
  | none =>
    simp only [doPost, hpath]
    exact ends_error (by simp)
  | some path =>
    by_cases hreminder : path = reminderPath
    · subst hreminder
      refine (ends_doPost hpath x).congr ⟨fun h => ⟨_, rfl, fun _ => h⟩, ?_⟩
      rintro ⟨path, h, hregular⟩
      cases h
      exact hregular rfl
    · simp only [doPost, hpath, ne_eq, hreminder, not_false_eq_true, if_true]
      refine ends_respond_error rfl (Str.encodable_of _) ⟨path, rfl, fun h => absurd h hreminder⟩

theorem isOk_handle (settings : PublisherSettings) (world : World) {head : Head}
    (unread : List UInt8) (hsupported : head.supported = true) :
    (handle settings world head { unread }).2.isOk = true ↔ Returns settings world head unread := by
  have hisOk : ∀ r : Except Raised Unit, r.isOk = true ↔ r = .ok () := by
    intro r
    cases r <;> simp [Except.isOk, Except.toBool]
  have hmethod : head.method = "GET" ∨ head.method = "POST" := by
    simpa [Head.supported] using hsupported
  rw [hisOk]
  unfold Returns handle
  split_ifs with hget hpost
  · refine (ends_doGet head { unread }).iff.trans ?_
    simp [hget]
  · refine (ends_doPost_any settings world head { unread }).iff.trans ?_
    simp [hpost]
  · exact absurd hmethod (not_or.mpr ⟨hget, hpost⟩)

/-! ### Tidy requests -/

/-- The connection is closed before the body matters. -/
def Closes (settings : PublisherSettings) (head : Head) : Prop :=
  head.closes = true ∨ head.supported = false ∨ Stdlib.urlPath head.path = none ∨
    head.method = "POST" ∧ Stdlib.urlPath head.path = some reminderPath ∧ ¬ Comparable settings head

/-- A body is read, unless the connection is closed, and nothing beyond it. -/
structure Tidy (settings : PublisherSettings) (r : ClientRequest) (rest : List UInt8) : Prop where
  body : r.body ≠ [] → Closes settings r.head ∨ ∃ length, ReadsBody settings r.head length
  rest : ReadsBody settings r.head (-1) → rest = []

/-- The connection stays open after the request. -/
structure Stays (settings : PublisherSettings) (world : World) (r : ClientRequest)
    (rest : List UInt8) : Prop where
  keepAlive : r.head.closes = false
  returns : Returns settings world r.head (r.body ++ rest)

/-- Each request is tidy that is served while the connection is open, one in each of the worlds. -/
def TidyAlong (settings : PublisherSettings) : List World → List ClientRequest → Prop
  | world :: worlds, r :: requests =>
    Tidy settings r (stream requests) ∧
      (Stays settings world r (stream requests) → TidyAlong settings worlds requests)
  | _, _ => True

/-! ### Framed connections -/

/-- The turn is that of the request; the bytes that are read as a body are its own, and they are not
too many. -/
structure Serves (settings : PublisherSettings) (turn : Turn) (r : ClientRequest) : Prop where
  head : turn.head = some r.head
  body : turn.body = [] ∨ turn.body = r.body
  bounded : turn.body.length ≤ settings.maxBodyBytes

/-- What is written answers the requests in their order, the server has taken the requests one by
one, and it is about to read the next. -/
structure Framed (settings : PublisherSettings) (requests : List ClientRequest) (c : Connection) :
    Prop where
  answers : ∀ (i : ℕ) (response : Response), c.wire[i]? = some response →
    ∃ (turn : Turn) (r : ClientRequest), c.turns[i]? = some turn ∧ turn.responses = [response] ∧
    requests[i]? = some r ∧ turn.head = some r.head
  serves : ∀ (i : ℕ) (turn : Turn), c.turns[i]? = some turn →
    ∃ r, requests[i]? = some r ∧ Serves settings turn r
  boundary : c.closed = false → c.unread = stream (requests.drop c.turns.length)

/-- `done` has been served and `rest` is left, unless the connection is closed. -/
structure Aligned (settings : PublisherSettings) (done rest : List ClientRequest) (c : Connection) :
    Prop where
  serves : List.Forall₂ (Serves settings) c.turns done
  answered : ∀ turn ∈ c.turns.dropLast, ∃ response, turn.responses = [response]
  last : ∀ turn ∈ c.turns, turn.responses.length ≤ 1
  unread : c.closed = false → (∀ turn ∈ c.turns, ∃ response, turn.responses = [response]) ∧
    c.unread = stream rest

/-! ### One request -/

variable {parse : List UInt8 → Parsed} {done rest : List ClientRequest} {r : ClientRequest}
  {c : Connection}

omit [Stdlib] in
theorem exists_turn {turns : List Turn}
    (hfirst : ∀ turn ∈ turns.dropLast, ∃ response, turn.responses = [response])
    (hlast : ∀ turn ∈ turns, turn.responses.length ≤ 1) {i : ℕ} {response : Response}
    (h : (turns.flatMap Turn.responses)[i]? = some response) :
    ∃ turn : Turn, turns[i]? = some turn ∧ turn.responses = [response] := by
  induction turns generalizing i with
  | nil => simp at h
  | cons turn turns ih =>
    cases turns with
    | nil =>
      have hone := hlast turn List.mem_cons_self
      rw [List.flatMap_singleton] at h
      obtain ⟨hi, hresponse⟩ := List.getElem?_eq_some_iff.mp h
      obtain rfl : i = 0 := by omega
      refine ⟨turn, rfl, ?_⟩
      obtain ⟨response', he⟩ := List.length_eq_one_iff.mp (le_antisymm hone (by omega))
      rw [he] at h ⊢
      cases h
      rfl
    | cons turn' turns =>
      rw [List.dropLast_cons_cons, List.forall_mem_cons] at hfirst
      obtain ⟨response', he⟩ := hfirst.1
      rw [List.flatMap_cons, he, List.singleton_append] at h
      cases i with
      | zero =>
        cases h
        exact ⟨turn, rfl, he⟩
      | succ i => exact ih hfirst.2 (List.forall_mem_cons.mp hlast).2 h

omit [Stdlib] in
theorem Aligned.framed (h : Aligned settings done rest c) : Framed settings (done ++ rest) c := by
  have hlength : c.turns.length = done.length := h.serves.length_eq
  have hserves : ∀ (i : ℕ) (turn : Turn), c.turns[i]? = some turn →
      ∃ r, (done ++ rest)[i]? = some r ∧ Serves settings turn r := by
    intro i turn hturn
    obtain ⟨hi, rfl⟩ := List.getElem?_eq_some_iff.mp hturn
    have hi' : i < done.length := hlength ▸ hi
    refine ⟨done[i], ?_, (List.forall₂_iff_get.mp h.serves).2 i hi hi'⟩
    rw [List.getElem?_append_left hi', List.getElem?_eq_getElem hi']
  refine ⟨fun i response hi => ?_, hserves, fun hopen => ?_⟩
  · obtain ⟨turn, hturn, hresponse⟩ := exists_turn h.answered h.last hi
    obtain ⟨r, hr, hs⟩ := hserves i turn hturn
    exact ⟨turn, r, hturn, hresponse, hr, hs.head⟩
  · rw [(h.unread hopen).2, hlength, List.drop_left]

theorem step_of_closed (h : c.closed = true) : step settings parse c world = c := by
  unfold step
  rw [if_pos h]

theorem step_request {head : Head} {unread : List UInt8} (hopen : c.closed = false)
    (hparse : parse c.unread = .request head unread) :
    step settings parse c world =
      { unread := (handle settings world head { unread }).1.unread
        closed := head.closes || !head.supported || !(handle settings world head { unread }).2.isOk
        turns := c.turns ++ [⟨some head, (handle settings world head { unread }).1.body,
          (handle settings world head { unread }).1.responses⟩] } := by
  unfold step
  rw [hopen, hparse]
  rfl

/-- The connection stays open exactly after the requests that let it. -/
theorem open_iff (settings : PublisherSettings) (world : World) (r : ClientRequest)
    (rest : List UInt8) :
    (r.head.closes || !r.head.supported ||
      !(handle settings world r.head { unread := r.body ++ rest }).2.isOk) = false ↔
        Stays settings world r rest := by
  simp only [Bool.or_eq_false_iff, Bool.not_eq_false']
  constructor
  · rintro ⟨⟨hcloses, hsupported⟩, hok⟩
    exact ⟨hcloses, (isOk_handle settings world _ hsupported).mp hok⟩
  · rintro ⟨hcloses, hreturns⟩
    have hsupported : r.head.supported = true := by
      obtain ⟨-, -, hget | ⟨hpost, -⟩⟩ := hreturns
      · simp [Head.supported, hget]
      · simp [Head.supported, hpost]
    exact ⟨⟨hcloses, hsupported⟩, (isOk_handle settings world _ hsupported).mpr hreturns⟩

theorem not_stays_of_closes {rest : List UInt8} (h : Closes settings r.head) :
    ¬ Stays settings world r rest := by
  rintro ⟨hcloses, path, hpath, hmethod⟩
  rcases h with h | h | h | ⟨hpost, hreminder, hnot⟩
  · rw [hcloses] at h
    cases h
  · rcases hmethod with hget | ⟨hpost, -⟩
    · simp [Head.supported, hget] at h
    · simp [Head.supported, hpost] at h
  · rw [hpath] at h
    cases h
  · rcases hmethod with hget | ⟨-, hregular⟩
    · rw [hpost] at hget
      exact absurd hget (by decide)
    · rw [hpath] at hreminder
      cases hreminder
      exact hnot (hregular rfl).token

/-- A request whose body is not read stays open unless it closes. -/
theorem stays_of_not_closes {rest : List UInt8} (hdelimited : r.Delimited) (hbody : r.body ≠ [])
    (hcloses : ¬ Closes settings r.head) (hreads : ∀ length, ¬ ReadsBody settings r.head length) :
    Stays settings world r rest := by
  unfold Closes at hcloses
  push Not at hcloses
  obtain ⟨hkeep, hsupported, hpath, hcomparable⟩ := hcloses
  obtain ⟨path, hpath⟩ := Option.ne_none_iff_exists'.mp hpath
  have hlength : ∀ length, Stdlib.intOfStr (r.head.contentLength.getD []) = some length →
      0 < length := by
    intro length h
    have hpos := List.length_pos_iff.mpr hbody
    unfold ClientRequest.Delimited at hdelimited
    rw [h, Option.getD_some] at hdelimited
    omega
  refine ⟨by simpa using hkeep, path, hpath, ?_⟩
  have hmethod : r.head.method = "GET" ∨ r.head.method = "POST" := by
    have := Bool.eq_true_of_not_eq_false hsupported
    simpa [Head.supported] using this
  refine hmethod.imp_right fun hpost => ⟨hpost, fun hreminder => ?_⟩
  subst hreminder
  have htoken := hcomparable hpost hpath
  refine ⟨htoken, fun _ length h => ?_, fun raw h => ?_⟩
  · have := hlength length h
    omega
  · obtain ⟨hauthentic, length, hl, hmax, -⟩ := h
    have := hlength length hl
    exact absurd ⟨hpost, hpath, ⟨htoken, hauthentic⟩, hl, by omega, hmax⟩ (hreads length)

/-- **A tidy request keeps the connection aligned.** -/
theorem Aligned.step (h : Aligned settings done (r :: rest) c) (hopen : c.closed = false)
    (hparse : parse c.unread = .request r.head (r.body ++ stream rest)) (hdelimited : r.Delimited)
    (htidy : Tidy settings r (stream rest)) :
    Aligned settings (done ++ [r]) rest (step settings parse c world) := by
  have hwrites := writes_handle settings world r.head { unread := r.body ++ stream rest }
  have hstays := open_iff settings world r (stream rest)
  rw [step_request hopen hparse]
  -- what is read is the body or nothing, and what is left begins with the next request
  have htakes : ∃ body unread, Takes (handle settings world r.head
      { unread := r.body ++ stream rest })
      body unread ∧ (body = [] ∨ body = r.body) ∧ body.length ≤ settings.maxBodyBytes ∧
        (Stays settings world r (stream rest) → unread = stream rest) := by
    unfold ClientRequest.Delimited at hdelimited
    obtain ⟨length, hreads, ⟨hpos, htakes⟩ | ⟨rfl, htakes⟩⟩ | ⟨hnone, htakes⟩ :=
      handle_takes settings world r.head (r.body ++ stream rest)
    · rw [hreads.contentLength, Option.getD_some] at hdelimited
      rw [← hdelimited, List.take_left, List.drop_left] at htakes
      have hmax := hreads.bounds.2
      exact ⟨_, _, htakes, Or.inr rfl, by omega, fun _ => rfl⟩
    · rw [hreads.contentLength] at hdelimited
      have hempty : r.body = [] := List.length_eq_zero_iff.mp hdelimited
      have hrest := htidy.rest hreads
      exact ⟨_, _, htakes, Or.inl (by rw [hempty, hrest, List.nil_append]),
        by rw [hempty, hrest]; exact Nat.zero_le _, fun _ => hrest.symm⟩
    · refine ⟨_, _, htakes, Or.inl rfl, Nat.zero_le _, fun hstays => ?_⟩
      by_cases hempty : r.body = []
      · rw [hempty, List.nil_append]
      · rcases htidy.body hempty with hcloses | ⟨length, hreads⟩
        · exact absurd hstays (not_stays_of_closes hcloses)
        · exact absurd hreads (hnone length)
  obtain ⟨body, unread, ⟨hbody, hunread⟩, hown, hmax, hrest⟩ := htakes
  have hprevious := (h.unread hopen).1
  refine ⟨?_, ?_, ?_, fun hclosed => ⟨?_, ?_⟩⟩
  · refine List.rel_append h.serves (List.Forall₂.cons ⟨rfl, ?_, ?_⟩ List.Forall₂.nil)
    · rw [hbody]
      exact hown
    · rw [hbody]
      exact hmax
  · rw [List.dropLast_concat]
    exact hprevious
  · intro turn hturn
    rcases List.mem_append.mp hturn with hturn | hturn
    · exact h.last turn hturn
    · rw [List.mem_singleton.mp hturn]
      obtain ⟨response, -, hw⟩ | ⟨e, -, hw⟩ := hwrites <;> simp [hw]
  · intro turn hturn
    rcases List.mem_append.mp hturn with hturn | hturn
    · exact hprevious turn hturn
    · rw [List.mem_singleton.mp hturn]
      obtain ⟨response, -, hw⟩ | ⟨e, he, -⟩ := hwrites
      · exact ⟨response, hw⟩
      · simp only [he, Except.isOk, Except.toBool, Bool.not_false, Bool.or_true, Bool.true_eq_false]
          at hclosed
  · rw [hunread]
    exact hrest (hstays.mp hclosed)

/-- **A request that is not tidy breaks the framing.** -/
theorem tidy_of_framed (h : Aligned settings done (r :: rest) c) (hopen : c.closed = false)
    (hparse : parse c.unread = .request r.head (r.body ++ stream rest)) (hdelimited : r.Delimited)
    (hframed : Framed settings (done ++ r :: rest) (DemoReminder.step settings parse c world)) :
    Tidy settings r (stream rest) := by
  have hlength : c.turns.length = done.length := h.serves.length_eq
  have hstays := open_iff settings world r (stream rest)
  rw [step_request hopen hparse] at hframed
  refine ⟨fun hbody => ?_, fun hreads => ?_⟩
  · by_contra hnot
    obtain ⟨hcloses, hnone⟩ := not_or.mp hnot
    rw [not_exists] at hnone
    obtain ⟨length, hreads, -⟩ | ⟨-, -, hunread⟩ :=
      handle_takes settings world r.head (r.body ++ stream rest)
    · exact hnone length hreads
    · have hboundary := hframed.boundary
        (hstays.mpr (stays_of_not_closes hdelimited hbody hcloses hnone))
      have hdrop : (done ++ r :: rest).drop (c.turns.length + 1) = rest := by
        have hnext : done.length + 1 = (done ++ [r]).length := by simp
        rw [hlength, hnext, List.append_cons done r rest, List.drop_left]
      simp only [List.length_append, List.length_singleton, hdrop, hunread] at hboundary
      exact hbody (List.append_left_eq_self.mp hboundary)
  · obtain ⟨length, hreads', hcase⟩ | ⟨hnone, -⟩ :=
      handle_takes settings world r.head (r.body ++ stream rest)
    · have hsame := hreads.contentLength
      rw [hreads'.contentLength] at hsame
      cases hsame
      obtain ⟨hpos, -⟩ | ⟨-, hbody, -⟩ := hcase
      · exact absurd hpos (by decide)
      · obtain ⟨r', hr', hserves⟩ := hframed.serves c.turns.length _ List.getElem?_concat_length
        have hempty : r.body = [] := by
          unfold ClientRequest.Delimited at hdelimited
          rw [hreads.contentLength] at hdelimited
          exact List.length_eq_zero_iff.mp hdelimited
        have hsame : r' = r := by
          rw [hlength, List.getElem?_append_right le_rfl, Nat.sub_self] at hr'
          cases hr'
          rfl
        have hown := hserves.body
        simp only [hbody, hsame] at hown
        simpa [hempty] using hown
    · exact absurd hreads (hnone _)

/-! ### All requests -/

omit [Stdlib] in
/-- The connection before the first request. -/
def opened (requests : List ClientRequest) : Connection := { unread := stream requests }

omit [Stdlib] in
theorem aligned_opened (requests : List ClientRequest) :
    Aligned settings [] requests (opened requests) :=
  ⟨List.Forall₂.nil, by simp [opened], by simp [opened], fun _ => ⟨by simp [opened], rfl⟩⟩

theorem throughout_of_closed {requests : List ClientRequest} (h : Framed settings requests c)
    (hclosed : c.closed = true) (worlds : List World) :
    Throughout (DemoReminder.step settings parse) (Framed settings requests) c worlds := by
  have hstep : ∀ s (world : World), s = c → DemoReminder.step settings parse s world = c := by
    rintro s world rfl
    exact step_of_closed hclosed
  intro pre _ _
  rw [run_invariant_all (I := (· = c)) hstep rfl pre]
  exact h

theorem throughout_iff {worlds : List World} (h : Aligned settings done rest c)
    (hopen : c.closed = false) (hparse : Parses parse rest) (hdelimited : ∀ r ∈ rest, r.Delimited) :
    Throughout (DemoReminder.step settings parse) (Framed settings (done ++ rest)) c worlds ↔
      TidyAlong settings worlds rest := by
  induction worlds generalizing done rest c with
  | nil =>
    rw [throughout_nil]
    exact iff_of_true h.framed (by unfold TidyAlong; trivial)
  | cons world worlds ih =>
    rw [throughout_cons, and_iff_right h.framed]
    cases rest with
    | nil =>
      -- the client has sent everything
      refine iff_of_true ?_ (by unfold TidyAlong; trivial)
      have hunread : c.unread = [] := (h.unread hopen).2
      have hstep : DemoReminder.step settings parse c world = { c with closed := true } := by
        unfold DemoReminder.step
        rw [hopen, hunread, hparse.eof]
        rfl
      rw [hstep]
      refine throughout_of_closed ?_ rfl worlds
      exact ⟨h.framed.answers, h.framed.serves, fun hclosed => by cases hclosed⟩
    | cons r rest =>
      have hhead : parse c.unread = .request r.head (r.body ++ stream rest) := by
        rw [(h.unread hopen).2, stream_cons]
        exact hparse.head r List.mem_cons_self _
      have hr := hdelimited r List.mem_cons_self
      have hnext : (DemoReminder.step settings parse c world).closed = false ↔
          Stays settings world r (stream rest) := by
        rw [step_request hopen hhead]
        exact open_iff settings world r (stream rest)
      have hrest : Parses parse rest :=
        ⟨hparse.eof, fun r' hr' => hparse.head r' (List.mem_cons_of_mem _ hr')⟩
      have hall : ∀ r' ∈ rest, r'.Delimited :=
        fun r' hr' => hdelimited r' (List.mem_cons_of_mem _ hr')
      unfold TidyAlong
      constructor
      · intro hthrough
        have htidy : Tidy settings r (stream rest) :=
          tidy_of_framed h hopen hhead hr (hthrough [] worlds rfl)
        refine ⟨htidy, fun hstays => ?_⟩
        rw [List.append_cons] at hthrough
        exact (ih (h.step hopen hhead hr htidy) (hnext.mpr hstays) hrest hall).mp hthrough
      · rintro ⟨htidy, hlater⟩
        have hstep : Aligned settings (done ++ [r]) rest
            (DemoReminder.step settings parse c world) :=
          h.step hopen hhead hr htidy
        rw [List.append_cons]
        by_cases hstays : Stays settings world r (stream rest)
        · exact (ih hstep (hnext.mpr hstays) hrest hall).mpr (hlater hstays)
        · refine throughout_of_closed hstep.framed ?_ worlds
          exact Bool.eq_true_of_not_eq_false fun hclosed => hstays (hnext.mp hclosed)

/-- **The connection is framed at every point** exactly if every request is tidy that is served
while the connection is open. -/
theorem framed_iff (settings : PublisherSettings) {parse : List UInt8 → Parsed}
    {requests : List ClientRequest} (hparse : Parses parse requests)
    (hdelimited : ∀ r ∈ requests, r.Delimited) (worlds : List World) :
    Throughout (DemoReminder.step settings parse) (Framed settings requests)
      (opened requests) worlds ↔
      TidyAlong settings worlds requests :=
  throughout_iff (aligned_opened requests) rfl hparse hdelimited

/-! ### A sample -/

section Sample

omit [Stdlib]

/-- The library on the heads of the samples. -/
def sampleParse (heads : List ClientRequest) (unread : List UInt8) : Parsed :=
  if unread = [] then .eof
  else
    match heads.find? fun r => r.bytes.isPrefixOf unread with
    | some r => .request r.head (unread.drop r.bytes.length)
    | none => .refused 400

theorem sampleParse_append {heads : List ClientRequest} {r : ClientRequest} {rest : List UInt8}
    (hne : r.bytes ≠ [])
    (hfind : heads.find? (fun r' => r'.bytes.isPrefixOf (r.bytes ++ rest)) = some r) :
    sampleParse heads (r.bytes ++ rest) = .request r.head rest := by
  unfold sampleParse
  rw [if_neg (by simp [hne]), hfind]
  simp

def health : ClientRequest where
  bytes := bytes "GET /health HTTP/1.1\r\n\r\n"
  head := ⟨"GET", .of "/health", none, none, false⟩
  body := []

/-- A request that is not for a reminder; its body reads like another request. -/
def smuggling : ClientRequest where
  bytes := bytes "POST /v1/other HTTP/1.1\r\nContent-Length: 24\r\n\r\n"
  head := ⟨"POST", .of "/v1/other", none, some (.of "24"), false⟩
  body := health.bytes

/-- **A body is interpreted as a request**: it is left unread when the path is not found. -/
theorem not_framed :
    let _ := Stdlib.sample []
    let parse := sampleParse [smuggling, health]
    let c := run (step sampleSettings parse) (opened [smuggling]) [sampleWorld, sampleWorld]
    Parses parse [smuggling] ∧ smuggling.Delimited ∧ c.wire.map Response.status = [404, 200] ∧
      ¬ Framed sampleSettings [smuggling] c := by
  let _ := Stdlib.sample []
  refine ⟨⟨rfl, fun r hr rest => ?_⟩, rfl, rfl, fun h => ?_⟩
  · rw [List.mem_singleton.mp hr]
    exact sampleParse_append (by decide) rfl
  · obtain ⟨turn, r, -, -, hr, -⟩ := h.answers 1 _ rfl
    cases hr

def reminder : ClientRequest where
  bytes := bytes "POST /v1/reminders HTTP/1.1\r\n"
  head := sampleHead "12"
  body := bytes sampleBody

theorem framed_iff_sample :
    let _ := Stdlib.sample [(sampleBody, .obj [(.of "delay", .int 5)])]
    Throughout (step sampleSettings (sampleParse [reminder, health]))
      (Framed sampleSettings [reminder, health]) (opened [reminder, health])
      [sampleWorld, sampleWorld, sampleWorld] := by
  let _ := Stdlib.sample [(sampleBody, .obj [(.of "delay", .int 5)])]
  have hparse : Parses (sampleParse [reminder, health]) [reminder, health] := by
    refine ⟨rfl, fun r hr rest => ?_⟩
    rcases List.mem_pair.mp hr with rfl | rfl
    · exact sampleParse_append (by decide) rfl
    · exact sampleParse_append (by decide) rfl
  have hdelimited : ∀ r ∈ [reminder, health], r.Delimited := by
    intro r hr
    rcases List.mem_pair.mp hr with rfl | rfl <;> rfl
  refine (framed_iff sampleSettings hparse hdelimited _).mpr ⟨⟨fun _ => ?_, fun h => ?_⟩,
    fun _ => ?_⟩
  · refine Or.inr ⟨12, rfl, rfl, ⟨?_, ?_⟩, rfl, by decide, by decide⟩
    · intro token rest htoken _ hheader
      cases htoken
      have hrest := List.append_cancel_left (Option.some.inj hheader)
      rw [← hrest]
      exact ⟨rfl, rfl⟩
    · exact ⟨_, _, rfl, by decide, rfl, rfl⟩
  · cases h.contentLength
  · exact ⟨⟨fun h => absurd rfl h, fun _ => rfl⟩, fun _ => trivial⟩

end Sample

end EventServer.DemoReminder
