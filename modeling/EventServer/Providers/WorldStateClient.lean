import EventServer.Db.Transactions
import EventServer.Lib.Except
import EventServer.Python.Json
import Mathlib.Tactic.NormNum
import Mathlib.Tactic.Positivity

/-! # The client of the world state

`providers/warframe/client.py`: `fetch` asks for the world state and tries again where the transport
or the response fails; `_fetch_once` reads the body of a response up to a limit. What the server and
the network do at each attempt is arbitrary (`Exchange`), and so is what `json.loads` makes of the
bytes.

The attempts end with the first one that cannot be repeated (`ended`), so the payload is that of the
first exchange that delivers one (`fetch_eq_ok`): the whole body of a response with status 200,
within the limit, that is an object. -/

namespace EventServer.Providers.WorldStateClient

open EventServer.Db.Transactions (timesPowTwo timesPowTwo_eq_none)
open EventServer.Lib EventServer.Python

/-! ### One exchange -/

/-- An exception of `httpx`: a `TransportError`, or another one. -/
inductive HttpError where
  | transportError (message : String)
  | other (message : String)

/-- A response: the `Content-Length` of its headers, the chunks that `iter_bytes` gives, and what it
raises after them if they are not the whole body. -/
structure Response where
  statusCode : ℕ
  contentLength : Option String := none
  chunks : List (List UInt8)
  broken : Option HttpError := none

/-- What `client.stream` gives or raises. Redirects are not followed. -/
abbrev Exchange := Except HttpError Response

/-- What leaves `_fetch_once` or `fetch`. -/
inductive Raised where
  | http (e : HttpError)
  | worldStateError (message : String)
  | valueError
  | recursionError
  | overflowError (message : String)

/-- The exceptions that `fetch` catches. -/
def Raised.caught : Raised → Bool
  | .http (.transportError _) => true
  | .worldStateError _ => true
  | _ => false

/-- What the client calls of the standard library. -/
structure Library where
  /-- `int(s)`, or `none` if it raises. -/
  intOfStr : String → Option ℤ
  /-- `json.loads(body)`. -/
  loads : List UInt8 → Except LoadsError Json

/-- `WarframeWorldStateClient`; its timeouts and its transport are part of the exchanges. -/
structure Client where
  maxResponseBytes : ℤ := 4 * 1024 * 1024
  maxAttempts : ℤ := 2

variable (lib : Library) (client : Client)

/-- The check of the `Content-Length`. -/
def checkContentLength (contentLength : Option String) : Except Raised Unit :=
  match contentLength with
  | none => .ok ()
  | some text =>
    if text = "" then .ok ()
    else match lib.intOfStr text with
      | none => .error .valueError
      | some n =>
        if client.maxResponseBytes < n then .error
          (.worldStateError "WorldState response is too large")
        else .ok ()

/-- The loop over `response.iter_bytes()`. -/
def readBody (broken : Option HttpError) :
    List UInt8 → List (List UInt8) → Except Raised (List UInt8)
  | body, [] =>
    match broken with
    | none => .ok body
    | some e => .error (.http e)
  | body, chunk :: chunks =>
    if client.maxResponseBytes < (body ++ chunk).length then
      .error (.worldStateError "WorldState response is too large")
    else readBody broken (body ++ chunk) chunks

/-- The part of `_fetch_once` that reads the payload. -/
def parseBody (body : List UInt8) : Except Raised JsonObject :=
  match lib.loads body with
  | .ok (.obj payload) => .ok payload
  | .ok _ => .error (.worldStateError "WorldState root must be an object")
  -- a `JSONDecodeError` is a `ValueError`, but not the other way round
  | .error .unicodeDecodeError => .error (.worldStateError "WorldState response is not valid JSON")
  | .error (.jsonDecodeError _) => .error (.worldStateError "WorldState response is not valid JSON")
  | .error .valueError => .error .valueError
  | .error .recursionError => .error .recursionError

/-- `_fetch_once`. -/
def fetchOnce (exchange : Exchange) : Except Raised JsonObject :=
  match exchange with
  | .error e => .error (.http e)
  | .ok response =>
    if response.statusCode ≠ 200 then
      .error (.worldStateError ("unexpected WorldState status: " ++ toString response.statusCode))
    else do
      checkContentLength lib client response.contentLength
      let body ← readBody client response.broken [] response.chunks
      parseBody lib body

/-! ### The attempts -/

inductive Event where
  | requested (attempt : ℕ)
  | slept (seconds : Number)
  deriving DecidableEq

/-- The loop from `attempt` on, with `n` numbers of the range left, and what happens in it. -/
def attempts (exchanges : ℕ → Exchange) (attempt : ℕ) : ℕ → Except Raised JsonObject × List Event
  | 0 => (.error (.worldStateError "Warframe WorldState request failed"), [])
  | n + 1 =>
    match fetchOnce lib client (exchanges attempt) with
    | .ok payload => (.ok payload, [.requested attempt])
    | .error e =>
      if e.caught = false then (.error e, [.requested attempt])
      else if client.maxAttempts ≤ attempt + 1 then
        (.error (.worldStateError "Warframe WorldState request failed"), [.requested attempt])
      else match timesPowTwo (.finite (1 / 4)) attempt with
        | none => (.error (.overflowError "int too large to convert to float"),
          [.requested attempt])
        | some seconds =>
          ((attempts exchanges (attempt + 1) n).1,
            .requested attempt :: .slept seconds :: (attempts exchanges (attempt + 1) n).2)

/-- `fetch`, with a `sleep_fn` that returns. -/
def fetch (exchanges : ℕ → Exchange) : Except Raised JsonObject × List Event :=
  attempts lib client exchanges 0 client.maxAttempts.toNat

/-! ### What is accepted -/

/-- The response delivers the payload: it is the whole of its body, and within the limit. -/
structure Delivers (response : Response) (payload : JsonObject) : Prop where
  status : response.statusCode = 200
  declared : ∀ text, response.contentLength = some text → text ≠ "" →
    ∃ n, lib.intOfStr text = some n ∧ n ≤ client.maxResponseBytes
  complete : response.broken = none
  -- the length of a body without chunks is never compared
  small : response.chunks = [] ∨ response.chunks.flatten.length ≤ client.maxResponseBytes
  parsed : lib.loads response.chunks.flatten = .ok (.obj payload)

variable {lib client}

theorem checkContentLength_eq_ok {contentLength : Option String} {u : Unit} :
    checkContentLength lib client contentLength = .ok u ↔
      ∀ text, contentLength = some text → text ≠ "" →
      ∃ n, lib.intOfStr text = some n ∧ n ≤ client.maxResponseBytes := by
  cases contentLength with
  | none => simp [checkContentLength]
  | some text =>
    unfold checkContentLength
    simp only
    by_cases hempty : text = ""
    · simp [hempty]
    · rw [if_neg hempty]
      cases hint : lib.intOfStr text with
      | none => simp [hempty, hint]
      | some n =>
        by_cases hlt : client.maxResponseBytes < n
        · simp [hempty, hint, hlt]
        · simp [hempty, hint, hlt, not_lt.mp hlt]

theorem readBody_eq_ok {broken : Option HttpError} {body b : List UInt8}
    {chunks : List (List UInt8)} :
    readBody client broken body chunks = .ok b ↔
      broken = none ∧ b = body ++ chunks.flatten ∧
        (chunks = [] ∨ b.length ≤ client.maxResponseBytes) := by
  induction chunks generalizing body with
  | nil => cases broken <;> simp [readBody, eq_comm]
  | cons chunk chunks ih =>
    unfold readBody
    by_cases hlarge : client.maxResponseBytes < (body ++ chunk).length
    · rw [if_pos hlarge]
      refine ⟨fun h => (by cases h), ?_⟩
      rintro ⟨-, rfl, hnil | hle⟩
      · cases hnil
      · simp only [List.flatten_cons, List.length_append, Nat.cast_add] at hlarge hle
        omega
    · rw [if_neg hlarge, ih, List.flatten_cons, List.append_assoc]
      refine and_congr_right fun _ => and_congr_right fun hb => ⟨?_, ?_⟩
      · rintro (rfl | hle)
        · rw [hb]
          simpa using not_lt.mp hlarge
        · exact .inr hle
      · rintro (hnil | hle)
        · cases hnil
        · exact .inr hle

theorem parseBody_eq_ok {body : List UInt8} {payload : JsonObject} :
    parseBody lib body = .ok payload ↔ lib.loads body = .ok (.obj payload) := by
  unfold parseBody
  cases lib.loads body with
  | error e => cases e <;> simp
  | ok value => cases value <;> simp

/-- **What `_fetch_once` returns** is what the response delivers. -/
theorem fetchOnce_eq_ok {exchange : Exchange} {payload : JsonObject} :
    fetchOnce lib client exchange = .ok payload ↔
      ∃ response, exchange = .ok response ∧ Delivers lib client response payload := by
  cases exchange with
  | error e => simp [fetchOnce]
  | ok response =>
    unfold fetchOnce
    simp only
    by_cases hstatus : response.statusCode = 200
    · rw [if_neg (not_not.mpr hstatus)]
      simp only [bind_eq_ok, checkContentLength_eq_ok, readBody_eq_ok, parseBody_eq_ok,
        List.nil_append]
      constructor
      · rintro ⟨-, hdeclared, b, ⟨hbroken, rfl, hsmall⟩, hparsed⟩
        exact ⟨response, rfl, hstatus, hdeclared, hbroken, hsmall, hparsed⟩
      · rintro ⟨response', hsame, -, hdeclared, hbroken, hsmall, hparsed⟩
        cases hsame
        exact ⟨(), hdeclared, _, ⟨hbroken, rfl, hsmall⟩, hparsed⟩
    · rw [if_pos hstatus]
      refine ⟨fun h => (by cases h), ?_⟩
      rintro ⟨response', hsame, h⟩
      cases hsame
      exact absurd h.status hstatus

/-- A library that can read an object without fields. -/
def sampleLibrary : Library where
  intOfStr s := if s = "2" then some 2 else none
  loads body := if body = [123, 125] then .ok (.obj []) else .error
    (.jsonDecodeError "Expecting value")

example : fetchOnce sampleLibrary {}
    (.ok { statusCode := 200, contentLength := some "2", chunks := [[123], [125]] }) =
      .ok [] := by rfl

/-! ### Which attempts are made -/

variable (lib client) in
/-- The exchange fails in such a way that `fetch` goes on. -/
def Fails (exchange : Exchange) : Prop :=
  ∃ e, fetchOnce lib client exchange = .error e ∧ e.caught = true

/-- What happens at the attempts from `attempt` on before the attempt `m`: each is followed by a
pause. -/
def before (attempt m : ℕ) : List Event :=
  (List.range' attempt (m - attempt)).flatMap fun i =>
    [.requested i, .slept (.finite (1 / 4 * 2 ^ i))]

/-- What comes of the exchange at the attempt `m` if it is the last one. -/
def verdict (client : Client) (m : ℕ) : Except Raised JsonObject → Except Raised JsonObject
  | .ok payload => .ok payload
  | .error e =>
    if e.caught = false then .error e
    else if client.maxAttempts ≤ m + 1 then
      .error (.worldStateError "Warframe WorldState request failed")
    else .error (.overflowError "int too large to convert to float")

variable (lib client) in
/-- The attempts from `attempt` on have ended with the attempt `m`. -/
structure EndedWith (exchanges : ℕ → Exchange) (attempt : ℕ)
    (r : Except Raised JsonObject × List Event) (m : ℕ) : Prop where
  ge : attempt ≤ m
  lt : m < client.maxAttempts
  /-- There is no pause after the attempt 1024. -/
  le : m ≤ 1024
  /-- Those before it failed. -/
  failed : ∀ i, attempt ≤ i → i < m → Fails lib client (exchanges i)
  /-- It did not, or was the last possible one. -/
  stopped : Fails lib client (exchanges m) → m + 1 = client.maxAttempts ∨ m = 1024
  /-- One request is made at each attempt, and there is a pause between two of them. -/
  events : r.2 = before attempt m ++ [.requested m]
  value : r.1 = verdict client m (fetchOnce lib client (exchanges m))

variable {exchanges : ℕ → Exchange}

theorem not_fails_of_ok {exchange : Exchange} {payload : JsonObject}
    (h : fetchOnce lib client exchange = .ok payload) : ¬ Fails lib client exchange := by
  rintro ⟨e, herror, -⟩
  rw [h] at herror
  cases herror

theorem before_self (m : ℕ) : before m m = [] := by simp [before]

theorem before_succ {attempt m : ℕ} (h : attempt < m) : before attempt m =
    .requested attempt :: .slept (.finite (1 / 4 * 2 ^ attempt)) :: before (attempt + 1) m := by
  obtain ⟨d, rfl⟩ := Nat.exists_eq_add_of_lt h
  have hlength : attempt + d + 1 - attempt = d + 1 := by omega
  have hrest : attempt + d + 1 - (attempt + 1) = d := by omega
  unfold before
  rw [hlength, hrest, List.range'_succ]
  rfl

/-- The pauses start with a quarter of a second, and each is twice as long as the one before. -/
theorem pause_eq {i : ℕ} (h : i < 1024) :
    timesPowTwo (.finite (1 / 4)) i = some (.finite (1 / 4 * 2 ^ i)) := by
  have hpos : (0 : ℚ) < 2 ^ i := by positivity
  have hlt : |(1 / 4 : ℚ) * 2 ^ i| < 2 ^ 1024 := by
    rw [abs_of_pos (by positivity)]
    calc (1 / 4 : ℚ) * 2 ^ i ≤ 2 ^ i := mul_le_of_le_one_left hpos.le (by norm_num)
      _ < 2 ^ 1024 := pow_lt_pow_right₀ (by norm_num) h
  unfold timesPowTwo
  rw [if_neg (by omega)]
  simp only [if_pos hlt]

theorem attempts_stop {n attempt : ℕ} (h : Fails lib client (exchanges attempt) →
      client.maxAttempts ≤ attempt + 1 ∨ 1024 ≤ attempt) :
    attempts lib client exchanges attempt (n + 1) =
      (verdict client attempt (fetchOnce lib client (exchanges attempt)),
        [.requested attempt]) := by
  unfold attempts verdict
  cases hfetch : fetchOnce lib client (exchanges attempt) with
  | ok payload => rfl
  | error e =>
    simp only
    by_cases hcaught : e.caught = false
    · rw [if_pos hcaught, if_pos hcaught]
    · rw [if_neg hcaught, if_neg hcaught]
      by_cases hlast : client.maxAttempts ≤ attempt + 1
      · rw [if_pos hlast, if_pos hlast]
      · have hlarge : 1024 ≤ attempt :=
          (h ⟨e, hfetch, by simpa using hcaught⟩).resolve_left hlast
        rw [if_neg hlast, if_neg hlast, timesPowTwo_eq_none.mpr hlarge]

theorem attempts_next {n attempt : ℕ} (h : Fails lib client (exchanges attempt))
    (hmore : attempt + 1 < client.maxAttempts) (hlt : attempt < 1024) :
    attempts lib client exchanges attempt (n + 1) =
      ((attempts lib client exchanges (attempt + 1) n).1,
        .requested attempt :: .slept (.finite (1 / 4 * 2 ^ attempt)) ::
          (attempts lib client exchanges (attempt + 1) n).2) := by
  obtain ⟨e, hfetch, hcaught⟩ := h
  have hcaught' : ¬ e.caught = false := by rw [hcaught]; exact Bool.noConfusion
  rw [attempts]
  simp only [hfetch]
  rw [if_neg hcaught', if_neg (not_le.mpr hmore), pause_eq hlt]

theorem ended_of_stop {n attempt : ℕ} (hlt : attempt < client.maxAttempts) (hle : attempt ≤ 1024)
    (h : Fails lib client (exchanges attempt) → attempt + 1 = client.maxAttempts ∨ attempt = 1024) :
    EndedWith lib client exchanges attempt (attempts lib client exchanges attempt (n + 1))
      attempt := by
  have hstop := attempts_stop (n := n) fun hfails =>
    (h hfails).imp (fun heq => heq.ge) fun heq => heq.ge
  rw [hstop]
  exact ⟨le_rfl, hlt, hle, fun i hge hlt => absurd hge (not_le.mpr hlt),
    h, by rw [before_self]; rfl, rfl⟩

theorem attempts_ended {n attempt : ℕ} (hn : attempt + (n + 1) = client.maxAttempts.toNat)
    (hle : attempt ≤ 1024) :
    ∃ m, EndedWith lib client exchanges attempt
      (attempts lib client exchanges attempt (n + 1)) m := by
  induction n generalizing attempt with
  | zero => exact ⟨attempt, ended_of_stop (by omega) hle fun _ => .inl (by omega)⟩
  | succ n ih =>
    by_cases hgo : Fails lib client (exchanges attempt) ∧ attempt < 1024
    · obtain ⟨hfails, hlt⟩ := hgo
      obtain ⟨m, hm⟩ : ∃ m, EndedWith lib client exchanges (attempt + 1)
          (attempts lib client exchanges (attempt + 1) (n + 1)) m := ih (by omega) (by omega)
      refine ⟨m, (Nat.le_succ attempt).trans hm.ge, hm.lt, hm.le, ?_, hm.stopped, ?_, ?_⟩
      · intro i hge hi
        rcases hge.eq_or_lt with rfl | hgt
        · exact hfails
        · exact hm.failed i hgt hi
      · rw [attempts_next hfails (by omega) hlt, before_succ hm.ge, hm.events]
        rfl
      · rw [attempts_next hfails (by omega) hlt]
        exact hm.value
    · refine ⟨attempt, ended_of_stop (by omega) hle fun hfails => .inr ?_⟩
      have hlarge : ¬ attempt < 1024 := fun hlt => hgo ⟨hfails, hlt⟩
      omega

theorem EndedWith.eq_ok_iff {r : Except Raised JsonObject × List Event} {m : ℕ}
    {payload : JsonObject} (h : EndedWith lib client exchanges 0 r m) :
    r.1 = .ok payload ↔ fetchOnce lib client (exchanges m) = .ok payload := by
  rw [h.value]
  cases fetchOnce lib client (exchanges m) with
  | ok payload' => rfl
  | error e =>
    refine ⟨fun hok => ?_, fun hok => (by cases hok)⟩
    simp only [verdict] at hok
    split_ifs at hok

variable (lib client exchanges) in
/-- The exchange at the attempt `k` is the first that does not fail, and delivers the payload. -/
structure FirstDelivery (k : ℕ) (response : Response) (payload : JsonObject) : Prop where
  lt : k < client.maxAttempts
  le : k ≤ 1024
  failed : ∀ i < k, Fails lib client (exchanges i)
  exchange : exchanges k = .ok response
  delivers : Delivers lib client response payload

/-- The attempt that ends the run is the first that does not fail, if there is one to make. -/
theorem EndedWith.eq_of_first {r : Except Raised JsonObject × List Event} {m k : ℕ}
    (h : EndedWith lib client exchanges 0 r m) (hlt : k < client.maxAttempts) (hle : k ≤ 1024)
    (hfailed : ∀ i < k, Fails lib client (exchanges i))
    (hk : ¬ Fails lib client (exchanges k)) : m = k := by
  rcases lt_trichotomy m k with hmk | hmk | hmk
  · have hstopped := h.stopped (hfailed m hmk)
    omega
  · exact hmk
  · exact absurd (h.failed k k.zero_le hmk) hk

theorem fetch_ended (h : 0 < client.maxAttempts) :
    ∃ m, EndedWith lib client exchanges 0 (fetch lib client exchanges) m := by
  obtain ⟨n, hn⟩ : ∃ n, client.maxAttempts.toNat = n + 1 := ⟨client.maxAttempts.toNat - 1, by omega⟩
  unfold fetch
  rw [hn]
  exact attempts_ended (by omega) (by omega)

theorem fetch_eq_ok {payload : JsonObject} : (fetch lib client exchanges).1 = .ok payload ↔
    ∃ k response, FirstDelivery lib client exchanges k response payload := by
  rcases le_or_gt client.maxAttempts 0 with hnone | hsome
  · constructor
    · intro h
      unfold fetch at h
      rw [Int.toNat_of_nonpos hnone] at h
      cases h
    · rintro ⟨k, response, hfirst⟩
      have hlt := hfirst.lt
      omega
  · obtain ⟨m, hm⟩ : ∃ m, EndedWith lib client exchanges 0 (fetch lib client exchanges) m :=
      fetch_ended hsome
    rw [hm.eq_ok_iff, fetchOnce_eq_ok]
    constructor
    · rintro ⟨response, hexchange, hdelivers⟩
      exact ⟨m, response, hm.lt, hm.le, fun i hi => hm.failed i i.zero_le hi, hexchange, hdelivers⟩
    · rintro ⟨k, response, hlt, hle, hfailed, hexchange, hdelivers⟩
      have hk : fetchOnce lib client (exchanges k) = .ok payload :=
        fetchOnce_eq_ok.mpr ⟨response, hexchange, hdelivers⟩
      obtain rfl := hm.eq_of_first hlt hle hfailed (not_fails_of_ok hk)
      exact ⟨response, hexchange, hdelivers⟩

variable (lib client exchanges) in
/-- **What the client fetches** is what the first exchange delivers that does not fail; the requests
are made one after the other up to that one, and at most `max_attempts`. -/
theorem fetched_first :
    (∀ payload, (fetch lib client exchanges).1 = .ok payload ↔
      ∃ k response, FirstDelivery lib client exchanges k response payload) ∧
    (0 < client.maxAttempts →
      ∃ m, EndedWith lib client exchanges 0 (fetch lib client exchanges) m) :=
  ⟨fun _ => fetch_eq_ok, fetch_ended⟩

end EventServer.Providers.WorldStateClient
