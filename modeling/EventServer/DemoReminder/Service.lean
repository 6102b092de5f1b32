import EventServer.DemoReminder.Config
import EventServer.Lib.Except
import EventServer.Python.IsoFormat

/-! # From a request to a reminder

`schedule.py` and `service.py`: when the reminder is due is given as a delay, as a number of seconds
or as a point in time, and otherwise the default delay applies. `submit` checks that and the texts,
in the order of the source, and calls the publisher with the request. `Moment` says what the timing
of a request comes to, and `resolveTiming_eq_ok` that `_resolve_timing` computes it. -/

namespace EventServer.DemoReminder

open EventServer.Lib EventServer.Python

/-- What is raised. -/
inductive Raised where
  | reminderInputError (message : Str)
  | delayError (message : Str)
  | publishError (message : Str)
  | valueError
  | overflowError
  | typeError
  | recursionError
  | unicodeEncodeError
  /-- An exception of the transport other than `HTTPError` and `URLError`. -/
  | transportError

def inputError {α : Type} (message : String) : Except Raised α :=
  .error (.reminderInputError (.of message))

def delayError {α : Type} (message : String) : Except Raised α := .error (.delayError (.of message))

/-- A computed `datetime`. -/
def checked (t : Time) : Except Raised Time := if InRange t then .ok t else .error .overflowError

/-- `int(x)` of a float. -/
def intOfFloat (x : Number) : Except Raised ℤ :=
  match x.toInt with
  | .ok n => .ok n
  | .error .valueError => .error .valueError
  | .error .overflowError => .error .overflowError

/-- The arguments of `submit`. -/
structure Arguments where
  text : Value := .null
  title : Value := .null
  delay : Value := .null
  delaySeconds : Value := .null
  at_ : Value := .null
  dedupeKey : Value := .null

structure ReminderRequest where
  requestId : Str
  dedupeKey : Str
  title : Str
  text : Str
  delaySeconds : ℤ
  requestedAt : Time
  notifyAt : Time

/-! ### Delays -/

/-- `_UNIT_SECONDS`. -/
def unitSeconds : List (String × ℤ) :=
  [("s", 1), ("sec", 1), ("secs", 1), ("second", 1), ("seconds", 1), ("m", 60), ("min", 60),
    ("mins", 60), ("minute", 60), ("minutes", 60), ("h", 3600), ("hr", 3600), ("hrs", 3600),
    ("hour", 3600), ("hours", 3600)]

section Delays

variable [Stdlib]

/-- The value of a decimal digit. -/
def digit? : CodePoint → Option ℕ
  | .char c => if c.isDigit then some (c.toNat - 48) else (Stdlib.decimal c).map Fin.val
  | .surrogate _ => none

/-- `int` of a text of digits. -/
def digitsValue (s : Str) : ℤ := s.foldl (fun n c => n * 10 + ((digit? c).getD 0 : ℕ)) 0

/-- `_DELAY_PATTERN.fullmatch(s)`: the value and the unit. -/
def matchDelay (s : Str) : Option (ℤ × Str) :=
  let digits := s.takeWhile fun c => (digit? c).isSome
  let unit := (s.dropWhile fun c => (digit? c).isSome).dropWhile CodePoint.isSpace
  if 1 ≤ digits.length ∧ digits.length ≤ 7 ∧ unit.all CodePoint.isAlpha = true then
    some (digitsValue digits, unit)
  else none

/-- `unit.lower()` of ASCII letters. -/
def lowerUnit (unit : Str) : Str := unit.map fun
  | .char c => .char c.toLower
  | .surrogate n => .surrogate n

/-- The factor of a unit, or `none` if it is not known. -/
def factor? (unit : Str) : Option ℤ :=
  if unit = [] then some 60 else (lowerUnit unit).encode?.bind (unitSeconds.lookup ·)

/-- What is said of a delay that is neither a duration nor a number. -/
def notDuration {α : Type} : Except Raised α :=
  delayError "delay must be a duration like 5m, 10min, 90s or a number of minutes"

/-- The part of `parse_delay` before the bounds. -/
def delayValue : Value → Except Raised ℤ
  | .int n => .ok (n * 60)
  | .float x => intOfFloat (Stdlib.timesSixty x)
  | .str s =>
    match matchDelay s.strip with
    | none => delayError "delay must look like 5m, 10min, 90s or 1h"
    | some (value, unit) =>
      match factor? unit with
      | none => .error (.delayError (.of "unsupported delay unit: " ++ unit))
      | some factor => .ok (value * factor)
  | _ => notDuration

def parseDelay (value : Value) (maxSeconds : ℤ) : Except Raised ℤ := do
  let seconds ← delayValue value
  if seconds < 0 then delayError "delay must not be negative"
  else if maxSeconds < seconds then
    delayError ("delay must not exceed " ++ toString maxSeconds ++ " seconds")
  else .ok seconds

end Delays

/-! ### Timing -/

/-- `_parse_seconds`. -/
def parseSeconds (value : Value) : Except Raised ℤ :=
  match value with
  | .int n => if n < 0 then inputError "delay_seconds must not be negative" else .ok n
  | .float x =>
    if x.lt (.finite 0) then inputError "delay_seconds must not be negative" else intOfFloat x
  | _ => inputError "delay_seconds must be a number of seconds"

/-- `_parse_absolute`. -/
def parseAbsolute [Stdlib] (value : Value) : Except Raised Time :=
  match value with
  | .str s =>
    match Stdlib.datetimeFromIsoformat s with
    | none => inputError "at must be an ISO-8601 timestamp with an offset"
    | some (_, none) => inputError "at must include a timezone offset, for example +08:00"
    | some (wall, some offset) => checked (wall - offset)
  | _ => inputError "at must be an ISO-8601 timestamp with an offset"

/-- The names of the arguments for the timing that are given. -/
def provided (args : Arguments) : List String :=
  ([("delay", args.delay), ("delay_seconds", args.delaySeconds), ("at", args.at_)].filter
    fun p => ¬ p.2.isNull).map Prod.fst

/-- The seconds, unless a point in time is given. -/
def chooseSeconds [Stdlib] (settings : PublisherSettings) (args : Arguments) : Except Raised ℤ :=
  if args.delay.isNull ∧ args.delaySeconds.isNull then .ok settings.defaultDelaySeconds
  else if args.delaySeconds.isNull = false then parseSeconds args.delaySeconds
  else parseDelay args.delay settings.maxDelaySeconds

/-- The part of `_resolve_timing` before the bound. The seconds up to a point in time are counted
down; a float is exact as far as the bound lets them go. -/
def chooseTiming [Stdlib] (settings : PublisherSettings) (requestedAt : Time) (args : Arguments) :
    Except Raised (Time × ℤ) :=
  if args.at_.isNull = false then do
    let notifyAt ← parseAbsolute args.at_
    .ok (notifyAt, max 0 ((notifyAt - requestedAt) / seconds 1))
  else do
    let s ← chooseSeconds settings args
    let notifyAt ← checked (requestedAt + seconds s)
    .ok (notifyAt, s)

/-- `_resolve_timing`. -/
def resolveTiming [Stdlib] (settings : PublisherSettings) (requestedAt : Time) (args : Arguments) :
    Except Raised (Time × ℤ) :=
  if 1 < (provided args).length then
    inputError ("provide only one of " ++ ", ".intercalate (provided args) ++
      ": they describe the same moment")
  else do
    let timing ← chooseTiming settings requestedAt args
    if settings.maxDelaySeconds < timing.2 then
      inputError ("reminder must not be scheduled more than " ++
        toString settings.maxDelaySeconds ++ " seconds ahead")
    else .ok timing

/-! ### Texts -/

/-- `DEFAULT_TITLE`. -/
def defaultTitle : Str := .of "演示提醒"

/-- `_clean_text`. -/
def cleanText : Value → Except Raised Str
  | .str value =>
    if value.strip = [] then inputError "text must not be empty"
    else if 500 < value.strip.length then inputError "text must not exceed 500 characters"
    else .ok value.strip
  | _ => inputError "text must be a string"

/-- `_clean_title`. -/
def cleanTitle : Value → Except Raised Str
  | .null => .ok defaultTitle
  | .str value =>
    if value.strip = [] then .ok defaultTitle
    else if 100 < value.strip.length then inputError "title must not exceed 100 characters"
    else .ok value.strip
  | _ => inputError "title must be a string"

/-- A character of `DEDUPE_PATTERN`. -/
def isKeyChar : CodePoint → Bool
  | .char c => c.isAlphanum || c = '_' || c = '.' || c = ':' || c = '-'
  | .surrogate _ => false

/-- `_clean_dedupe_key`. -/
def cleanDedupeKey (value : Value) : Except Raised Str :=
  let refused := inputError "dedupe_key must be 1-128 characters of [A-Za-z0-9_.:-]"
  match value with
  | .str s => if 1 ≤ s.length ∧ s.length ≤ 128 ∧ s.all isKeyChar = true then .ok s else refused
  | _ => refused

/-! ### Submission -/

/-- `uuid4().hex`. -/
structure Uuid where
  hex : List Char
  length_hex : hex.length = 32

/-- The key, which is new unless one is given. -/
def chooseKey (uuid : Uuid) (dedupeKey : Value) : Except Raised Str :=
  if dedupeKey.isTrue then cleanDedupeKey dedupeKey else .ok (uuid.hex.map .char)

/-- The part of `submit` before the publisher is called. -/
def prepare [Stdlib] (settings : PublisherSettings) (requestedAt : Time) (uuid : Uuid)
    (args : Arguments) : Except Raised ReminderRequest := do
  let (notifyAt, delaySeconds) ← resolveTiming settings requestedAt args
  let key ← chooseKey uuid args.dedupeKey
  let title ← cleanTitle args.title
  let text ← cleanText args.text
  .ok
    { requestId := key
      dedupeKey := key
      title
      text
      delaySeconds
      requestedAt
      notifyAt }

/-! ### When a reminder is due -/

/-- What `delay_seconds` stands for. -/
inductive SecondsOf : Value → ℤ → Prop
  | int (n : ℤ) (h : 0 ≤ n) : SecondsOf (.int n) n
  | float (q : ℚ) (h : ¬ q < 0) : SecondsOf (.float (.finite q)) (q.num.tdiv q.den)
  | negZero : SecondsOf (.float .negZero) 0

variable [Stdlib]

/-- What `delay` stands for, in seconds. -/
inductive DelayOf : Value → ℤ → Prop
  | minutes (n : ℤ) : DelayOf (.int n) (n * 60)
  | float (x : Number) (q : ℚ) (h : Stdlib.timesSixty x = .finite q) :
    DelayOf (.float x) (q.num.tdiv q.den)
  | negZero (x : Number) (h : Stdlib.timesSixty x = .negZero) : DelayOf (.float x) 0
  | text (s unit : Str) (value factor : ℤ) (hm : matchDelay s.strip = some (value, unit))
    (hf : factor? unit = some factor) : DelayOf (.str s) (value * factor)

/-- The seconds that are asked for, if no point in time is. -/
inductive Asks (settings : PublisherSettings) (args : Arguments) (n : ℤ) : Prop
  | byDefault (hd : args.delay = .null) (hs : args.delaySeconds = .null)
    (hn : n = settings.defaultDelaySeconds)
  | byDelay (hd : DelayOf args.delay n) (hlo : 0 ≤ n) (hhi : n ≤ settings.maxDelaySeconds)
    (hs : args.delaySeconds = .null)
  | bySeconds (hs : SecondsOf args.delaySeconds n) (hd : args.delay = .null)

/-- The point in time that is asked for, and the seconds until then. -/
inductive Moment (settings : PublisherSettings) (now : Time) (args : Arguments) (t : Time) (n : ℤ) :
    Prop
  | after (ha : args.at_ = .null) (h : Asks settings args n) (ht : t = now + seconds n)
  | absolute (s : Str) (wall offset : ℤ) (ha : args.at_ = .str s)
    (hread : Stdlib.datetimeFromIsoformat s = some (wall, some offset)) (hd : args.delay = .null)
    (hs : args.delaySeconds = .null) (ht : t = wall - offset)
    (hn : n = max 0 ((t - now) / seconds 1))

omit [Stdlib] in
theorem checked_eq_ok {t u : Time} : checked t = .ok u ↔ InRange t ∧ u = t := by
  unfold checked
  split_ifs with h
  · simp [h, eq_comm]
  · simp [h]

omit [Stdlib] in
theorem intOfFloat_eq_ok {x : Number} {n : ℤ} : intOfFloat x = .ok n ↔
    (∃ q, x = .finite q ∧ n = q.num.tdiv q.den) ∨ x = .negZero ∧ n = 0 := by
  cases x <;> simp [intOfFloat, Number.toInt, eq_comm]

omit [Stdlib] in
theorem parseSeconds_eq_ok {value : Value} {n : ℤ} :
    parseSeconds value = .ok n ↔ SecondsOf value n := by
  constructor
  · intro h
    cases value with
    | int m =>
      unfold parseSeconds at h
      simp only at h
      split_ifs at h with hneg
      · cases h
      · cases h
        exact .int n (not_lt.mp hneg)
    | float x =>
      unfold parseSeconds at h
      simp only at h
      split_ifs at h with hneg
      · cases h
      · obtain ⟨q, rfl, rfl⟩ | ⟨rfl, rfl⟩ := intOfFloat_eq_ok.mp h
        · exact .float q (by simpa [Number.lt] using hneg)
        · exact .negZero
    | null | bool _ | str _ | arr _ | obj _ => cases h
  · intro h
    cases h with
    | int n hn => exact if_neg (not_lt.mpr hn)
    | float q hq =>
      have hlt : (Number.finite q).lt (.finite 0) = false := by simpa [Number.lt] using hq
      simp [parseSeconds, hlt, intOfFloat, Number.toInt]
    | negZero => rfl

theorem delayValue_eq_ok {value : Value} {n : ℤ} : delayValue value = .ok n ↔ DelayOf value n := by
  constructor
  · intro h
    cases value with
    | int m =>
      cases h
      exact .minutes m
    | float x =>
      obtain ⟨q, hx, rfl⟩ | ⟨hx, rfl⟩ := intOfFloat_eq_ok.mp h
      · exact .float x q hx
      · exact .negZero x hx
    | str s =>
      unfold delayValue at h
      simp only at h
      cases hm : matchDelay s.strip with
      | none =>
        rw [hm] at h
        cases h
      | some m =>
        obtain ⟨v, unit⟩ := m
        simp only [hm] at h
        cases hf : factor? unit with
        | none =>
          rw [hf] at h
          cases h
        | some factor =>
          rw [hf] at h
          cases h
          exact .text s unit v factor hm hf
    | null | bool _ | arr _ | obj _ => cases h
  · intro h
    cases h with
    | minutes n => rfl
    | float x q hx => exact intOfFloat_eq_ok.mpr (Or.inl ⟨q, hx, rfl⟩)
    | negZero x hx => exact intOfFloat_eq_ok.mpr (Or.inr ⟨hx, rfl⟩)
    | text s unit v factor hm hf =>
      unfold delayValue
      simp only [hm, hf]

theorem parseDelay_eq_ok {value : Value} {maxSeconds n : ℤ} :
    parseDelay value maxSeconds = .ok n ↔ DelayOf value n ∧ 0 ≤ n ∧ n ≤ maxSeconds := by
  unfold parseDelay
  rw [bind_eq_ok]
  constructor
  · rintro ⟨m, hm, h⟩
    split_ifs at h with hneg hmax
    · cases h
    · cases h
    · cases h
      exact ⟨delayValue_eq_ok.mp hm, not_lt.mp hneg, not_lt.mp hmax⟩
  · rintro ⟨hd, hlo, hhi⟩
    refine ⟨n, delayValue_eq_ok.mpr hd, ?_⟩
    rw [if_neg (not_lt.mpr hlo), if_neg (not_lt.mpr hhi)]

theorem parseAbsolute_eq_ok {value : Value} {t : Time} : parseAbsolute value = .ok t ↔
    ∃ s wall offset, value = .str s ∧
      Stdlib.datetimeFromIsoformat s = some (wall, some offset) ∧ InRange t ∧
        t = wall - offset := by
  constructor
  · intro h
    cases value with
    | str s =>
      unfold parseAbsolute at h
      simp only at h
      split at h
      · cases h
      · cases h
      · rename_i wall offset hread
        obtain ⟨hin, rfl⟩ := checked_eq_ok.mp h
        exact ⟨s, wall, offset, rfl, hread, hin, rfl⟩
    | null | bool _ | int _ | float _ | arr _ | obj _ => cases h
  · rintro ⟨s, wall, offset, rfl, hread, hin, rfl⟩
    unfold parseAbsolute
    simp only [hread]
    exact checked_eq_ok.mpr ⟨hin, rfl⟩

omit [Stdlib] in
theorem isNull_iff {value : Value} : value.isNull = true ↔ value = .null := by
  cases value <;> simp [Value.isNull]

omit [Stdlib] in
theorem provided_le {args : Arguments} : ¬ 1 < (provided args).length ↔
    (args.delay = .null ∧ args.delaySeconds = .null) ∨ (args.delay = .null ∧ args.at_ = .null) ∨
      args.delaySeconds = .null ∧ args.at_ = .null := by
  rw [← isNull_iff, ← isNull_iff, ← isNull_iff]
  unfold provided
  cases hd : args.delay.isNull <;> cases hs : args.delaySeconds.isNull <;>
    cases ha : args.at_.isNull <;> simp [hd, hs, ha]

variable {settings : PublisherSettings} {now : Time} {args : Arguments}

theorem chooseSeconds_eq_ok (hone : args.delay = .null ∨ args.delaySeconds = .null) {n : ℤ} :
    chooseSeconds settings args = .ok n ↔ Asks settings args n := by
  have hnull : ∀ value : Value, value ≠ .null → value.isNull = false := by
    intro value h
    rw [Bool.eq_false_iff, ne_eq, isNull_iff]
    exact h
  unfold chooseSeconds
  by_cases hs : args.delaySeconds = .null
  · by_cases hd : args.delay = .null
    · rw [if_pos ⟨isNull_iff.mpr hd, isNull_iff.mpr hs⟩, Except.ok.injEq]
      constructor
      · rintro rfl
        exact .byDefault hd hs rfl
      · rintro (⟨-, -, rfl⟩ | ⟨h, -, -, -⟩ | ⟨h, -⟩)
        · rfl
        · rw [hd] at h
          cases h
        · rw [hs] at h
          cases h
    · rw [if_neg (by simp [hnull _ hd]), if_neg (by simp [hs, Value.isNull]), parseDelay_eq_ok]
      constructor
      · rintro ⟨h, hlo, hhi⟩
        exact .byDelay h hlo hhi hs
      · rintro (⟨h, -, -⟩ | ⟨h, hlo, hhi, -⟩ | ⟨-, h⟩)
        · exact absurd h hd
        · exact ⟨h, hlo, hhi⟩
        · exact absurd h hd
  · have hd : args.delay = .null := hone.resolve_right hs
    rw [if_neg (by simp [hnull _ hs]), if_pos (hnull _ hs), parseSeconds_eq_ok]
    constructor
    · exact fun h => .bySeconds h hd
    · rintro (⟨-, h, -⟩ | ⟨-, -, -, h⟩ | ⟨h, -⟩)
      · exact absurd h hs
      · exact absurd h hs
      · exact h

/-- What is chosen for the timing, if at most one of three is given. -/
theorem chooseTiming_eq_ok (hone : ¬ 1 < (provided args).length) {t : Time} {n : ℤ} :
    chooseTiming settings now args = .ok (t, n) ↔ Moment settings now args t n ∧ InRange t := by
  rw [provided_le] at hone
  unfold chooseTiming
  by_cases ha : args.at_ = .null
  · have hone' : args.delay = .null ∨ args.delaySeconds = .null := by
      rcases hone with ⟨hd, -⟩ | ⟨hd, -⟩ | ⟨hs, -⟩
      · exact Or.inl hd
      · exact Or.inl hd
      · exact Or.inr hs
    rw [if_neg (by rw [ha]; decide)]
    simp only [bind_eq_ok, checked_eq_ok, Except.ok.injEq, Prod.mk.injEq]
    constructor
    · rintro ⟨m, hm, _, ⟨hin, rfl⟩, rfl, rfl⟩
      exact ⟨.after ha ((chooseSeconds_eq_ok hone').mp hm) rfl, hin⟩
    · rintro ⟨⟨-, h, rfl⟩ | ⟨s, _, _, ha', -, -, -, -⟩, hin⟩
      · exact ⟨n, (chooseSeconds_eq_ok hone').mpr h, _, ⟨hin, rfl⟩, rfl, rfl⟩
      · rw [ha] at ha'
        cases ha'
  · have hboth : args.delay = .null ∧ args.delaySeconds = .null := by
      rcases hone with h | ⟨-, h⟩ | ⟨-, h⟩
      · exact h
      · exact absurd h ha
      · exact absurd h ha
    have hnull : args.at_.isNull = false := by
      rw [Bool.eq_false_iff, ne_eq, isNull_iff]
      exact ha
    rw [if_pos hnull]
    simp only [bind_eq_ok, parseAbsolute_eq_ok, Except.ok.injEq, Prod.mk.injEq]
    constructor
    · rintro ⟨_, ⟨s, wall, offset, hat, hread, hin, rfl⟩, rfl, rfl⟩
      exact ⟨.absolute s wall offset hat hread hboth.1 hboth.2 rfl rfl, hin⟩
    · rintro ⟨⟨h, -, -⟩ | ⟨s, wall, offset, hat, hread, -, -, rfl, rfl⟩, hin⟩
      · exact absurd h ha
      · exact ⟨_, ⟨s, wall, offset, hat, hread, hin, rfl⟩, rfl, rfl⟩

theorem Moment.provided_le {t : Time} {n : ℤ} (h : Moment settings now args t n) :
    ¬ 1 < (provided args).length := by
  rw [DemoReminder.provided_le]
  cases h with
  | after ha h =>
    cases h with
    | byDefault hd hs => exact Or.inl ⟨hd, hs⟩
    | byDelay _ _ _ hs => exact Or.inr (Or.inr ⟨hs, ha⟩)
    | bySeconds _ hd => exact Or.inr (Or.inl ⟨hd, ha⟩)
  | absolute _ _ _ _ _ hd hs => exact Or.inl ⟨hd, hs⟩

/-- **The timing of a request** is the moment that is asked for, if it lies in the years 1 to 9999
and not too far ahead. -/
theorem resolveTiming_eq_ok {t : Time} {n : ℤ} : resolveTiming settings now args = .ok (t, n) ↔
    Moment settings now args t n ∧ InRange t ∧ n ≤ settings.maxDelaySeconds := by
  unfold resolveTiming
  by_cases hmany : 1 < (provided args).length
  · rw [if_pos hmany]
    refine iff_of_false (fun h => by cases h) ?_
    rintro ⟨hmoment, -⟩
    exact hmoment.provided_le hmany
  · rw [if_neg hmany, bind_eq_ok]
    constructor
    · rintro ⟨⟨t', n'⟩, h, hmax⟩
      split_ifs at hmax with hlt
      · cases hmax
      · cases hmax
        obtain ⟨hmoment, hin⟩ := (chooseTiming_eq_ok hmany).mp h
        exact ⟨hmoment, hin, not_lt.mp hlt⟩
    · rintro ⟨hmoment, hin, hmax⟩
      exact ⟨(t, n), (chooseTiming_eq_ok hmany).mpr ⟨hmoment, hin⟩, if_neg (not_lt.mpr hmax)⟩

theorem Moment.unique {t t' : Time} {n n' : ℤ} (h : Moment settings now args t n)
    (h' : Moment settings now args t' n') : t = t' ∧ n = n' := by
  have hone : args.at_ = .null → args.delay = .null ∨ args.delaySeconds = .null := by
    intro ha
    rcases DemoReminder.provided_le.mp h.provided_le with ⟨hd, -⟩ | ⟨hd, -⟩ | ⟨hs, -⟩
    · exact Or.inl hd
    · exact Or.inl hd
    · exact Or.inr hs
  rcases h with ⟨ha, hn, rfl⟩ | ⟨s, wall, offset, ha, hread, -, -, rfl, rfl⟩ <;>
    rcases h' with ⟨ha', hn', rfl⟩ | ⟨s', wall', offset', ha', hread', -, -, rfl, rfl⟩
  · have hok := (chooseSeconds_eq_ok (hone ha)).mpr hn
    rw [(chooseSeconds_eq_ok (hone ha)).mpr hn'] at hok
    cases hok
    exact ⟨rfl, rfl⟩
  · rw [ha] at ha'
    cases ha'
  · rw [ha'] at ha
    cases ha
  · rw [ha] at ha'
    cases ha'
    rw [hread] at hread'
    cases hread'
    exact ⟨rfl, rfl⟩

omit [Stdlib] in
theorem SecondsOf.nonneg {value : Value} {n : ℤ} (h : SecondsOf value n) : 0 ≤ n := by
  cases h with
  | int _ hn => exact hn
  | float q hq =>
    have hnum : 0 ≤ q.num := Rat.num_nonneg.mpr (Rat.not_lt.mp hq)
    exact Int.tdiv_nonneg hnum (Int.natCast_nonneg _)
  | negZero => exact le_refl 0

theorem Moment.nonneg {t : Time} {n : ℤ} (h : Moment settings now args t n) : 0 ≤ n := by
  rcases h with ⟨-, hn, -⟩ | ⟨_, _, _, -, -, -, -, -, rfl⟩
  · cases hn with
    | byDefault _ _ hn =>
      rw [hn]
      exact settings.default_nonneg
    | byDelay _ hlo => exact hlo
    | bySeconds hs => exact hs.nonneg
  · exact le_max_left _ _

/-! ### What is accepted -/

omit [Stdlib] in
theorem cleanText_ok {value : Value} {text : Str} (h : cleanText value = .ok text) :
    ∃ s, value = .str s ∧ text = s.strip ∧ 1 ≤ text.length ∧ text.length ≤ 500 := by
  cases value with
  | str s =>
    unfold cleanText at h
    simp only at h
    split_ifs at h with hempty hlong
    · cases h
    · cases h
    · cases h
      exact ⟨s, rfl, rfl, List.length_pos_iff.mpr hempty, not_lt.mp hlong⟩
  | null | bool _ | int _ | float _ | arr _ | obj _ => cases h

omit [Stdlib] in
theorem cleanTitle_ok {value : Value} {title : Str} (h : cleanTitle value = .ok title) :
    (title = defaultTitle ∧ ∀ s, value = .str s → s.strip = []) ∨
      ∃ s, value = .str s ∧ title = s.strip ∧ 1 ≤ title.length ∧ title.length ≤ 100 := by
  cases value with
  | null =>
    cases h
    exact Or.inl ⟨rfl, fun s h => by cases h⟩
  | str s =>
    unfold cleanTitle at h
    simp only at h
    split_ifs at h with hempty hlong
    · cases h
      refine Or.inl ⟨rfl, fun s' hs => ?_⟩
      cases hs
      exact hempty
    · cases h
    · cases h
      exact Or.inr ⟨s, rfl, rfl, List.length_pos_iff.mpr hempty, not_lt.mp hlong⟩
  | bool _ | int _ | float _ | arr _ | obj _ => cases h

omit [Stdlib] in
theorem chooseKey_ok {uuid : Uuid} {value : Value} {key : Str}
    (h : chooseKey uuid value = .ok key) :
    1 ≤ key.length ∧ key.length ≤ 128 ∧ key.Encodable := by
  unfold chooseKey at h
  split_ifs at h
  · cases value with
    | str s =>
      unfold cleanDedupeKey at h
      simp only at h
      split_ifs at h with hkey
      · cases h
        exact ⟨hkey.1, hkey.2.1, Str.encodable_of_all hkey.2.2 fun _ => rfl⟩
      · cases h
    | null | bool _ | int _ | float _ | arr _ | obj _ => cases h
  · cases h
    have hlen := uuid.length_hex
    refine ⟨by simp [hlen], by simp [hlen], Str.encodable_iff.mpr fun c hc => ?_⟩
    obtain ⟨ch, -, rfl⟩ := List.mem_map.mp hc
    exact ⟨ch, rfl⟩

/-- The request that the arguments make. -/
structure Accepted (settings : PublisherSettings) (now : Time) (uuid : Uuid) (args : Arguments)
    (request : ReminderRequest) : Prop where
  moment : Moment settings now args request.notifyAt request.delaySeconds
  range : InRange request.notifyAt
  within : request.delaySeconds ≤ settings.maxDelaySeconds
  key : chooseKey uuid args.dedupeKey = .ok request.requestId
  dedupeKey : request.dedupeKey = request.requestId
  title : cleanTitle args.title = .ok request.title
  text : cleanText args.text = .ok request.text
  requestedAt : request.requestedAt = now

/-- **The publisher is called** with the request that the arguments make. -/
theorem prepare_eq_ok {uuid : Uuid} {request : ReminderRequest} :
    prepare settings now uuid args = .ok request ↔ Accepted settings now uuid args request := by
  unfold prepare
  simp only [bind_eq_ok, Prod.exists, Except.ok.injEq]
  constructor
  · rintro ⟨t, n, htiming, key, hkey, title, htitle, text, htext, rfl⟩
    obtain ⟨hmoment, hin, hmax⟩ := resolveTiming_eq_ok.mp htiming
    exact ⟨hmoment, hin, hmax, hkey, rfl, htitle, htext, rfl⟩
  · intro h
    refine ⟨_, _, resolveTiming_eq_ok.mpr ⟨h.moment, h.range, h.within⟩, _, h.key, _,
      h.title, _, h.text, ?_⟩
    obtain ⟨requestId, dedupeKey, title, text, delaySeconds, requestedAt, notifyAt⟩ := request
    have hkey : dedupeKey = requestId := h.dedupeKey
    have hnow : requestedAt = now := h.requestedAt
    rw [hkey, hnow]

/-! ### Exceptions that are no refusals -/

omit [Stdlib] in
/-- `ReminderInputError` and `DelayError`, which are answered with 400. -/
def Raised.isRefusal : Raised → Bool
  | .reminderInputError _ | .delayError _ => true
  | _ => false

section Escapes

omit [Stdlib]

variable {α β : Type} {x : Except Raised α}

/-- Something is raised that is no refusal. -/
def Escapes (x : Except Raised α) : Prop := ∃ e, x = .error e ∧ e.isRefusal = false

@[simp] theorem not_escapes_ok (a : α) : ¬ Escapes (.ok a : Except Raised α) := by
  rintro ⟨e, h, -⟩
  cases h

@[simp] theorem not_escapes_inputError (message : String) :
    ¬ Escapes (inputError message : Except Raised α) := by
  rintro ⟨e, h, hr⟩
  cases h
  cases hr

@[simp] theorem not_escapes_delayError (message : String) :
    ¬ Escapes (delayError message : Except Raised α) := by
  rintro ⟨e, h, hr⟩
  cases h
  cases hr

theorem escapes_bind {f : α → Except Raised β} :
    Escapes (x >>= f) ↔ Escapes x ∨ ∃ a, x = .ok a ∧ Escapes (f a) := by
  unfold Escapes
  constructor
  · rintro ⟨e, h, hr⟩
    rcases bind_eq_error.mp h with h | ⟨a, ha, h⟩
    · exact Or.inl ⟨e, h, hr⟩
    · exact Or.inr ⟨a, ha, e, h, hr⟩
  · rintro (⟨e, h, hr⟩ | ⟨a, ha, e, h, hr⟩)
    · exact ⟨e, bind_eq_error.mpr (Or.inl h), hr⟩
    · exact ⟨e, bind_eq_error.mpr (Or.inr ⟨a, ha, h⟩), hr⟩

theorem escapes_bind_left {f : α → Except Raised β} (hf : ∀ a, ¬ Escapes (f a)) :
    Escapes (x >>= f) ↔ Escapes x := by
  rw [escapes_bind]
  refine or_iff_left ?_
  rintro ⟨a, -, h⟩
  exact hf a h

theorem escapes_checked {t : Time} : Escapes (checked t) ↔ ¬ InRange t := by
  unfold checked
  split_ifs with h
  · exact iff_of_false (not_escapes_ok t) (not_not_intro h)
  · exact iff_of_true ⟨_, rfl, rfl⟩ h

theorem escapes_intOfFloat {x : Number} : Escapes (intOfFloat x) ↔ x.isFinite = false := by
  cases x with
  | finite _ | negZero => exact iff_of_false (not_escapes_ok _) Bool.noConfusion
  | inf | negInf | nan => exact iff_of_true ⟨_, rfl, rfl⟩ rfl

theorem escapes_parseSeconds {value : Value} : Escapes (parseSeconds value) ↔
    ∃ x, value = .float x ∧ x.lt (.finite 0) = false ∧ x.isFinite = false := by
  cases value with
  | int n =>
    refine iff_of_false ?_ (by rintro ⟨x, h, -⟩; cases h)
    unfold parseSeconds
    simp only
    split_ifs
    · exact not_escapes_inputError _
    · exact not_escapes_ok _
  | float x =>
    simp only [Value.float.injEq, exists_eq_left']
    unfold parseSeconds
    simp only
    split_ifs with hneg
    · exact iff_of_false (not_escapes_inputError _) (by simp [hneg])
    · rw [escapes_intOfFloat]
      simp [hneg]
  | null | bool _ | str _ | arr _ | obj _ =>
    exact iff_of_false (not_escapes_inputError _) (by rintro ⟨x, h, -⟩; cases h)

end Escapes

theorem escapes_parseDelay {value : Value}
    {maxSeconds : ℤ} : Escapes (parseDelay value maxSeconds) ↔
    ∃ x, value = .float x ∧ (Stdlib.timesSixty x).isFinite = false := by
  have hbounds : ∀ n : ℤ, ¬ Escapes (if n < 0 then delayError "delay must not be negative"
      else if maxSeconds < n then delayError ("delay must not exceed " ++
        toString maxSeconds ++ " seconds")
      else (.ok n : Except Raised ℤ)) := by
    intro n
    split_ifs <;> simp
  unfold parseDelay
  rw [escapes_bind_left hbounds]
  cases value with
  | float x =>
    simp only [Value.float.injEq, exists_eq_left']
    exact escapes_intOfFloat
  | str s =>
    refine iff_of_false ?_ (by rintro ⟨x, h, -⟩; cases h)
    unfold delayValue
    simp only
    split
    · exact not_escapes_delayError _
    · split
      · rintro ⟨e, h, hr⟩
        cases h
        cases hr
      · exact not_escapes_ok _
  | int n => exact iff_of_false (not_escapes_ok _) (by rintro ⟨x, h, -⟩; cases h)
  | null | bool _ | arr _ | obj _ =>
    exact iff_of_false (not_escapes_delayError _) (by rintro ⟨x, h, -⟩; cases h)

theorem escapes_parseAbsolute {value : Value} : Escapes (parseAbsolute value) ↔
    ∃ s wall offset, value = .str s ∧
      Stdlib.datetimeFromIsoformat s = some (wall, some offset) ∧ ¬ InRange (wall - offset) := by
  cases value with
  | str s =>
    simp only [Value.str.injEq]
    unfold parseAbsolute
    simp only
    split
    · rename_i hread
      exact iff_of_false (not_escapes_inputError _) (by
        rintro ⟨_, _, _, rfl, h, -⟩
        rw [hread] at h
        cases h)
    · rename_i hread
      exact iff_of_false (not_escapes_inputError _) (by
        rintro ⟨_, _, _, rfl, h, -⟩
        rw [hread] at h
        cases h)
    · rename_i wall offset hread
      rw [escapes_checked]
      constructor
      · intro h
        exact ⟨s, wall, offset, rfl, hread, h⟩
      · rintro ⟨_, _, _, rfl, h, hout⟩
        rw [hread] at h
        cases h
        exact hout
  | null | bool _ | int _ | float _ | arr _ | obj _ =>
    exact iff_of_false (not_escapes_inputError _) (by rintro ⟨_, _, _, h, -⟩; cases h)

/-- The numbers and points in time that the timing of a request comes to exist. -/
structure Computable (settings : PublisherSettings) (now : Time) (args : Arguments) : Prop where
  delay : args.at_ = .null → args.delaySeconds = .null → ∀ x, args.delay = .float x →
    (Stdlib.timesSixty x).isFinite = true
  delaySeconds : args.at_ = .null → args.delay = .null → ∀ x, args.delaySeconds = .float x →
    x.lt (.finite 0) = false → x.isFinite = true
  moment : ∀ t n, Moment settings now args t n → InRange t

omit [Stdlib] in
theorem isNull_eq_false {value : Value} (h : value ≠ .null) : value.isNull = false := by
  rw [Bool.eq_false_iff, ne_eq, isNull_iff]
  exact h

theorem escapes_chooseSeconds (hone : args.delay = .null ∨ args.delaySeconds = .null) :
    Escapes (chooseSeconds settings args) ↔
      (args.delaySeconds = .null ∧ ∃ x, args.delay = .float x ∧
        (Stdlib.timesSixty x).isFinite = false) ∨
      (args.delay = .null ∧ ∃ x, args.delaySeconds = .float x ∧ x.lt (.finite 0) = false ∧
        x.isFinite = false) := by
  unfold chooseSeconds
  by_cases hs : args.delaySeconds = .null
  · by_cases hd : args.delay = .null
    · rw [if_pos ⟨isNull_iff.mpr hd, isNull_iff.mpr hs⟩]
      simp [hs, hd]
    · rw [if_neg (by simp [isNull_eq_false hd]), if_neg (by simp [hs, Value.isNull]),
        escapes_parseDelay]
      simp [hs, hd]
  · have hd : args.delay = .null := hone.resolve_right hs
    rw [if_neg (by simp [isNull_eq_false hs]), if_pos (isNull_eq_false hs), escapes_parseSeconds]
    simp [hs, hd]

/-- A number of seconds that cannot be computed, or a point in time out of range. -/
theorem escapes_chooseTiming_of_null (ha : args.at_ = .null)
    (hone : args.delay = .null ∨ args.delaySeconds = .null) :
    Escapes (chooseTiming settings now args) ↔ ¬ Computable settings now args := by
  have hmoment : ∀ t n, Moment settings now args t n ↔ Asks settings args n ∧
      t = now + seconds n := by
    intro t n
    constructor
    · rintro (⟨-, h, ht⟩ | ⟨_, _, _, ha', -, -, -, -⟩)
      · exact ⟨h, ht⟩
      · rw [ha] at ha'
        cases ha'
    · rintro ⟨h, ht⟩
      exact .after ha h ht
  have hcomputable : Computable settings now args ↔ ¬ Escapes (chooseSeconds settings args) ∧
      ∀ n, Asks settings args n → InRange (now + seconds n) := by
    rw [escapes_chooseSeconds hone]
    constructor
    · intro h
      refine ⟨?_, fun n hn => h.moment _ n ((hmoment _ n).mpr ⟨hn, rfl⟩)⟩
      rintro (⟨hs, x, hx, hinf⟩ | ⟨hd, x, hx, hneg, hinf⟩)
      · rw [h.delay ha hs x hx] at hinf
        cases hinf
      · rw [h.delaySeconds ha hd x hx hneg] at hinf
        cases hinf
    · rintro ⟨hnone, hall⟩
      refine ⟨fun _ hs x hx => ?_, fun _ hd x hx hneg => ?_, fun t n h => ?_⟩
      · by_contra hinf
        exact hnone (Or.inl ⟨hs, x, hx, by simpa using hinf⟩)
      · by_contra hinf
        exact hnone (Or.inr ⟨hd, x, hx, hneg, by simpa using hinf⟩)
      · obtain ⟨hn, rfl⟩ := (hmoment t n).mp h
        exact hall n hn
  unfold chooseTiming
  rw [hcomputable, if_neg (by rw [ha]; decide), escapes_bind, not_and_or, not_not, not_forall]
  refine or_congr_right (exists_congr fun n => ?_)
  rw [escapes_bind_left fun _ => not_escapes_ok _, escapes_checked, chooseSeconds_eq_ok hone,
    Classical.not_imp]

theorem escapes_chooseTiming_of_ne (ha : args.at_ ≠ .null) (hd : args.delay = .null)
    (hs : args.delaySeconds = .null) :
    Escapes (chooseTiming settings now args) ↔ ¬ Computable settings now args := by
  have hcomputable : Computable settings now args ↔ ∀ s wall offset, args.at_ = .str s →
      Stdlib.datetimeFromIsoformat s = some (wall, some offset) → InRange (wall - offset) := by
    constructor
    · intro h s wall offset hat hread
      exact h.moment _ _ (.absolute s wall offset hat hread hd hs rfl rfl)
    · intro h
      refine ⟨fun h' => absurd h' ha, fun h' => absurd h' ha, ?_⟩
      rintro t n (⟨h', -, -⟩ | ⟨s, wall, offset, hat, hread, -, -, rfl, -⟩)
      · exact absurd h' ha
      · exact h s wall offset hat hread
  unfold chooseTiming
  rw [hcomputable, if_pos (isNull_eq_false ha), escapes_bind_left fun _ => not_escapes_ok _,
    escapes_parseAbsolute]
  simp only [not_forall, exists_prop]

/-- **The timing escapes the handler** exactly if it cannot be computed. -/
theorem escapes_resolveTiming :
    Escapes (resolveTiming settings now args) ↔ ¬ Computable settings now args := by
  unfold resolveTiming
  by_cases hmany : 1 < (provided args).length
  · rw [if_pos hmany]
    refine iff_of_false (not_escapes_inputError _) (not_not_intro ⟨?_, ?_, ?_⟩)
    · intro ha hs
      exact absurd hmany (provided_le.mpr (Or.inr (Or.inr ⟨hs, ha⟩)))
    · intro ha hd
      exact absurd hmany (provided_le.mpr (Or.inr (Or.inl ⟨hd, ha⟩)))
    · intro t n h
      exact absurd hmany h.provided_le
  · have hbound : ∀ timing : Time × ℤ, ¬ Escapes (if settings.maxDelaySeconds < timing.2 then
        inputError ("reminder must not be scheduled more than " ++
          toString settings.maxDelaySeconds ++ " seconds ahead") else (.ok timing :
          Except Raised (Time × ℤ))) := by
      intro timing
      split_ifs <;> simp
    rw [if_neg hmany, escapes_bind_left hbound]
    rw [provided_le] at hmany
    by_cases ha : args.at_ = .null
    · refine escapes_chooseTiming_of_null ha ?_
      rcases hmany with ⟨hd, -⟩ | ⟨hd, -⟩ | ⟨hs, -⟩
      · exact Or.inl hd
      · exact Or.inl hd
      · exact Or.inr hs
    · obtain ⟨hd, hs⟩ : args.delay = .null ∧ args.delaySeconds = .null := by
        rcases hmany with h | ⟨-, h⟩ | ⟨-, h⟩
        · exact h
        · exact absurd h ha
        · exact absurd h ha
      exact escapes_chooseTiming_of_ne ha hd hs

end EventServer.DemoReminder
