import EventServer.Lib.Except
import EventServer.Python.IsoFormat
import EventServer.Python.Str

/-! # The configuration of the scheduled reminders

`scheduled_reminder/config.py`: reminders are weekly, at times of the day on some weekdays in a time
zone, or periodic from an anchor. `loadConfig` goes from the parsed file to the rules; what it
checks and the scheduling needs is part of the types: the characters of an id, the length of a
period, and that no two reminders share an id. The texts of the file may hold surrogates: a title
and a text are taken as they are, while ids and keys with a surrogate are not alphanumeric.

`Stdlib` collects the tables and parsers of the standard library. -/

namespace EventServer.ScheduledReminder

open EventServer.Lib EventServer.Python

/-! ### Values of the standard library -/

/-- A `datetime.time`: a time of the day, perhaps with an offset. -/
structure Clock where
  hour : ℕ
  minute : ℕ
  second : ℕ := 0
  microsecond : ℕ := 0
  utcoffset : Option ℤ := none
  hour_lt : hour < 24 := by decide
  minute_lt : minute < 60 := by decide
  second_lt : second < 60 := by decide
  microsecond_lt : microsecond < 1000000 := by decide
  deriving DecidableEq

/-- A `ZoneInfo`. `fromutc` gives the wall clock at an instant and its `fold`, and `utcoffset` of
that wall clock leads back to the instant. -/
structure ZoneInfo where
  key : String
  fromutc : Time → Time × Bool
  utcoffset : Time → Bool → ℤ
  fromutc_utcoffset : ∀ t, (fromutc t).1 - utcoffset (fromutc t).1 (fromutc t).2 = t

/-- What `ZoneInfo(key)` raises. -/
inductive ZoneError where
  | zoneInfoNotFoundError
  | valueError

class Stdlib where
  /-- `c.isalnum()` of a character beyond ASCII. -/
  isAlnum : Char → Bool
  /-- `s.lower()`. -/
  lower : Str → Str
  /-- `time.fromisoformat(s)`, or `none` if it raises. -/
  timeFromIsoformat : Str → Option Clock
  /-- `datetime.fromisoformat(s)`: the wall clock and the offset, or `none` if it raises. -/
  datetimeFromIsoformat : Str → Option (Time × Option ℤ)
  /-- `ZoneInfo(key)`. -/
  zoneInfo : Str → Except ZoneError ZoneInfo

/-- What `load_config` raises. -/
inductive ConfigError where
  | configurationError (message : Str)
  /-- `ZoneInfo` refuses the key as a path. -/
  | valueError
  /-- Times with and without an offset are compared. -/
  | typeError
  deriving DecidableEq

def fail {α : Type} (message : String) (value : Str := []) : Except ConfigError α :=
  .error (.configurationError (.of message ++ value))

variable [Stdlib]

def isAlnum (c : Char) : Bool := if c.toNat < 128 then c.isAlphanum else Stdlib.isAlnum c

/-- `s.isalnum()`. -/
def strIsAlnum (cs : List Char) : Bool := cs ≠ [] && cs.all isAlnum

/-! ### Rules -/

/-- The condition of `_parse_rule` on an id. -/
def isReminderId (s : String) : Bool :=
  strIsAlnum ((s.toList.filter (· ≠ '-')).filter (· ≠ '_')) && s.length ≤ 128

structure WeeklyRule where
  reminderId : String
  title : Str
  text : Str
  timezone : ZoneInfo
  weekdays : List ℕ
  times : List Clock
  id_valid : isReminderId reminderId = true

structure IntervalRule where
  reminderId : String
  title : Str
  text : Str
  timezone : ZoneInfo
  /-- The instant of `anchor_at`. -/
  anchorAt : Time
  everyMinutes : ℤ
  id_valid : isReminderId reminderId = true
  period_pos : 1 ≤ everyMinutes

inductive ReminderRule where
  | weekly (rule : WeeklyRule)
  | interval (rule : IntervalRule)

namespace ReminderRule

def reminderId : ReminderRule → String
  | .weekly rule => rule.reminderId
  | .interval rule => rule.reminderId

def title : ReminderRule → Str
  | .weekly rule => rule.title
  | .interval rule => rule.title

def text : ReminderRule → Str
  | .weekly rule => rule.text
  | .interval rule => rule.text

def timezone : ReminderRule → ZoneInfo
  | .weekly rule => rule.timezone
  | .interval rule => rule.timezone

def kind : ReminderRule → String
  | .weekly _ => "weekly"
  | .interval _ => "interval"

theorem id_valid : ∀ rule : ReminderRule, isReminderId rule.reminderId = true
  | .weekly rule => rule.id_valid
  | .interval rule => rule.id_valid

end ReminderRule

structure ReminderConfig where
  eventKey : String
  schemaVersion : ℤ
  rules : List ReminderRule
  maxDuePerTick : ℤ
  ids_nodup : (rules.map ReminderRule.reminderId).Nodup

/-! ### Parsing -/

def requiredString (payload : Fields) (key : String) (maxLength : ℕ := 128) :
    Except ConfigError Str :=
  let message := key ++ " must be a non-empty string up to " ++ toString maxLength ++ " characters"
  match payload.lookup (.of key) with
  | some (.str value) => if value = [] ∨ value.length > maxLength then fail message else .ok value
  | _ => fail message

def timezone (value : Str) : Except ConfigError ZoneInfo :=
  match Stdlib.zoneInfo value with
  | .ok zone => .ok zone
  | .error .zoneInfoNotFoundError => fail "invalid timezone: " value
  | .error .valueError => .error .valueError

/-- `WEEKDAYS`. -/
def weekdayNumbers : List (Str × ℕ) :=
  [(.of "monday", 0), (.of "tuesday", 1), (.of "wednesday", 2), (.of "thursday", 3),
    (.of "friday", 4), (.of "saturday", 5), (.of "sunday", 6)]

/-- The loop of `_weekdays`. -/
def parseWeekdays : List Value → Except ConfigError (List ℕ)
  | [] => .ok []
  | .str item :: items =>
    match weekdayNumbers.lookup (Stdlib.lower item) with
    | none => fail "weekdays must use English weekday names"
    | some number => (parseWeekdays items).map (number :: ·)
  | _ :: _ => fail "weekdays must use English weekday names"

def weekdays (value : Option Value) : Except ConfigError (List ℕ) :=
  match value with
  | some (.arr (item :: items)) =>
    (parseWeekdays (item :: items)).map fun parsed => parsed.dedup.insertionSort (· ≤ ·)
  | _ => fail "weekdays must be a non-empty list"

/-- The loop of `_times`. -/
def parseTimes : List Value → Except ConfigError (List Clock)
  | [] => .ok []
  | .str item :: items =>
    match Stdlib.timeFromIsoformat item with
    | none => fail "invalid time: " item
    | some time => (parseTimes items).map (time :: ·)
  | _ :: _ => fail "times must contain HH:MM strings"

/-- The time of the day in microseconds. -/
def Clock.micros (c : Clock) : ℤ :=
  seconds (c.hour * 3600 + c.minute * 60 + c.second) + c.microsecond

/-- What times are compared by, among those with and those without an offset. -/
def Clock.rank (c : Clock) : ℤ := c.micros - c.utcoffset.getD 0

/-- Whether two times are equal. -/
def Clock.eq (c c' : Clock) : Bool := c.utcoffset.isSome = c'.utcoffset.isSome && c.rank = c'.rank

/-- `tuple(sorted(set(parsed)))`. -/
def sortedTimes (parsed : List Clock) : Except ConfigError (List Clock) :=
  let times := parsed.foldl (fun times c => if times.any c.eq then times else times ++ [c]) []
  if times.any (·.utcoffset.isSome) && times.any (·.utcoffset.isNone) then .error .typeError
  else .ok (times.insertionSort fun c c' => c.rank ≤ c'.rank)

def times (value : Option Value) : Except ConfigError (List Clock) :=
  match value with
  | some (.arr (item :: items)) =>
    match parseTimes (item :: items) with
    | .error e => .error e
    | .ok parsed =>
      if parsed.any fun item => item.second ≠ 0 ∨ item.microsecond ≠ 0 then
        fail "times must use HH:MM precision"
      else sortedTimes parsed
  | _ => fail "times must be a non-empty list"

/-- `_aware_datetime`, as the instant. -/
def awareDatetime (value : Str) : Except ConfigError Time :=
  match Stdlib.datetimeFromIsoformat value with
  | none => fail "anchor_at must be ISO-8601"
  | some (_, none) => fail "anchor_at must include an offset"
  | some (wall, some offset) => .ok (wall - offset)

/-- `_parse_rule` for the kind `weekly`. -/
def parseWeekly (payload : Fields) (reminderId : String) (title text : Str)
    (timezone : ZoneInfo) (h : isReminderId reminderId = true) :
    Except ConfigError ReminderRule := do
  let weekdays ← weekdays (payload.lookup (.of "weekdays"))
  let times ← times (payload.lookup (.of "times"))
  .ok (.weekly ⟨reminderId, title, text, timezone, weekdays, times, h⟩)

/-- `_parse_rule` for the kind `interval`. -/
def parseInterval (payload : Fields) (reminderId : String) (title text : Str)
    (timezone : ZoneInfo) (h : isReminderId reminderId = true) :
    Except ConfigError ReminderRule := do
  let anchorAt ← awareDatetime (← requiredString payload "anchor_at")
  match (payload.lookup (.of "every_minutes")).bind Value.int? with
  | none => fail "every_minutes must be between 1 and 10080"
  | some everyMinutes =>
    if hp : 1 ≤ everyMinutes ∧ everyMinutes ≤ 10080 then
      .ok (.interval ⟨reminderId, title, text, timezone, anchorAt, everyMinutes, h, hp.1⟩)
    else fail "every_minutes must be between 1 and 10080"

/-- The id of a reminder; a surrogate is not alphanumeric. -/
def parseId (payload : Fields) : Except ConfigError { s : String // isReminderId s = true } := do
  let value ← requiredString payload "id"
  match value.encode? with
  | none => fail "reminder id must be alphanumeric, hyphen, or underscore"
  | some reminderId =>
    if h : isReminderId reminderId = true then .ok ⟨reminderId, h⟩
    else fail "reminder id must be alphanumeric, hyphen, or underscore"

def parseRule : Value → Except ConfigError ReminderRule
  | .obj payload => do
    let ⟨reminderId, h⟩ ← parseId payload
    let title ← requiredString payload "title" 200
    let text ← requiredString payload "text" 4000
    let timezone ← timezone (← requiredString payload "timezone")
    let kind ← requiredString payload "kind"
    if kind = .of "weekly" then parseWeekly payload reminderId title text timezone h
    else if kind = .of "interval" then parseInterval payload reminderId title text timezone h
    else fail "reminder kind must be weekly or interval"
  | _ => fail "each reminder must be an object"

def parseRules : List Value → Except ConfigError (List ReminderRule)
  | [] => .ok []
  | rawRule :: rawRules => do
    let rule ← parseRule rawRule
    let rules ← parseRules rawRules
    .ok (rule :: rules)

/-- `_valid_event_key`. -/
def validEventKey (value : String) : Bool :=
  let parts := value.toList.splitOn '.'
  3 ≤ parts.length && parts.all fun part => strIsAlnum (part.filter (· ≠ '_')) && part ≠ []

/-- The key of the events; a surrogate is not alphanumeric. -/
def parseEventKey (payload : Fields) : Except ConfigError String := do
  let value ← requiredString payload "event_key"
  match value.encode? with
  | none => fail "event_key must use <domain>.<resource>.<event> syntax"
  | some eventKey =>
    if validEventKey eventKey then .ok eventKey
    else fail "event_key must use <domain>.<resource>.<event> syntax"

/-- The integer under `key`, or the default if the key is absent. -/
def intOr (payload : Fields) (key : String) (default : ℤ) : Option ℤ :=
  match payload.lookup (.of key) with
  | none => some default
  | some value => value.int?

/-- `load_config`, from the parsed file. -/
def loadConfig : Value → Except ConfigError ReminderConfig
  | .obj payload => do
    let eventKey ← parseEventKey payload
    match intOr payload "schema_version" 1 with
    | none => fail "schema_version must be a positive integer"
    | some schemaVersion =>
      if schemaVersion < 1 then fail "schema_version must be a positive integer"
      else
        match intOr payload "max_due_per_tick" 100 with
        | none => fail "max_due_per_tick must be between 1 and 1000"
        | some maxDue =>
          if maxDue < 1 ∨ 1000 < maxDue then fail "max_due_per_tick must be between 1 and 1000"
          else
            match payload.lookup (.of "reminders") with
            | some (.arr rawRules) => do
              let rules ← parseRules rawRules
              if h : (rules.map ReminderRule.reminderId).Nodup then
                .ok ⟨eventKey, schemaVersion, rules, maxDue, h⟩
              else fail "reminder ids must be unique"
            | _ => fail "reminders must be a list"
  | _ => fail "reminder config must be an object"

/-! ### What holds of an accepted configuration -/

theorem colon_not_mem {s : String} (h : isReminderId s = true) : ':' ∉ s.toList := by
  intro hc
  unfold isReminderId strIsAlnum at h
  simp only [Bool.and_eq_true, List.all_eq_true] at h
  have halnum := h.1.2 ':' (by simp [hc])
  unfold isAlnum at halnum
  rw [if_pos (by decide)] at halnum
  exact absurd halnum (by decide)

omit [Stdlib] in
theorem Clock.micros_bounds (c : Clock) : 0 ≤ c.micros ∧ c.micros < day := by
  have hh := c.hour_lt
  have hm := c.minute_lt
  have hs := c.second_lt
  have hu := c.microsecond_lt
  unfold Clock.micros seconds
  rw [day_eq]
  omega

theorem parseId_ok {payload : Fields} {id : { s : String // isReminderId s = true }}
    (h : parseId payload = .ok id) :
    ∃ value, requiredString payload "id" = .ok value ∧ value.encode? = some id.val := by
  unfold parseId at h
  simp only [bind_eq_ok] at h
  obtain ⟨value, hvalue, h⟩ := h
  split at h
  · cases h
  · rename_i reminderId hencode
    split_ifs at h
    · cases h
      exact ⟨value, hvalue, hencode⟩
    · cases h

theorem parseEventKey_ok {payload : Fields} {eventKey : String}
    (h : parseEventKey payload = .ok eventKey) :
    ∃ value, requiredString payload "event_key" = .ok value ∧ value.encode? = some eventKey := by
  unfold parseEventKey at h
  simp only [bind_eq_ok] at h
  obtain ⟨value, hvalue, h⟩ := h
  split at h
  · cases h
  · rename_i key hencode
    split_ifs at h
    · cases h
      exact ⟨value, hvalue, hencode⟩
    · cases h

/-- A rule that parses has its texts, its time zone and, if it is weekly, its days and times from
the payload. -/
theorem parseRule_ok {raw : Value} {rule : ReminderRule} (h : parseRule raw = .ok rule) :
    ∃ payload, raw = .obj payload ∧
      (∃ value, requiredString payload "id" = .ok value ∧ value.encode? = some rule.reminderId) ∧
      requiredString payload "title" 200 = .ok rule.title ∧
      requiredString payload "text" 4000 = .ok rule.text ∧
      (∃ key, requiredString payload "timezone" = .ok key ∧ timezone key = .ok rule.timezone) ∧
      ∀ weekly, rule = .weekly weekly →
        weekdays (payload.lookup (.of "weekdays")) = .ok weekly.weekdays ∧
          times (payload.lookup (.of "times")) = .ok weekly.times := by
  cases raw with
  | null | bool _ | int _ | float _ | str _ | arr _ => cases h
  | obj payload =>
    unfold parseRule at h
    simp only [bind_eq_ok] at h
    obtain ⟨⟨reminderId, hvalid⟩, hid, title, htitle, text, htext, key, hkey, zone,
      hzone, kind, -, h⟩ :=
      h
    split_ifs at h
    · simp only [parseWeekly, bind_eq_ok] at h
      obtain ⟨days, hdays, sorted, htimes, h⟩ := h
      cases h
      refine ⟨payload, rfl, parseId_ok hid, htitle, htext, ⟨key, hkey, hzone⟩, fun weekly hw => ?_⟩
      cases hw
      exact ⟨hdays, htimes⟩
    · simp only [parseInterval, bind_eq_ok] at h
      obtain ⟨anchor, -, at_, -, h⟩ := h
      split at h
      · cases h
      · split_ifs at h
        · cases h
          refine ⟨payload, rfl, parseId_ok hid, htitle, htext, ⟨key, hkey, hzone⟩,
            fun weekly hw => ?_⟩
          cases hw
        · cases h
    · cases h

theorem exists_raw_of_parseRules {raws : List Value} {rules : List ReminderRule}
    (h : parseRules raws = .ok rules) : ∀ rule ∈ rules, ∃ raw, parseRule raw = .ok rule := by
  induction raws generalizing rules with
  | nil =>
    cases h
    exact List.forall_mem_nil _
  | cons raw raws ih =>
    unfold parseRules at h
    simp only [bind_eq_ok] at h
    obtain ⟨rule, hrule, rest, hrest, h⟩ := h
    cases h
    exact List.forall_mem_cons.mpr ⟨⟨raw, hrule⟩, ih hrest⟩

/-- A file that loads has its key, its numbers and its rules within their bounds. -/
theorem loadConfig_ok {file : Value} {config : ReminderConfig} (h : loadConfig file = .ok config) :
    ∃ payload raws, file = .obj payload ∧ parseEventKey payload = .ok config.eventKey ∧
      1 ≤ config.schemaVersion ∧ 1 ≤ config.maxDuePerTick ∧ config.maxDuePerTick ≤ 1000 ∧
      payload.lookup (.of "reminders") = some (.arr raws) ∧ parseRules raws = .ok config.rules := by
  cases file with
  | null | bool _ | int _ | float _ | str _ | arr _ => cases h
  | obj payload =>
    unfold loadConfig at h
    simp only [bind_eq_ok] at h
    obtain ⟨eventKey, hkey, h⟩ := h
    split at h
    · cases h
    · split_ifs at h with hversion
      · cases h
      · split at h
        · cases h
        · split_ifs at h with hmax
          · cases h
          · rw [not_or, not_lt, not_lt] at hmax
            split at h
            · rename_i raws hraws
              simp only [bind_eq_ok] at h
              obtain ⟨rules, hrules, h⟩ := h
              split_ifs at h
              · cases h
                exact ⟨payload, raws, rfl, hkey, not_lt.mp hversion, hmax.1, hmax.2, hraws, hrules⟩
              · cases h
            · cases h

theorem exists_raw_of_loadConfig {file : Value} {config : ReminderConfig}
    (h : loadConfig file = .ok config) : ∀ rule ∈ config.rules, ∃ raw,
      parseRule raw = .ok rule := by
  obtain ⟨payload, raws, -, -, -, -, -, -, hrules⟩ := loadConfig_ok h
  exact exists_raw_of_parseRules hrules

/-- The times of the rule are without an offset. -/
def ReminderRule.Plain : ReminderRule → Prop
  | .weekly rule => ∀ time ∈ rule.times, time.utcoffset = none
  | .interval _ => True

end EventServer.ScheduledReminder
