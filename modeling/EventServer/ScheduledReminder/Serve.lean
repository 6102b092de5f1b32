import EventServer.ScheduledReminder.Limits
import EventServer.ScheduledReminder.Main

/-! # The daemon

`ReminderPublisher.serve` calls `run_once` again and again. It catches `OSError`, `ValueError` and
`PublishError`, logs them and goes on; any other exception ends it. Those come from four places: a
file that is nested too deeply, times with and without an offset in one reminder, a `datetime`
outside of the years 1 to 9999, and more due reminders than a tick may publish. `Harmless` says of
the file, the clock and the state that none of them is met, and the daemon goes on exactly as long
as that is so (`serves_iff`). -/

namespace EventServer.ScheduledReminder

open EventServer.Lib EventServer.Python

/-! ### Reading the file -/

class Loads where
  /-- `json.loads(data.decode("utf-8"))`. -/
  loads : List UInt8 → Except LoadsError Value

/-- The bytes of the file, or the text of the `OSError` if it cannot be read. -/
abbrev ConfigFile := Except String (List UInt8)

/-- What leaves `run_once`. -/
inductive Raised where
  | tick (e : TickError)
  | valueError
  | recursionError

/-- The part of `load_config` that reads the file. -/
def readConfig [Loads] (file : ConfigFile) : Except Raised Value :=
  match file with
  | .error exc =>
    .error (.tick (.config (.configurationError (.of ("cannot read reminder config: " ++ exc)))))
  | .ok data =>
    match Loads.loads data with
    | .ok payload => .ok payload
    | .error (.jsonDecodeError msg) =>
      .error (.tick (.config (.configurationError
        (.of ("reminder config is not valid JSON: " ++ msg)))))
    | .error .unicodeDecodeError => .error .valueError
    | .error .valueError => .error .valueError
    | .error .recursionError => .error .recursionError

/-- The exceptions that `serve` catches: `OSError`, `ValueError` and `PublishError`. A
`ConfigurationError` is a `ValueError`, and so is a `UnicodeEncodeError`; an `OverflowError`, a
`TypeError` and a `RuntimeError` are none. -/
def caught : Raised → Bool
  | .tick (.config (.configurationError _)) => true
  | .tick (.config .valueError) => true
  | .tick (.config .typeError) => false
  | .tick .overflowError => false
  | .tick (.runtimeError _) => false
  | .tick .publishError => true
  | .tick .unicodeEncodeError => true
  | .valueError => true
  | .recursionError => false

/-! ### Iterations -/

/-- What an iteration of `serve` meets: the file, the clock and the ends of its calls. -/
structure Iteration where
  file : ConfigFile
  tick : Tick

/-- The daemon serves, or an exception has ended it. -/
inductive Process where
  | serving (st : State)
  | ended (st : State) (e : Raised)

variable [Stdlib] [Loads]

/-- `run_once` with the file as it is then. -/
def runOnceFile (st : State) (it : Iteration) : State × Except Raised ℕ :=
  match readConfig it.file with
  | .error e => (st, .error e)
  | .ok file => ((runOnce file st it.tick).1, (runOnce file st it.tick).2.mapError .tick)

/-- The body of the loop. -/
def serveStep (p : Process) (it : Iteration) : Process :=
  match p with
  | .ended st e => .ended st e
  | .serving st =>
    match runOnceFile st it with
    | (st', .ok _) => .serving st'
    | (st', .error e) => if caught e then .serving st' else .ended st' e

/-- An iteration after which the daemon goes on: what is due has been published, or a failure has
been logged. -/
inductive GoesOn (st : State) (it : Iteration) (st' : State) : Prop
  | published (n : ℕ) (h : runOnceFile st it = (st', .ok n))
    (hdue : ∀ file config after, readConfig it.file = .ok file → loadConfig file = .ok config →
      st.lastCheckedAt = some after →
        ∃ found, allDue after it.tick.now config.rules = .ok found ∧
          ∀ d ∈ found, ∃ x ∈ st'.store, x.dedupeKey = (publishRequest config d).dedupeKey)
  | logged (e : Raised) (h : runOnceFile st it = (st', .error e)) (hc : caught e = true)

/-! ### What ends it -/

/-- The times of a payload, all of them with minutes only, are with and without an offset. -/
def HasMixedTimes (payload : Fields) : Prop :=
  ∃ item items parsed, payload.lookup (.of "times") = some (.arr (item :: items)) ∧
    parseTimes (item :: items) = .ok parsed ∧
    (∀ c ∈ parsed, c.second = 0 ∧ c.microsecond = 0) ∧
    (∃ c ∈ parsed, c.utcoffset.isSome = true) ∧ ∃ c ∈ parsed, c.utcoffset.isNone = true

/-- A weekly reminder that is in order up to its times, and these are mixed. -/
def MixedRule (raw : Value) : Prop :=
  ∃ payload reminderId title text key zone days, raw = .obj payload ∧
    parseId payload = .ok reminderId ∧ requiredString payload "title" 200 = .ok title ∧
    requiredString payload "text" 4000 = .ok text ∧
    requiredString payload "timezone" = .ok key ∧ timezone key = .ok zone ∧
    requiredString payload "kind" = .ok (.of "weekly") ∧
      weekdays (payload.lookup (.of "weekdays")) = .ok days ∧
    HasMixedTimes payload

/-- The fields before the reminders are in order. -/
structure HeadOk (payload : Fields) (rawRules : List Value) : Prop where
  eventKey : ∃ eventKey, parseEventKey payload = .ok eventKey
  schemaVersion : ∃ version, intOr payload "schema_version" 1 = some version ∧ 1 ≤ version
  maxDuePerTick : ∃ maxDue, intOr payload "max_due_per_tick" 100 = some maxDue ∧ 1 ≤ maxDue ∧
    maxDue ≤ 1000
  reminders : payload.lookup (.of "reminders") = some (.arr rawRules)

/-- A file with a reminder whose times are mixed, and everything before it in order. -/
def MixesTimes (file : Value) : Prop :=
  ∃ payload before raw after, file = .obj payload ∧ HeadOk payload (before ++ raw :: after) ∧
    (∀ raw' ∈ before, ∃ rule, parseRule raw' = .ok rule) ∧ MixedRule raw

/-- What has become due can be computed, and it is not too much. -/
structure CanCatchUp (config : ReminderConfig) (after until_ : Time) : Prop where
  calendar : after < until_ → ∀ rule ∈ config.rules, InCalendar rule after until_
  count : ∀ ds : List DueReminder, ds.Nodup → (∀ d ∈ ds, ∃ rule ∈ config.rules, ∃ s,
    d = dueAt rule s ∧ Listed rule after until_ s) → ds.length ≤ config.maxDuePerTick

/-- An iteration that meets nothing the daemon does not survive. -/
structure Harmless (st : State) (it : Iteration) : Prop where
  nesting : ∀ data, it.file = .ok data → Loads.loads data ≠ .error .recursionError
  times : ∀ data file, it.file = .ok data → Loads.loads data = .ok file → ¬ MixesTimes file
  catchUp : ∀ data file config after, it.file = .ok data → Loads.loads data = .ok file →
    loadConfig file = .ok config → st.lastCheckedAt = some after →
      CanCatchUp config after it.tick.now

/-! ### The times of a rule -/

section Times

omit [Stdlib] [Loads]

/-- One round of `set(parsed)`. -/
def addTime (times : List Clock) (c : Clock) : List Clock :=
  if times.any c.eq then times else times ++ [c]

theorem sortedTimes_eq (parsed : List Clock) : sortedTimes parsed =
    if (parsed.foldl addTime []).any (·.utcoffset.isSome) &&
        (parsed.foldl addTime []).any (·.utcoffset.isNone) then .error .typeError
    else .ok ((parsed.foldl addTime []).insertionSort fun c c' => c.rank ≤ c'.rank) := rfl

theorem isSome_of_eq {c c' : Clock} (h : c.eq c' = true) :
    c.utcoffset.isSome = c'.utcoffset.isSome := by
  unfold Clock.eq at h
  simp only [Bool.and_eq_true, decide_eq_true_eq] at h
  exact h.1

theorem eq_symm {c c' : Clock} (h : c.eq c' = true) : c'.eq c = true := by
  unfold Clock.eq at h ⊢
  simp only [Bool.and_eq_true, decide_eq_true_eq] at h ⊢
  exact ⟨h.1.symm, h.2.symm⟩

/-- What is so of one of two equal times is so of the other, then it is so of one of the set if it
is of one of the list. -/
theorem exists_mem_foldl_addTime {P : Clock → Prop} (hP : ∀ c c', c.eq c' = true → P c → P c')
    (parsed acc : List Clock) :
    (∃ c ∈ parsed.foldl addTime acc, P c) ↔ (∃ c ∈ acc, P c) ∨ ∃ c ∈ parsed, P c := by
  induction parsed generalizing acc with
  | nil => simp
  | cons c parsed ih =>
    have hadd : (∃ c' ∈ addTime acc c, P c') ↔ (∃ c' ∈ acc, P c') ∨ P c := by
      unfold addTime
      split_ifs with h
      · obtain ⟨c', hc', he⟩ := List.any_eq_true.mp h
        exact ⟨Or.inl, fun h => h.elim id fun hc => ⟨c', hc', hP c c' he hc⟩⟩
      · simp only [List.mem_append, List.mem_singleton, or_and_right, exists_or, exists_eq_left]
    rw [List.foldl_cons, ih, hadd, List.exists_mem_cons_iff, or_assoc]

theorem pairwise_foldl_addTime (parsed : List Clock) {acc : List Clock}
    (h : acc.Pairwise fun c c' => c.eq c' = false) :
    (parsed.foldl addTime acc).Pairwise fun c c' => c.eq c' = false := by
  induction parsed generalizing acc with
  | nil => exact h
  | cons c parsed ih =>
    refine ih ?_
    unfold addTime
    split_ifs with hany
    · exact h
    · rw [List.pairwise_append]
      refine ⟨h, List.pairwise_singleton _ _, fun c' hc' c'' hc'' => ?_⟩
      rw [List.mem_singleton.mp hc'', Bool.eq_false_iff]
      exact fun he => hany (List.any_eq_true.mpr ⟨c', hc', eq_symm he⟩)

/-- **Times cannot be sorted** exactly if some have an offset and some have none. -/
theorem sortedTimes_eq_typeError {parsed : List Clock} :
    sortedTimes parsed = .error .typeError ↔
      (∃ c ∈ parsed, c.utcoffset.isSome = true) ∧ ∃ c ∈ parsed, c.utcoffset.isNone = true := by
  have hsome := exists_mem_foldl_addTime (P := fun c => c.utcoffset.isSome = true)
    (fun c c' he hc => by rwa [← isSome_of_eq he]) parsed []
  have hnone := exists_mem_foldl_addTime (P := fun c => c.utcoffset.isNone = true)
    (fun c c' he hc => by
      rw [← Option.not_isSome, ← isSome_of_eq he, Option.not_isSome]
      exact hc) parsed []
  have hnil : ∀ P : Clock → Prop, ¬ ∃ c ∈ ([] : List Clock), P c := by simp
  rw [or_iff_right (hnil _)] at hsome hnone
  rw [sortedTimes_eq, ← hsome, ← hnone, ← List.any_eq_true, ← List.any_eq_true, ← Bool.and_eq_true]
  split_ifs with h
  · exact iff_of_true rfl h
  · exact iff_of_false (fun he => by cases he) h

theorem pairwise_of_sortedTimes {parsed sorted : List Clock} (h : sortedTimes parsed = .ok sorted) :
    sorted.Pairwise fun c c' => c.utcoffset = none → c'.utcoffset = none →
      c.micros ≠ c'.micros := by
  rw [sortedTimes_eq] at h
  split_ifs at h
  cases h
  have hperm := List.perm_insertionSort (fun c c' : Clock => c.rank ≤ c'.rank)
    (parsed.foldl addTime [])
  refine (hperm.pairwise_iff fun hne hn' hn he => hne hn hn' he.symm).mpr ?_
  refine (pairwise_foldl_addTime parsed List.Pairwise.nil).imp fun hne hn hn' he => ?_
  unfold Clock.eq Clock.rank at hne
  simp [hn, hn', he] at hne

/-- What is so of one of two equal times is so of one of the sorted times if it is of one of the
list. -/
theorem exists_mem_of_sortedTimes {P : Clock → Prop} (hP : ∀ c c', c.eq c' = true → P c → P c')
    {parsed sorted : List Clock} (h : sortedTimes parsed = .ok sorted) :
    (∃ c ∈ sorted, P c) ↔ ∃ c ∈ parsed, P c := by
  rw [sortedTimes_eq] at h
  split_ifs at h
  cases h
  have hset := exists_mem_foldl_addTime hP parsed []
  simp only [List.not_mem_nil, false_and, exists_false, false_or] at hset
  simp only [List.mem_insertionSort, hset]

end Times

/-! ### What `load_config` raises -/

section Loading

omit [Loads]

omit [Stdlib] in
theorem requiredString_error {payload : Fields} {key : String} {maxLength : ℕ} {e : ConfigError}
    (h : requiredString payload key maxLength = .error e) :
    ∃ message, e = .configurationError message := by
  unfold requiredString at h
  simp only at h
  split at h
  · split_ifs at h
    cases h
    exact ⟨_, rfl⟩
  · cases h
    exact ⟨_, rfl⟩

omit [Stdlib] in
theorem requiredString_ne {payload : Fields} {key : String} {maxLength : ℕ} :
    requiredString payload key maxLength ≠ .error .typeError := by
  intro h
  obtain ⟨message, he⟩ := requiredString_error h
  cases he

theorem parseId_ne {payload : Fields} : parseId payload ≠ .error .typeError := by
  refine bind_ne_error requiredString_ne fun _ _ h => ?_
  split at h
  · cases h
  · split_ifs at h
    cases h

theorem parseEventKey_error {payload : Fields} {e : ConfigError}
    (h : parseEventKey payload = .error e) : ∃ message, e = .configurationError message := by
  unfold parseEventKey at h
  rw [bind_eq_error] at h
  rcases h with h | ⟨value, -, h⟩
  · exact requiredString_error h
  · split at h
    · cases h
      exact ⟨_, rfl⟩
    · split_ifs at h
      cases h
      exact ⟨_, rfl⟩

theorem timezone_ne {key : Str} : timezone key ≠ .error .typeError := by
  intro h
  unfold timezone at h
  split at h <;> cases h

theorem parseWeekdays_ne (items : List Value) : parseWeekdays items ≠ .error .typeError := by
  induction items with
  | nil => exact fun h => by cases h
  | cons item items ih =>
    cases item with
    | str s =>
      unfold parseWeekdays
      cases weekdayNumbers.lookup (Stdlib.lower s) with
      | none => exact fun h => by cases h
      | some number => exact map_ne_error ih
    | _ => exact fun h => by cases h

theorem weekdays_ne (value : Option Value) : weekdays value ≠ .error .typeError := by
  unfold weekdays
  split
  · exact map_ne_error (parseWeekdays_ne _)
  · exact fun h => by cases h

theorem parseTimes_ne (items : List Value) : parseTimes items ≠ .error .typeError := by
  induction items with
  | nil => exact fun h => by cases h
  | cons item items ih =>
    cases item with
    | str s =>
      unfold parseTimes
      cases Stdlib.timeFromIsoformat s with
      | none => exact fun h => by cases h
      | some time => exact map_ne_error ih
    | _ => exact fun h => by cases h

theorem awareDatetime_ne (value : Str) : awareDatetime value ≠ .error .typeError := by
  intro h
  unfold awareDatetime at h
  split at h <;> cases h

theorem parseInterval_ne {payload : Fields} {reminderId : String} {title text : Str}
    {zone : ZoneInfo} {h : isReminderId reminderId = true} :
    parseInterval payload reminderId title text zone h ≠ .error .typeError := by
  refine bind_ne_error requiredString_ne fun _ _ =>
    bind_ne_error (awareDatetime_ne _) fun _ _ h => ?_
  split at h
  · cases h
  · split_ifs at h
    cases h

theorem times_eq_typeError {payload : Fields} :
    times (payload.lookup (.of "times")) = .error .typeError ↔ HasMixedTimes payload := by
  unfold times HasMixedTimes
  constructor
  · intro h
    split at h
    case h_1 item items hlookup =>
      cases hparsed : parseTimes (item :: items) with
      | error e =>
        rw [hparsed] at h
        cases h
        exact absurd hparsed (parseTimes_ne _)
      | ok parsed =>
        rw [hparsed] at h
        simp only at h
        by_cases hprecise : (parsed.any fun item => item.second ≠ 0 ∨ item.microsecond ≠ 0) = true
        · rw [if_pos hprecise] at h
          cases h
        · rw [if_neg hprecise] at h
          refine ⟨item, items, parsed, hlookup, hparsed, ?_, sortedTimes_eq_typeError.mp h⟩
          simpa [not_or] using hprecise
    case h_2 => cases h
  · rintro ⟨item, items, parsed, hlookup, hparsed, hprecise, hmixed⟩
    have hnone : (parsed.any fun item => item.second ≠ 0 ∨ item.microsecond ≠ 0) = false := by
      simpa [not_or] using hprecise
    rw [hlookup]
    simp only [hparsed, hnone, Bool.false_eq_true, if_false]
    exact sortedTimes_eq_typeError.mpr hmixed

theorem parseWeekly_eq_typeError {payload : Fields} {reminderId : String} {title text : Str}
    {zone : ZoneInfo} {h : isReminderId reminderId = true} :
    parseWeekly payload reminderId title text zone h = .error .typeError ↔
      (∃ days, weekdays (payload.lookup (.of "weekdays")) = .ok days) ∧ HasMixedTimes payload := by
  unfold parseWeekly
  rw [bind_eq_error_of_ne (weekdays_ne _), ← times_eq_typeError, ← exists_and_right]
  refine exists_congr fun days => and_congr_right fun _ => ?_
  rw [bind_eq_error]
  refine or_iff_left ?_
  rintro ⟨_, -, h⟩
  cases h

/-- **A rule raises a `TypeError`** exactly if its times are mixed. -/
theorem parseRule_eq_typeError {raw : Value} : parseRule raw = .error .typeError ↔
    MixedRule raw := by
  constructor
  · intro h
    cases raw with
    | obj payload =>
      unfold parseRule at h
      obtain ⟨reminderId, hid, h⟩ := (bind_eq_error_of_ne parseId_ne).mp h
      obtain ⟨title, htitle, h⟩ := (bind_eq_error_of_ne requiredString_ne).mp h
      obtain ⟨text, htext, h⟩ := (bind_eq_error_of_ne requiredString_ne).mp h
      obtain ⟨key, hkey, h⟩ := (bind_eq_error_of_ne requiredString_ne).mp h
      obtain ⟨zone, hzone, h⟩ := (bind_eq_error_of_ne timezone_ne).mp h
      obtain ⟨kind, hkind, h⟩ := (bind_eq_error_of_ne requiredString_ne).mp h
      split_ifs at h with hweekly hinterval
      · subst hweekly
        obtain ⟨⟨days, hdays⟩, htimes⟩ := parseWeekly_eq_typeError.mp h
        exact ⟨payload, reminderId, title, text, key, zone, days, rfl, hid, htitle,
          htext, hkey, hzone, hkind, hdays, htimes⟩
      · exact absurd h parseInterval_ne
      · cases h
    | _ => cases h
  · rintro ⟨payload, reminderId, title, text, key, zone, days, rfl, hid, htitle, htext, hkey, hzone,
      hkind, hdays, htimes⟩
    have hweekly : parseWeekly payload reminderId.val title text zone reminderId.property =
        .error .typeError := parseWeekly_eq_typeError.mpr ⟨⟨days, hdays⟩, htimes⟩
    unfold parseRule
    simp only [hid, htitle, htext, hkey, hzone, hkind, bind, Except.bind]
    exact hweekly

theorem parseRules_eq_typeError {raws : List Value} : parseRules raws = .error .typeError ↔
    ∃ before raw after, raws = before ++ raw :: after ∧
      (∀ raw' ∈ before, ∃ rule, parseRule raw' = .ok rule) ∧ MixedRule raw := by
  induction raws with
  | nil =>
    refine iff_of_false (fun h => by cases h) ?_
    rintro ⟨before, raw, after, h, -⟩
    simp at h
  | cons raw raws ih =>
    have hrest : (∃ rule, parseRule raw = .ok rule ∧
        (do let rules ← parseRules raws; .ok (rule :: rules) : Except ConfigError _) =
          .error .typeError) ↔
        (∃ rule, parseRule raw = .ok rule) ∧ parseRules raws = .error .typeError := by
      rw [← exists_and_right]
      refine exists_congr fun rule => and_congr_right fun _ => ?_
      rw [bind_eq_error]
      refine or_iff_left ?_
      rintro ⟨_, -, h⟩
      cases h
    unfold parseRules
    rw [bind_eq_error, hrest, ih, parseRule_eq_typeError]
    constructor
    · rintro (h | ⟨hfirst, before, raw', after, rfl, hbefore, h⟩)
      · exact ⟨[], raw, raws, rfl, List.forall_mem_nil _, h⟩
      · exact ⟨raw :: before, raw', after, rfl, List.forall_mem_cons.mpr ⟨hfirst, hbefore⟩, h⟩
    · rintro ⟨before, raw', after, he, hbefore, h⟩
      cases before with
      | nil =>
        obtain ⟨rfl, rfl⟩ := List.cons.inj he
        exact Or.inl h
      | cons first before =>
        obtain ⟨rfl, rfl⟩ := List.cons.inj he
        rw [List.forall_mem_cons] at hbefore
        exact Or.inr ⟨hbefore.1, before, raw', after, rfl, hbefore.2, h⟩

/-- How loading ends: an error of the file, or what the reminders come to. -/
theorem loadConfig_cases (file : Value) :
    (∃ message, loadConfig file = .error (.configurationError message)) ∨
      ∃ payload raws, file = .obj payload ∧ HeadOk payload raws ∧
        ((∃ e, parseRules raws = .error e ∧ loadConfig file = .error e) ∨
          ∃ config, loadConfig file = .ok config ∧ parseRules raws = .ok config.rules) := by
  cases file with
  | null | bool _ | int _ | float _ | str _ | arr _ => exact Or.inl ⟨_, rfl⟩
  | obj payload =>
    simp only [loadConfig, bind, Except.bind]
    cases hkey : parseEventKey payload with
    | error e =>
      obtain ⟨message, rfl⟩ := parseEventKey_error hkey
      exact Or.inl ⟨message, rfl⟩
    | ok eventKey =>
      simp only
      cases hversion : intOr payload "schema_version" 1 with
      | none => exact Or.inl ⟨_, rfl⟩
      | some version =>
        simp only
        split_ifs with hpos
        · exact Or.inl ⟨_, rfl⟩
        · cases hmax : intOr payload "max_due_per_tick" 100 with
          | none => exact Or.inl ⟨_, rfl⟩
          | some maxDue =>
            simp only
            split_ifs with hrange
            · exact Or.inl ⟨_, rfl⟩
            · rw [not_or, not_lt, not_lt] at hrange
              split
              · rename_i raws hraws
                have hhead : HeadOk payload raws :=
                  ⟨⟨eventKey, hkey⟩, ⟨version, hversion, not_lt.mp hpos⟩,
                    ⟨maxDue, hmax, hrange⟩, hraws⟩
                cases hrules : parseRules raws with
                | error e => exact Or.inr ⟨payload, raws, rfl, hhead, Or.inl ⟨e, hrules, rfl⟩⟩
                | ok rules =>
                  simp only
                  split_ifs with hnodup
                  · exact Or.inr ⟨payload, raws, rfl, hhead, Or.inr ⟨_, rfl, hrules⟩⟩
                  · exact Or.inl ⟨_, rfl⟩
              · exact Or.inl ⟨_, rfl⟩

/-- **Loading raises a `TypeError`** exactly if a reminder mixes times with and without an offset,
and everything before it is in order. -/
theorem loadConfig_eq_typeError {file : Value} :
    loadConfig file = .error .typeError ↔ MixesTimes file := by
  constructor
  · intro h
    obtain ⟨message, hfail⟩ | ⟨payload, raws, rfl, hhead, ⟨e, hrules, he⟩ | ⟨config, hok, -⟩⟩ :=
      loadConfig_cases file
    · rw [h] at hfail
      cases hfail
    · rw [h] at he
      cases he
      obtain ⟨before, raw, after, rfl, hbefore, hmixed⟩ := parseRules_eq_typeError.mp hrules
      exact ⟨payload, before, raw, after, rfl, hhead, hbefore, hmixed⟩
    · rw [h] at hok
      cases hok
  · rintro ⟨payload, before, raw, after, rfl, hhead, hbefore, hmixed⟩
    obtain ⟨eventKey, hkey⟩ := hhead.eventKey
    obtain ⟨version, hversion, hpos⟩ := hhead.schemaVersion
    obtain ⟨maxDue, hmax, hlo, hhi⟩ := hhead.maxDuePerTick
    have hrules : parseRules (before ++ raw :: after) = .error .typeError :=
      parseRules_eq_typeError.mpr ⟨before, raw, after, rfl, hbefore, hmixed⟩
    unfold loadConfig
    simp only [hkey, bind, Except.bind, hversion, hmax, hhead.reminders, hrules]
    rw [if_neg (by omega), if_neg (by omega)]

theorem pairwise_of_times {value : Option Value} {sorted : List Clock}
    (h : times value = .ok sorted) :
    sorted.Pairwise fun c c' => c.utcoffset = none → c'.utcoffset = none →
      c.micros ≠ c'.micros := by
  unfold times at h
  split at h
  · split at h
    · cases h
    · split_ifs at h
      · cases h
      · exact pairwise_of_sortedTimes h
  · cases h

theorem distinctTimes_of_loadConfig {file : Value} {config : ReminderConfig}
    (h : loadConfig file = .ok config) : ∀ rule ∈ config.rules, rule.DistinctTimes := by
  intro rule hr
  obtain ⟨raw, hraw⟩ := exists_raw_of_loadConfig h rule hr
  cases rule with
  | interval rule => trivial
  | weekly rule =>
    obtain ⟨payload, -, -, -, -, -, hweekly⟩ := parseRule_ok hraw
    exact pairwise_of_times (hweekly rule rfl).2

end Loading

/-! ### What is due of all rules -/

section AllDue

omit [Loads]

variable {after until_ : Time} {rules : List ReminderRule} {found : List DueReminder}

theorem succeeds_allDue : Succeeds (allDue after until_ rules) ↔
    (after < until_ → ∀ rule ∈ rules, InCalendar rule after until_) := by
  induction rules with
  | nil => simp [allDue]
  | cons rule rules ih =>
    unfold allDue
    rw [succeeds_bind_iff fun _ _ => succeeds_bind_iff fun _ _ => iff_true_intro (succeeds_ok _),
      succeeds_dueBetween, ih, and_true, ← imp_and, List.forall_mem_cons]

theorem raisesOnly_allDue (after until_ : Time) (rules : List ReminderRule) :
    RaisesOnly .overflowError (allDue after until_ rules) := by
  induction rules with
  | nil => exact raises_ok _
  | cons rule rules ih =>
    exact raises_bind (raisesOnly_dueBetween _ _ _) fun _ _ =>
      raises_bind ih fun _ _ => raises_ok _

theorem mem_allDue_iff (h : allDue after until_ rules = .ok found) (d : DueReminder) :
    d ∈ found ↔ ∃ rule ∈ rules, ∃ s, d = dueAt rule s ∧ Listed rule after until_ s := by
  induction rules generalizing found with
  | nil =>
    cases h
    simp
  | cons rule rules ih =>
    unfold allDue at h
    simp only [bind_eq_ok] at h
    obtain ⟨due, hdue, rest, hrest, h⟩ := h
    cases h
    rw [List.mem_append, mem_dueBetween_iff hdue, ih hrest, List.exists_mem_cons_iff]

theorem nodup_allDue (hids : (rules.map ReminderRule.reminderId).Nodup)
    (hdistinct : ∀ rule ∈ rules, rule.DistinctTimes) (h : allDue after until_ rules = .ok found) :
    found.Nodup := by
  induction rules generalizing found with
  | nil =>
    cases h
    exact List.nodup_nil
  | cons rule rules ih =>
    rw [List.map_cons, List.nodup_cons] at hids
    rw [List.forall_mem_cons] at hdistinct
    unfold allDue at h
    simp only [bind_eq_ok] at h
    obtain ⟨due, hdue, rest, hrest, h⟩ := h
    cases h
    rw [List.nodup_append]
    refine ⟨nodup_dueBetween hdistinct.1 hdue, ih hids.2 hdistinct.2 hrest,
      fun d hd d' hd' he => ?_⟩
    -- the ids differ
    obtain ⟨s, rfl, -⟩ := (mem_dueBetween_iff hdue d).mp hd
    obtain ⟨rule', hr', s', rfl, -⟩ := (mem_allDue_iff hrest d').mp hd'
    have hid : rule.reminderId = rule'.reminderId := congrArg DueReminder.reminderId he
    exact hids.1 (hid ▸ List.mem_map_of_mem hr')

end AllDue

/-! ### One iteration -/

omit [Loads] in
theorem count_iff {file : Value} {config : ReminderConfig} {found : List DueReminder}
    (hload : loadConfig file = .ok config) {after until_ : Time}
    (h : allDue after until_ config.rules = .ok found) :
    (∀ ds : List DueReminder, ds.Nodup → (∀ d ∈ ds, ∃ rule ∈ config.rules, ∃ s,
        d = dueAt rule s ∧ Listed rule after until_ s) → ds.length ≤ config.maxDuePerTick) ↔
      (found.length : ℤ) ≤ config.maxDuePerTick := by
  constructor
  · intro hall
    exact hall found (nodup_allDue config.ids_nodup (distinctTimes_of_loadConfig hload) h)
      fun d hd => (mem_allDue_iff h d).mp hd
  · intro hle ds hnodup hds
    have hsub : ds ⊆ found := fun d hd => (mem_allDue_iff h d).mpr (hds d hd)
    have hlen : ds.length ≤ found.length := (List.subperm_of_subset hnodup hsub).length_le
    exact le_trans (by exact_mod_cast hlen) hle

omit [Loads] in
/-- The publisher can catch up if what is due is computed and not too much. -/
theorem canCatchUp_iff {file : Value} {config : ReminderConfig}
    (hload : loadConfig file = .ok config)
    {after until_ : Time} : CanCatchUp config after until_ ↔ ∃ found,
      allDue after until_ config.rules = .ok found ∧
        (found.length : ℤ) ≤ config.maxDuePerTick := by
  constructor
  · intro h
    obtain ⟨found, hfound⟩ := succeeds_allDue.mpr h.calendar
    exact ⟨found, hfound, (count_iff hload hfound).mp h.count⟩
  · rintro ⟨found, hfound, hle⟩
    exact ⟨succeeds_allDue.mp ⟨found, hfound⟩, (count_iff hload hfound).mpr hle⟩

omit [Loads] in
/-- A batch ends with nothing but a `PublishError` or a `UnicodeEncodeError`. -/
theorem publishAll_error {calls : ℕ → Call} {i : ℕ} {due : List DueReminder} {store : Events}
    {e : TickError} (h : (publishAll config calls i due store).2 = .error e) :
    e = .publishError ∨ e = .unicodeEncodeError := by
  induction due generalizing i store with
  | nil => cases h
  | cons d due ih =>
    unfold publishAll at h
    rcases publish_cases config store d (calls i) with ⟨e', he, hcall | hcall⟩ | hcall
    · rw [hcall] at h
      cases h
      exact he
    · rw [hcall] at h
      cases h
      exact he
    · rw [hcall] at h
      exact ih h

omit [Loads] in
/-- **One tick** raises something that is not caught exactly if times are mixed, what is due cannot
be computed, or too much is due. -/
theorem exists_uncaught_runOnce (file : Value) (st : State) (tick : Tick) :
    (∃ e, (runOnce file st tick).2 = .error e ∧ caught (.tick e) = false) ↔
      MixesTimes file ∨ ∃ config after, loadConfig file = .ok config ∧
        st.lastCheckedAt = some after ∧ ¬ CanCatchUp config after tick.now := by
  rw [← loadConfig_eq_typeError]
  unfold runOnce
  cases hload : loadConfig file with
  | error e =>
    cases e with
    | typeError => exact iff_of_true ⟨_, rfl, rfl⟩ (Or.inl rfl)
    | configurationError _ | valueError =>
      refine iff_of_false ?_ ?_
      · rintro ⟨_, h, hc⟩
        cases h
        cases hc
      · rintro (h | ⟨_, _, h, -⟩) <;> cases h
  | ok config =>
    simp only [reduceCtorEq, false_or, Except.ok.injEq, exists_and_left, exists_eq_left']
    cases hlast : st.lastCheckedAt with
    | none => simp
    | some after =>
      simp only [Option.some.injEq, exists_eq_left', canCatchUp_iff hload]
      cases hall : allDue after tick.now config.rules with
      | error e =>
        have he := raisesOnly_allDue _ _ _ e hall
        subst he
        refine iff_of_true ⟨_, rfl, rfl⟩ ?_
        rintro ⟨found, h, -⟩
        cases h
      | ok found =>
        simp only [Except.ok.injEq, exists_eq_left', List.length_insertionSort, not_le]
        split_ifs with hmax
        · exact iff_of_true ⟨_, rfl, rfl⟩ hmax
        · refine iff_of_false ?_ hmax
          rintro ⟨e, h, hc⟩
          cases hpub : publishAll config tick.calls 0
              (found.insertionSort fun d d' => d.before d') st.store with
          | mk store res =>
            rw [hpub] at h
            cases res with
            | error e' =>
              cases h
              rcases publishAll_error (congrArg Prod.snd hpub) with rfl | rfl <;> cases hc
            | ok u => cases h

omit [Loads] in
theorem published_of_runOnce {file : Value} {config : ReminderConfig} {st : State} {tick : Tick}
    {after : Time} {n : ℕ} (h : (runOnce file st tick).2 = .ok n)
    (hload : loadConfig file = .ok config) (hlast : st.lastCheckedAt = some after) :
    ∃ found, allDue after tick.now config.rules = .ok found ∧
      ∀ d ∈ found, ∃ x ∈ (runOnce file st tick).1.store,
        x.dedupeKey = (publishRequest config d).dedupeKey := by
  unfold runOnce at h ⊢
  simp only [hload, hlast] at h ⊢
  cases hall : allDue after tick.now config.rules with
  | error e =>
    rw [hall] at h
    cases h
  | ok found =>
    rw [hall] at h
    refine ⟨found, rfl, ?_⟩
    simp only at h ⊢
    split_ifs at h ⊢
    obtain ⟨-, hpublished⟩ := published_publishAll config tick.calls 0
      (found.insertionSort fun d d' => d.before d') st.store
    cases hpub : publishAll config tick.calls 0
        (found.insertionSort fun d d' => d.before d') st.store with
    | mk store res =>
      rw [hpub] at h hpublished
      cases res with
      | error e => cases h
      | ok u => exact fun d hd => hpublished rfl d ((List.mem_insertionSort _).mpr hd)

theorem harmless_of_file {st : State} {it : Iteration} {data : List UInt8}
    (hfile : it.file = .ok data) :
    Harmless st it ↔ Loads.loads data ≠ .error .recursionError ∧
      ∀ file, Loads.loads data = .ok file → ¬ MixesTimes file ∧ ∀ config after,
        loadConfig file = .ok config → st.lastCheckedAt = some after →
          CanCatchUp config after it.tick.now := by
  constructor
  · rintro ⟨h1, h2, h3⟩
    exact ⟨h1 data hfile, fun file hl =>
      ⟨h2 data file hfile hl, fun config after => h3 data file config after hfile hl⟩⟩
  · rintro ⟨h1, h2⟩
    have hdata : ∀ data', it.file = .ok data' → data' = data := by
      intro data' he
      rw [hfile] at he
      cases he
      rfl
    refine ⟨fun data' he => ?_, fun data' file he hl => ?_, fun data' file config after he hl => ?_⟩
    all_goals obtain rfl := hdata data' he
    · exact h1
    · exact (h2 file hl).1
    · exact (h2 file hl).2 config after

/-- **One iteration** raises something that is not caught exactly if it is not harmless. -/
theorem exists_uncaught_iff {st : State} {it : Iteration} :
    (∃ e, (runOnceFile st it).2 = .error e ∧ caught e = false) ↔ ¬ Harmless st it := by
  cases hfile : it.file with
  | error exc =>
    have hrun : runOnceFile st it = (st, .error (.tick (.config
        (.configurationError (.of ("cannot read reminder config: " ++ exc)))))) := by
      simp only [runOnceFile, readConfig, hfile]
    have hnot : ∀ data, it.file ≠ .ok data := fun data h => by
      rw [hfile] at h
      cases h
    rw [hrun]
    refine iff_of_false ?_ (not_not_intro
      ⟨fun data h => absurd h (hnot data), fun data _ h => absurd h (hnot data),
        fun data _ _ _ h => absurd h (hnot data)⟩)
    rintro ⟨_, h, hc⟩
    cases h
    cases hc
  | ok data =>
    rw [harmless_of_file hfile]
    cases hloads : Loads.loads data with
    | error e =>
      cases e with
      | recursionError =>
        have hrun : runOnceFile st it = (st, .error .recursionError) := by
          simp only [runOnceFile, readConfig, hfile, hloads]
        rw [hrun]
        exact iff_of_true ⟨_, rfl, rfl⟩ fun h => h.1 rfl
      | unicodeDecodeError | jsonDecodeError _ | valueError =>
        have hrun : ∃ e, runOnceFile st it = (st, .error e) ∧ caught e = true := by
          simp [runOnceFile, readConfig, hfile, hloads, caught]
        obtain ⟨e, hrun, hc⟩ := hrun
        rw [hrun]
        refine iff_of_false ?_ (not_not_intro ⟨by simp, by simp⟩)
        rintro ⟨_, h, hc'⟩
        cases h
        rw [hc] at hc'
        cases hc'
    | ok file =>
      have hrun : runOnceFile st it =
          ((runOnce file st it.tick).1, (runOnce file st it.tick).2.mapError .tick) := by
        simp only [runOnceFile, readConfig, hfile, hloads]
      have hlift : (∃ e, (runOnceFile st it).2 = .error e ∧ caught e = false) ↔
          ∃ e, (runOnce file st it.tick).2 = .error e ∧ caught (.tick e) = false := by
        rw [hrun]
        cases (runOnce file st it.tick).2 <;> simp [Except.mapError]
      simp only [hlift, exists_uncaught_runOnce, Except.ok.injEq, forall_eq', ne_eq, reduceCtorEq,
        not_false_eq_true, true_and, not_and_or, not_not, not_forall, exists_prop]

/-! ### All iterations -/

/-- The daemon serves, and goes on after the iteration. -/
def Survives (p : Process) (it : Iteration) : Prop :=
  ∃ st st', p = .serving st ∧ serveStep p it = .serving st' ∧ GoesOn st it st'

/-- The iteration is harmless in the state it is made in. -/
def MeetsNothing (p : Process) (it : Iteration) : Prop := ∀ st, p = .serving st → Harmless st it

theorem survives_serving {st : State} {it : Iteration} :
    Survives (.serving st) it ↔ Harmless st it := by
  have huncaught : (∃ e, (runOnceFile st it).2 = .error e ∧ caught e = false) ↔ ¬ Harmless st it :=
    exists_uncaught_iff
  cases hrun : runOnceFile st it with
  | mk st' res =>
    rw [hrun] at huncaught
    cases res with
    | ok n =>
      have hharmless : Harmless st it := by
        by_contra hnot
        obtain ⟨e, h, -⟩ := huncaught.mpr hnot
        cases h
      refine iff_of_true ⟨st, st', rfl, ?_, .published n hrun ?_⟩ hharmless
      · simp only [serveStep, hrun]
      · intro file config after hfile hload hlast
        have hthere : runOnceFile st it =
            ((runOnce file st it.tick).1, (runOnce file st it.tick).2.mapError .tick) := by
          simp only [runOnceFile, hfile]
        rw [hrun, Prod.mk.injEq] at hthere
        obtain ⟨rfl, hok⟩ := hthere
        exact published_of_runOnce (mapError_eq_ok.mp hok.symm) hload hlast
    | error e =>
      by_cases hc : caught e = true
      · have hharmless : Harmless st it := by
          by_contra hnot
          obtain ⟨e', h, hc'⟩ := huncaught.mpr hnot
          cases h
          rw [hc] at hc'
          cases hc'
        refine iff_of_true ⟨st, st', rfl, ?_, .logged e hrun hc⟩ hharmless
        simp only [serveStep, hrun, hc, if_true]
      · refine iff_of_false ?_ (huncaught.mp ⟨e, rfl, by simpa using hc⟩)
        rintro ⟨_, st'', -, hstep, -⟩
        simp only [serveStep, hrun, if_neg hc] at hstep
        cases hstep

/-- **How long the daemon serves.** It goes on after every iteration, with what is due published or
a failure logged, exactly if all of them are harmless. -/
theorem serves_iff (its : List Iteration) :
    Along serveStep Survives (.serving {}) its ↔
      Along serveStep MeetsNothing (.serving {}) its := by
  have hfrom : ∀ st, Along serveStep MeetsNothing (.serving st) its →
      Along serveStep Survives (.serving st) its := by
    induction its with
    | nil => exact fun _ _ => along_nil
    | cons it its ih =>
      intro st h
      rw [along_cons] at h ⊢
      obtain ⟨st₀, st', hst, hstep, hgoes⟩ := survives_serving.mpr (h.1 st rfl)
      refine ⟨⟨st₀, st', hst, hstep, hgoes⟩, ?_⟩
      rw [hstep] at h ⊢
      exact ih st' h.2
  refine ⟨Along.mono fun p it h => ?_, hfrom {}⟩
  rintro st rfl
  exact survives_serving.mp h

/-! ### A sample -/

omit [Stdlib] [Loads] in
/-- Every day at eight, and no more than one at a time. -/
def busyFile : Value := .obj
  [(.of "event_key", strOf "reminder.scheduled.triggered"), (.of "max_due_per_tick", .int 1),
    (.of "reminders", .arr [.obj [(.of "id", strOf "stand-up"), (.of "title", strOf "Stand-up"),
      (.of "text", strOf "Stand-up"), (.of "timezone", strOf "UTC"), (.of "kind", strOf "weekly"),
      (.of "weekdays", .arr [strOf "tuesday", strOf "wednesday"]),
        (.of "times", .arr [strOf "08:00"])]])]

omit [Stdlib] [Loads] in
/-- The library on the bytes of that file. -/
abbrev Loads.busy : Loads where
  loads _ := .ok busyFile

omit [Stdlib] [Loads] in
/-- Two minutes before eight on a Tuesday, and on the next day three minutes after eight. -/
def busyIterations : List Iteration :=
  [⟨.ok [], ⟨seconds 1789459080, by decide, fun _ => .delivered⟩⟩,
    ⟨.ok [], ⟨seconds 1789545780, by decide, fun _ => .delivered⟩⟩]

omit [Stdlib] [Loads] in
/-- What has ended the daemon. -/
def Process.exception? : Process → Option Raised
  | .serving _ => none
  | .ended _ e => some e

omit [Stdlib] [Loads] in
/-- After a day without a tick two reminders are due, and the refusal ends the daemon. -/
theorem serve_ends :
    let _ := Stdlib.sample
    let _ := Loads.busy
    (run serveStep (.serving {}) busyIterations).exception? =
      some (.tick (.runtimeError "too many due reminders; refusing an unbounded catch-up")) := rfl

end EventServer.ScheduledReminder
