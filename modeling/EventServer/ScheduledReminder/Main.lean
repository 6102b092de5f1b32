import EventServer.ScheduledReminder.Client
import EventServer.Lib.Runs

/-! # Every reminder once

`scheduled_reminder/main.py`: each tick publishes what has become due since the last tick that
succeeded, and gives up at the first call that fails. So a reminder may be sent again, but it has a
key of its own, and the server keeps one event for a key: after a tick that returns, the server
holds each occurrence since the first tick exactly once (`reminders_once`). -/

namespace EventServer.ScheduledReminder

open EventServer.Lib EventServer.Python

/-- A call of `run_once`: the time it is given, and how its calls of the server end. -/
structure Tick where
  now : Time
  now_range : InRange now
  calls : ℕ → Call

/-- The publisher and what the server holds. -/
structure State where
  lastCheckedAt : Option Time := none
  store : Events := .empty

variable [Stdlib]

/-- The order of `DueReminder`; equal occurrences are of one rule. -/
def DueReminder.before (d d' : DueReminder) : Bool :=
  d.scheduledFor < d'.scheduledFor ||
    (d.scheduledFor = d'.scheduledFor && d.reminderId ≤ d'.reminderId)

/-- The occurrences of all rules that are due. -/
def allDue (after until_ : Time) : List ReminderRule → Except TickError (List DueReminder)
  | [] => .ok []
  | rule :: rules => do
    let due ← dueBetween rule after until_
    let rest ← allDue after until_ rules
    .ok (due ++ rest)

/-- The loop over the occurrences, from the call number `i`. -/
def publishAll (config : ReminderConfig) (calls : ℕ → Call) :
    ℕ → List DueReminder → Events → Events × Except TickError Unit
  | _, [], store => (store, .ok ())
  | i, due :: rest, store =>
    match publish config store due (calls i) with
    | (store, .error e) => (store, .error e)
    | (store, .ok ()) => publishAll config calls (i + 1) rest store

def runOnce (file : Value) (st : State) (tick : Tick) : State × Except TickError ℕ :=
  match loadConfig file with
  | .error e => (st, .error (.config e))
  | .ok config =>
    match st.lastCheckedAt with
    | none => ({ st with lastCheckedAt := some tick.now }, .ok 0)
    | some after =>
      match allDue after tick.now config.rules with
      | .error e => (st, .error e)
      | .ok found =>
        let due := found.insertionSort fun d d' => d.before d'
        if due.length > config.maxDuePerTick then
          (st, .error (.runtimeError "too many due reminders; refusing an unbounded catch-up"))
        else
          match publishAll config tick.calls 0 due st.store with
          | (store, .error e) => ({ st with store := store }, .error e)
          | (store, .ok ()) =>
            ({ lastCheckedAt := some tick.now, store := store }, .ok due.length)

/-- The publisher and the server after a tick. -/
def next (file : Value) (st : State) (tick : Tick) : State := (runOnce file st tick).1

/-! ### Publishing a batch -/

omit [Stdlib] in
theorem mem_keep {store : Events} {request x : PublishRequest} (h : x ∈ keep store request) :
    x ∈ store ∨ x = request := by
  unfold keep at h
  cases hi : store.insert? request with
  | none =>
    rw [hi] at h
    exact Or.inl h
  | some store' =>
    rw [hi, Option.getD_some, ← Table.mem_rows, (Table.insert?_eq_some.mp hi).2.2, List.mem_append,
      List.mem_singleton] at h
    exact h

omit [Stdlib] in
theorem mem_keep_of_mem {store : Events} {request x : PublishRequest} (h : x ∈ store) :
    x ∈ keep store request := by
  unfold keep
  cases hi : store.insert? request with
  | none => exact h
  | some store' =>
    rw [Option.getD_some, ← Table.mem_rows, (Table.insert?_eq_some.mp hi).2.2, List.mem_append]
    exact Or.inl h

omit [Stdlib] in
theorem exists_mem_keep (store : Events) (request : PublishRequest) :
    ∃ x ∈ keep store request, x.dedupeKey = request.dedupeKey := by
  unfold keep
  cases hi : store.insert? request with
  | none =>
    obtain ⟨x, hx, hk⟩ | ⟨x, hx, hk⟩ := Table.insert?_eq_none.mp hi
    · exact ⟨x, hx, hk⟩
    · exact ⟨x, hx, hk⟩
  | some store' =>
    refine ⟨request, ?_, rfl⟩
    rw [Option.getD_some, ← Table.mem_rows, (Table.insert?_eq_some.mp hi).2.2]
    simp

/-- What a batch does to the store, whether it fails or not. -/
structure Published (config : ReminderConfig) (due : List DueReminder)
    (store store' : Events) : Prop
    where
  old : ∀ x ∈ store, x ∈ store'
  new : ∀ x ∈ store', x ∈ store ∨ ∃ d ∈ due, x = publishRequest config d

theorem published_keep {config : ReminderConfig} {d : DueReminder} {due : List DueReminder}
    {store : Events}
    (h : d ∈ due) : Published config due store (keep store (publishRequest config d)) :=
  ⟨fun _ hx => mem_keep_of_mem hx, fun _ hx => (mem_keep hx).imp_right fun he => ⟨d, h, he⟩⟩

theorem Published.trans {config : ReminderConfig} {due : List DueReminder} {s₁ s₂ s₃ : Events}
    (h : Published config due s₁ s₂) (h' : Published config due s₂ s₃) :
    Published config due s₁ s₃ :=
  ⟨fun x hx => h'.old x (h.old x hx), fun x hx => (h'.new x hx).elim (h.new x) Or.inr⟩

theorem published_publishAll (config : ReminderConfig) (calls : ℕ → Call) (i : ℕ)
    (due : List DueReminder) (store : Events) :
    Published config due store (publishAll config calls i due store).1 ∧
      ((publishAll config calls i due store).2 = .ok () → ∀ d ∈ due,
        ∃ x ∈ (publishAll config calls i due store).1,
          x.dedupeKey = (publishRequest config d).dedupeKey) := by
  induction due generalizing i store with
  | nil => exact ⟨⟨fun _ hx => hx, fun _ hx => Or.inl hx⟩, fun _ d hd => by cases hd⟩
  | cons d due ih =>
    unfold publishAll
    rcases publish_cases config store d (calls i) with ⟨e, -, hcall | hcall⟩ | hcall
    · rw [hcall]
      exact ⟨⟨fun _ hx => hx, fun _ hx => Or.inl hx⟩, fun h => by cases h⟩
    · rw [hcall]
      exact ⟨published_keep List.mem_cons_self, fun h => by cases h⟩
    · rw [hcall]
      obtain ⟨hrest, hall⟩ := ih (i + 1) (keep store (publishRequest config d))
      have hwider : Published config (d :: due) (keep store (publishRequest config d))
          (publishAll config calls (i + 1) due (keep store (publishRequest config d))).1 :=
        ⟨hrest.old, fun x hx => (hrest.new x hx).imp_right fun ⟨d', hd', he⟩ =>
          ⟨d', List.mem_cons_of_mem d hd', he⟩⟩
      refine ⟨(published_keep List.mem_cons_self).trans hwider, fun hok d' hd' => ?_⟩
      rcases List.mem_cons.mp hd' with rfl | hd'
      · obtain ⟨x, hx, hk⟩ := exists_mem_keep store (publishRequest config d')
        exact ⟨x, hrest.old x hx, hk⟩
      · exact hall hok d' hd'

theorem mem_allDue {after until_ : Time} {rules : List ReminderRule}
    (hplain : ∀ rule ∈ rules, rule.Plain) (hforward : ∀ rule ∈ rules, rule.timezone.Forward)
    {found : List DueReminder} (h : allDue after until_ rules = .ok found) (d : DueReminder) :
    d ∈ found ↔ ∃ rule ∈ rules, ∃ s, d = dueAt rule s ∧ Within after until_ s ∧
      Scheduled rule s := by
  induction rules generalizing found with
  | nil =>
    cases h
    simp
  | cons rule rules ih =>
    rw [List.forall_mem_cons] at hplain hforward
    unfold allDue at h
    simp only [bind_eq_ok] at h
    obtain ⟨due, hdue, rest, hrest, h⟩ := h
    cases h
    rw [List.mem_append, mem_dueBetween hplain.1 hforward.1 hdue, ih hplain.2 hforward.2 hrest,
      List.exists_mem_cons_iff]

/-! ### One tick -/

theorem dueAt_inj {config : ReminderConfig} {rule rule' : ReminderRule} (hr : rule ∈ config.rules)
    (hr' : rule' ∈ config.rules) {s s' : Time} (hs : InRange s) (hs' : InRange s')
    (h : dedupeKey rule.reminderId s = dedupeKey rule'.reminderId s') :
    dueAt rule s = dueAt rule' s' := by
  obtain ⟨hid, rfl⟩ := dedupeKey_inj rule.id_valid rule'.id_valid hs hs' h
  rw [List.inj_on_of_nodup_map config.ids_nodup hr hr' hid]

/-- The state between ticks, the first of which was at `t₀` and the last at `latest`: the server
holds the occurrences up to `checkedAt`, and no others than those up to `latest`. -/
structure Kept (config : ReminderConfig) (t₀ checkedAt latest : Time) (st : State) : Prop where
  cursor : st.lastCheckedAt = some checkedAt
  after_first : t₀ ≤ checkedAt
  before_last : checkedAt ≤ latest
  complete : ∀ rule ∈ config.rules, ∀ s, Within t₀ checkedAt s → Scheduled rule s →
    publishRequest config (dueAt rule s) ∈ st.store
  sound : ∀ x ∈ st.store, ∃ rule ∈ config.rules, ∃ s, Within t₀ latest s ∧ Scheduled rule s ∧
    x = publishRequest config (dueAt rule s)

theorem Kept.mono {config : ReminderConfig} {t₀ checkedAt latest latest' : Time} {st : State}
    (h : Kept config t₀ checkedAt latest st) (hl : latest ≤ latest') :
    Kept config t₀ checkedAt latest' st :=
  { h with
    before_last := h.before_last.trans hl
    sound := fun x hx =>
      have ⟨rule, hr, s, hw, hs, he⟩ := h.sound x hx
      ⟨rule, hr, s, ⟨hw.1, hw.2.trans hl⟩, hs, he⟩ }

section Tick

variable {file : Value} {config : ReminderConfig} {t₀ checkedAt latest : Time}
  {st : State} {tick : Tick}

/-- What a batch of the occurrences since `checkedAt` leaves in the store. -/
theorem Kept.published_sound (h : Kept config t₀ checkedAt latest st) (hl : latest ≤ tick.now)
    {due : List DueReminder} {store : Events} (hp : Published config due st.store store)
    (hdue : ∀ d ∈ due, ∃ rule ∈ config.rules, ∃ s, d = dueAt rule s ∧
      Within checkedAt tick.now s ∧ Scheduled rule s) :
    ∀ x ∈ store, ∃ rule ∈ config.rules, ∃ s, Within t₀ tick.now s ∧ Scheduled rule s ∧
      x = publishRequest config (dueAt rule s) := by
  intro x hx
  rcases hp.new x hx with hx | ⟨d, hd, rfl⟩
  · exact (h.mono hl).sound x hx
  · obtain ⟨rule, hr, s, rfl, hw, hs⟩ := hdue d hd
    exact ⟨rule, hr, s, ⟨h.after_first.trans_lt hw.1, hw.2⟩, hs, rfl⟩

/-- **A tick keeps the state in order**, and if it returns it has caught up. -/
theorem kept_runOnce (hload : loadConfig file = .ok config)
    (hplain : ∀ rule ∈ config.rules, rule.Plain)
    (hforward : ∀ rule ∈ config.rules, rule.timezone.Forward) (ht₀ : InRange t₀)
    (h : Kept config t₀ checkedAt latest st) (hl : latest ≤ tick.now) :
    ∃ checkedAt', Kept config t₀ checkedAt' tick.now (next file st tick) ∧
      ((runOnce file st tick).2.isOk = true → checkedAt' = tick.now) := by
  have hkeep := h.mono hl
  unfold next runOnce
  rw [hload]
  simp only [h.cursor]
  cases hall : allDue checkedAt tick.now config.rules with
  | error e => exact ⟨checkedAt, hkeep, fun hok => by cases hok⟩
  | ok found =>
    simp only
    split_ifs with hmax
    · exact ⟨checkedAt, hkeep, fun hok => by cases hok⟩
    · have hdue : ∀ d, d ∈ found.insertionSort (fun d d' => d.before d') ↔
          ∃ rule ∈ config.rules, ∃ s, d = dueAt rule s ∧ Within checkedAt tick.now s ∧
            Scheduled rule s := by
        intro d
        rw [List.mem_insertionSort, mem_allDue hplain hforward hall]
      generalize found.insertionSort (fun d d' => d.before d') = due at hdue ⊢
      obtain ⟨hp, hok⟩ := published_publishAll config tick.calls 0 due st.store
      have hsound := h.published_sound hl hp fun d hd => (hdue d).mp hd
      generalize publishAll config tick.calls 0 due st.store = r at hp hok hsound ⊢
      obtain ⟨store, res⟩ := r
      cases res with
      | error e =>
        refine ⟨checkedAt, ⟨rfl, h.after_first, hkeep.before_last, ?_, hsound⟩,
          fun hok => by cases hok⟩
        exact fun rule hr s hw hs => hp.old _ (h.complete rule hr s hw hs)
      | ok u =>
        refine ⟨tick.now, ⟨rfl, h.after_first.trans hkeep.before_last, le_refl _, ?_, hsound⟩,
          fun _ => rfl⟩
        intro rule hr s hw hs
        rcases le_or_gt s checkedAt with hle | hlt
        · exact hp.old _ (h.complete rule hr s ⟨hw.1, hle⟩ hs)
        · -- the server has an event with the key, and that is the request itself
          obtain ⟨x, hx, hk⟩ := hok rfl _ ((hdue _).mpr ⟨rule, hr, s, rfl, ⟨hlt, hw.2⟩, hs⟩)
          obtain ⟨rule', hr', s', hw', -, rfl⟩ := hsound x hx
          have hin : InRange s := ht₀.between tick.now_range hw.1.le hw.2
          have hin' : InRange s' := ht₀.between tick.now_range hw'.1.le hw'.2
          rw [dueAt_inj hr hr' hin hin' hk.symm]
          exact hx

theorem kept_first (hload : loadConfig file = .ok config) (first : Tick) :
    Kept config first.now first.now first.now (next file {} first) := by
  unfold next runOnce
  rw [hload]
  refine ⟨rfl, le_refl _, le_refl _, ?_, ?_⟩
  · rintro rule - s ⟨hlo, hhi⟩
    exact absurd hhi (not_le.mpr hlo)
  · intro x hx
    cases hx

/-! ### All ticks -/

/-- The run from a state in order, up to the latest of its ticks. -/
theorem kept_run (hload : loadConfig file = .ok config) (hplain : ∀ rule ∈ config.rules, rule.Plain)
    (hforward : ∀ rule ∈ config.rules, rule.timezone.Forward) (ht₀ : InRange t₀) {ticks : List Tick}
    (h : Kept config t₀ checkedAt latest st) (hl : ∀ tick ∈ ticks, latest ≤ tick.now)
    (hmono : ticks.Pairwise fun a b => a.now ≤ b.now) :
    ∃ checkedAt' latest', Kept config t₀ checkedAt' latest' (run (next file) st ticks) ∧
      (latest' = latest ∨ ∃ tick ∈ ticks, latest' = tick.now) := by
  induction ticks generalizing checkedAt latest st with
  | nil => exact ⟨checkedAt, latest, h, Or.inl rfl⟩
  | cons tick ticks ih =>
    rw [List.pairwise_cons] at hmono
    obtain ⟨c, hc, -⟩ := kept_runOnce hload hplain hforward ht₀ h (hl tick List.mem_cons_self)
    obtain ⟨c', latest', hc', hlast⟩ := ih hc hmono.1 hmono.2
    refine ⟨c', latest', hc', Or.inr ?_⟩
    rcases hlast with rfl | ⟨t, ht, rfl⟩
    · exact ⟨tick, List.mem_cons_self, rfl⟩
    · exact ⟨t, List.mem_cons_of_mem tick ht, rfl⟩

/-- **The state after each tick of a run.** -/
theorem kept_tick (hload : loadConfig file = .ok config)
    (hplain : ∀ rule ∈ config.rules, rule.Plain)
    (hforward : ∀ rule ∈ config.rules, rule.timezone.Forward) {first : Tick}
    {ticks pre post : List Tick} (hmono : (first :: ticks).Pairwise fun a b => a.now ≤ b.now)
    (he : first :: ticks = pre ++ tick :: post) :
    ∃ checkedAt, Kept config first.now checkedAt tick.now
        (next file (run (next file) {} pre) tick) ∧
      ((runOnce file (run (next file) {} pre) tick).2.isOk = true → checkedAt = tick.now) := by
  cases pre with
  | nil =>
    cases he
    exact ⟨tick.now, kept_first hload tick, fun _ => rfl⟩
  | cons _ pre =>
    rw [List.cons_append, List.cons.injEq] at he
    obtain ⟨rfl, rfl⟩ := he
    rw [List.pairwise_cons, List.pairwise_append] at hmono
    obtain ⟨hfirst, hpre, -, hbefore⟩ := hmono
    have hnow : first.now ≤ tick.now := hfirst tick (by simp)
    obtain ⟨c, latest, hc, hlast⟩ := kept_run hload hplain hforward first.now_range
      (kept_first hload first) (fun t ht => hfirst t (by simp [ht])) hpre
    have hle : latest ≤ tick.now := by
      rcases hlast with rfl | ⟨t, ht, rfl⟩
      · exact hnow
      · exact hbefore t ht tick (by simp)
    exact kept_runOnce hload hplain hforward first.now_range hc hle

end Tick

/-- The event tells of this occurrence of the reminder. -/
def PublishRequest.TellsOf (x : PublishRequest) (reminderId : String) (s : Time) : Prop :=
  x.data.lookup (.of "reminder_id") = some (strOf reminderId) ∧
    x.data.lookup (.of "scheduled_for") = some (strOf (scheduledAt s))

theorem tellsOf_iff {config : ReminderConfig} {rule : ReminderRule} {reminderId : String}
    {s s' : Time} (hs : InRange s) (hs' : InRange s') :
    (publishRequest config (dueAt rule s)).TellsOf reminderId s' ↔
      rule.reminderId = reminderId ∧ s = s' := by
  have hlookup : (publishRequest config (dueAt rule s)).TellsOf reminderId s' ↔
      rule.reminderId = reminderId ∧ scheduledAt s = scheduledAt s' := by
    have hid : (publishRequest config (dueAt rule s)).data.lookup (.of "reminder_id") =
        some (strOf rule.reminderId) := rfl
    have hfor : (publishRequest config (dueAt rule s)).data.lookup (.of "scheduled_for") =
        some (strOf (scheduledAt s)) := rfl
    rw [PublishRequest.TellsOf, hid, hfor, Option.some_inj, Option.some_inj, strOf_inj, strOf_inj]
  rw [hlookup]
  exact and_congr_right fun _ => ⟨scheduledAt_inj hs hs', congrArg scheduledAt⟩

/-- **Every reminder once.** For a configuration with plain times and time zones whose date does not
go backwards, and ticks one not before the other: after each tick the server holds only occurrences
after the first tick up to this one, and if the tick returns, each of them exactly once, whichever
calls have failed; and different occurrences have different keys. -/
theorem reminders_once {file : Value} {config : ReminderConfig}
    (hload : loadConfig file = .ok config) (hplain : ∀ rule ∈ config.rules, rule.Plain)
    (hforward : ∀ rule ∈ config.rules, rule.timezone.Forward) {first : Tick} {ticks : List Tick}
    (hmono : (first :: ticks).Pairwise fun a b => a.now ≤ b.now) :
    (∀ pre tick post, first :: ticks = pre ++ tick :: post →
      let r := runOnce file (run (next file) {} pre) tick
      (∀ n, r.2 = .ok n → ∀ rule ∈ config.rules, ∀ s, Within first.now tick.now s →
          Scheduled rule s → ∃! x, x ∈ r.1.store ∧ x.TellsOf rule.reminderId s) ∧
        ∀ x ∈ r.1.store, ∃ rule ∈ config.rules, ∃ s, Within first.now tick.now s ∧
          Scheduled rule s ∧ x = publishRequest config (dueAt rule s)) ∧
      ∀ rule ∈ config.rules, ∀ rule' ∈ config.rules, ∀ s s', InRange s → InRange s' →
        dedupeKey rule.reminderId s = dedupeKey rule'.reminderId s' →
          rule.reminderId = rule'.reminderId ∧ s = s' := by
  refine ⟨fun pre tick post he => ?_, fun rule _ rule' _ s s' hs hs' =>
    dedupeKey_inj rule.id_valid rule'.id_valid hs hs'⟩
  obtain ⟨checkedAt, hkept, hcaught⟩ := kept_tick hload hplain hforward hmono he
  refine ⟨fun n hn rule hr s hw hs => ?_, hkept.sound⟩
  obtain rfl := hcaught (by rw [hn]; rfl)
  have hin : ∀ s, Within first.now tick.now s → InRange s := fun s hw =>
    first.now_range.between tick.now_range hw.1.le hw.2
  refine ⟨publishRequest config (dueAt rule s), ⟨hkept.complete rule hr s hw hs, ?_⟩, ?_⟩
  · exact (tellsOf_iff (hin s hw) (hin s hw)).mpr ⟨rfl, rfl⟩
  · rintro x ⟨hx, htells⟩
    obtain ⟨rule', hr', s', hw', -, rfl⟩ := hkept.sound x hx
    obtain ⟨hid, rfl⟩ := (tellsOf_iff (hin s' hw') (hin s hw)).mp htells
    rw [List.inj_on_of_nodup_map config.ids_nodup hr' hr hid]

/-! ### A sample -/

omit [Stdlib] in
/-- The zone without an offset. -/
def sampleZone : ZoneInfo where
  key := "UTC"
  fromutc t := (t, false)
  utcoffset _ _ := 0
  fromutc_utcoffset _ := Int.sub_zero _

omit [Stdlib] in
/-- The library on the texts of the sample. -/
abbrev Stdlib.sample : Stdlib where
  isAlnum _ := false
  lower s := s
  timeFromIsoformat s := if s = .of "08:00" then some { hour := 8, minute := 0 } else none
  datetimeFromIsoformat _ := none
  zoneInfo key := if key = .of "UTC" then .ok sampleZone else .error .zoneInfoNotFoundError

omit [Stdlib] in
/-- On Wednesdays at eight. -/
def sampleFile : Value := .obj
  [(.of "event_key", strOf "reminder.scheduled.triggered"),
    (.of "reminders", .arr [.obj [(.of "id", strOf "stand-up"), (.of "title", strOf "Stand-up"),
      (.of "text", strOf "Stand-up"), (.of "timezone", strOf "UTC"), (.of "kind", strOf "weekly"),
      (.of "weekdays", .arr [strOf "wednesday"]), (.of "times", .arr [strOf "08:00"])]])]

omit [Stdlib] in
def sampleRule : @ReminderRule .sample :=
  @ReminderRule.weekly .sample
    (@WeeklyRule.mk .sample "stand-up" (.of "Stand-up") (.of "Stand-up") sampleZone [2]
      [{ hour := 8, minute := 0 }] (by decide))

omit [Stdlib] in
/-- Eight o'clock. -/
def sampleClock : Clock := { hour := 8, minute := 0 }

omit [Stdlib] in
/-- The rule of the sample as a weekly one. -/
def sampleWeekly : @WeeklyRule .sample :=
  @WeeklyRule.mk .sample "stand-up" (.of "Stand-up") (.of "Stand-up") sampleZone [2]
    [sampleClock] (by decide)

omit [Stdlib] in
def sampleConfig : @ReminderConfig .sample :=
  @ReminderConfig.mk .sample "reminder.scheduled.triggered" 1 [sampleRule] 100 (by decide)

omit [Stdlib] in
/-- A minute before eight, and one minute after; the call fails after the server has stored the
event. -/
def sampleTicks : List Tick :=
  [⟨seconds 1789545540, by decide, fun _ => .delivered⟩,
    ⟨seconds 1789545660, by decide, fun _ => .failedAfter⟩]

omit [Stdlib] in
theorem loadConfig_sample : @loadConfig .sample sampleFile = .ok sampleConfig := rfl

omit [Stdlib] in
/-- Two minutes after eight. -/
def sampleLast : Tick := ⟨seconds 1789545720, by decide, fun _ => .delivered⟩

omit [Stdlib] in
/-- The call that failed is made again by the last tick, and the server holds the event once. -/
theorem reminders_once_sample :
    let _ := Stdlib.sample
    ∃! x, x ∈ (run (next sampleFile) {} (sampleTicks ++ [sampleLast])).store ∧
      x.TellsOf "stand-up" (seconds 1789545600) := by
  intro _
  have hforward : ∀ rule ∈ sampleConfig.rules, rule.timezone.Forward := by
    intro rule hr
    rw [List.mem_singleton.mp hr]
    exact fun s s' h => Int.ediv_le_ediv (by decide) h
  have hplain : ∀ rule ∈ sampleConfig.rules, rule.Plain := by
    intro rule hr
    rw [List.mem_singleton.mp hr]
    intro time ht
    rw [List.mem_singleton.mp ht]
  have hmono : (sampleTicks ++ [sampleLast]).Pairwise fun a b => a.now ≤ b.now := by decide
  obtain ⟨hticks, -⟩ := reminders_once loadConfig_sample hplain hforward hmono
  obtain ⟨hall, -⟩ := hticks sampleTicks sampleLast [] rfl
  have hreturns : (runOnce sampleFile (run (next sampleFile) {} sampleTicks)
      sampleLast).2.toOption = some 1 := by decide +kernel
  rw [show run (next sampleFile) {} (sampleTicks ++ [sampleLast]) =
    (runOnce sampleFile (run (next sampleFile) {} sampleTicks) sampleLast).1
      from run_concat _ _ _ _]
  generalize runOnce sampleFile (run (next sampleFile) {} sampleTicks) sampleLast = r
    at hall hreturns ⊢
  have hone : r.2 = .ok 1 := by
    cases hr : r.2 with
    | error e =>
      rw [hr] at hreturns
      cases hreturns
    | ok n =>
      rw [hr] at hreturns
      cases hreturns
      rfl
  refine hall 1 hone sampleRule (List.mem_singleton.mpr rfl) (seconds 1789545600) ?_ ?_
  · exact ⟨by decide, by decide⟩
  · exact ⟨by decide, { hour := 8, minute := 0 }, List.mem_singleton.mpr rfl, by decide⟩

end EventServer.ScheduledReminder
