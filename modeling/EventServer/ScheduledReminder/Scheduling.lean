import EventServer.ScheduledReminder.Config
import EventServer.Lib.Except

/-! # When reminders are due

`scheduled_reminder/scheduling.py`: `dueBetween rule after until` lists the occurrences of a rule in
the half-open window from `after` to `until`. A weekly rule is looked for day by day on the wall
clock of its zone, where a time may exist twice or not at all; a periodic one is counted on from its
anchor. A `datetime` outside of the years 1 to 9999 raises an `OverflowError`.

`Scheduled rule s` says of an instant that it belongs to the rule's schedule, in terms of what a
clock on the wall shows then; `mem_dueBetween` says that nothing else is listed. -/

namespace EventServer.ScheduledReminder

open EventServer.Lib EventServer.Python

/-- What ends a tick. -/
inductive TickError where
  | config (e : ConfigError)
  | overflowError
  | runtimeError (message : String)
  | publishError
  /-- A payload whose texts hold surrogates is encoded. -/
  | unicodeEncodeError
  deriving DecidableEq

/-- A computed `datetime`. -/
def checked (t : Time) : Except TickError Time := if InRange t then .ok t else .error .overflowError

variable [Stdlib]

structure DueReminder where
  scheduledFor : Time
  reminderId : String
  rule : ReminderRule

/-- The occurrence of the rule at an instant. -/
def dueAt (rule : ReminderRule) (s : Time) : DueReminder := ⟨s, rule.reminderId, rule⟩

/-! ### Weekly rules -/

/-- `date.weekday()`. -/
def weekday (date : ℤ) : ℕ := ((date + epochOrdinal + 6) % 7).toNat

omit [Stdlib] in
/-- One round of the loop of `_valid_local_occurrences`: the instant of the wall clock `naive` with
this `fold`, if the wall clock shows `naive` then. A wall clock with an offset equals none
without. -/
def occurrence (zone : ZoneInfo) (naive : Time) (aware fold : Bool) :
    Except TickError (Option Time) := do
  let utc ← checked (naive - zone.utcoffset naive fold)
  let wall ← checked (zone.fromutc utc).1
  .ok (if wall = naive ∧ aware = false then some utc else none)

omit [Stdlib] in
def validLocalOccurrences (zone : ZoneInfo) (naive : Time) (aware : Bool) :
    Except TickError (List Time) := do
  let first ← occurrence zone naive aware false
  let second ← occurrence zone naive aware true
  .ok (first.toList ++ second.toList.filter (· ∉ first.toList))

/-- The loop over the times of one day. -/
def dayDue (rule : WeeklyRule) (after until_ : Time) (date : ℤ) :
    List Clock → Except TickError (List DueReminder)
  | [] => .ok []
  | time :: times => do
    let candidates ← validLocalOccurrences rule.timezone (date * day + time.micros)
      time.utcoffset.isSome
    let due := candidates.filter fun candidate => after < candidate ∧ candidate ≤ until_
    let rest ← dayDue rule after until_ date times
    .ok (due.map (dueAt (.weekly rule)) ++ rest)

/-- The body of the loop over the days. -/
def dateDue (rule : WeeklyRule) (after until_ : Time) (date : ℤ) :
    Except TickError (List DueReminder) :=
  if weekday date ∈ rule.weekdays then dayDue rule after until_ date rule.times else .ok []

/-- The loop over the days, of which there are `n` left. -/
def weeklyFrom (rule : WeeklyRule) (after until_ : Time) :
    ℕ → ℤ → Except TickError (List DueReminder)
  | 0, _ => .ok []
  | n + 1, date => do
    let due ← dateDue rule after until_ date
    let next ← checked ((date + 1) * day)
    let rest ← weeklyFrom rule after until_ n (next / day)
    .ok (due ++ rest)

def weeklyDue (rule : WeeklyRule) (after until_ : Time) : Except TickError (List DueReminder) := do
  let localAfter ← checked (rule.timezone.fromutc after).1
  let localUntil ← checked (rule.timezone.fromutc until_).1
  weeklyFrom rule after until_ (localUntil / day + 1 - localAfter / day).toNat (localAfter / day)

/-! ### Periodic rules -/

def IntervalRule.period (rule : IntervalRule) : ℤ := minutes rule.everyMinutes

/-- The loop of `_interval_due`, which is left after at most `n` rounds. -/
def intervalFrom (rule : IntervalRule) (anchor after until_ : Time) :
    ℕ → ℤ → Except TickError (List DueReminder)
  | 0, _ => .ok []
  | n + 1, index => do
    let candidate ← checked (anchor + index * rule.period)
    if candidate > until_ then .ok []
    else
      let rest ← intervalFrom rule anchor after until_ n (index + 1)
      .ok (if candidate > after then dueAt (.interval rule) candidate :: rest else rest)

def intervalDue (rule : IntervalRule) (after until_ : Time) :
    Except TickError (List DueReminder) := do
  let anchor ← checked rule.anchorAt
  if until_ < anchor then .ok []
  else
    let firstIndex := max 0 ((after - anchor) / rule.period + 1)
    intervalFrom rule anchor after until_
      ((until_ - anchor) / rule.period + 2 - firstIndex).toNat firstIndex

def dueBetween (rule : ReminderRule) (after until_ : Time) : Except TickError (List DueReminder) :=
  if until_ ≤ after then .ok []
  else
    match rule with
    | .weekly rule => weeklyDue rule after until_
    | .interval rule => intervalDue rule after until_

/-! ### The schedule -/

/-- The instant belongs to the schedule of the rule: the wall clock shows one of the times on one of
the weekdays, or a whole number of periods has passed since the anchor. -/
def Scheduled : ReminderRule → Time → Prop
  | .weekly rule, s =>
    weekday ((rule.timezone.fromutc s).1 / day) ∈ rule.weekdays ∧
      ∃ time ∈ rule.times, time.micros = (rule.timezone.fromutc s).1 % day
  | .interval rule, s => ∃ k : ℕ, s = rule.anchorAt + k * rule.period

/-- The date on the wall never goes backwards. -/
def ZoneInfo.Forward (zone : ZoneInfo) : Prop :=
  ∀ s s', s ≤ s' → (zone.fromutc s).1 / day ≤ (zone.fromutc s').1 / day

/-! ### What is listed -/

omit [Stdlib] in
theorem checked_eq_ok {t u : Time} : checked t = .ok u ↔ InRange t ∧ t = u := by
  unfold checked
  split_ifs with h <;> simp [h]

omit [Stdlib] in
theorem occurrence_ok {zone : ZoneInfo} {naive : Time} {aware fold : Bool} {r : Option Time}
    (h : occurrence zone naive aware fold = .ok r) (u : Time) :
    r = some u ↔ naive - zone.utcoffset naive fold = u ∧ (zone.fromutc u).1 = naive ∧
      aware = false := by
  unfold occurrence at h
  simp only [bind_eq_ok, checked_eq_ok] at h
  obtain ⟨utc, ⟨-, rfl⟩, wall, ⟨-, rfl⟩, h⟩ := h
  cases h
  constructor
  · intro h
    split_ifs at h with hw
    cases h
    exact ⟨rfl, hw⟩
  · rintro ⟨rfl, hw⟩
    rw [if_pos hw]

omit [Stdlib] in
/-- The instants listed for a wall-clock time are those at which the clock shows it. -/
theorem mem_validLocalOccurrences {zone : ZoneInfo} {naive : Time} {aware : Bool} {us : List Time}
    (h : validLocalOccurrences zone naive aware = .ok us) (u : Time) :
    u ∈ us ↔ (zone.fromutc u).1 = naive ∧ aware = false := by
  unfold validLocalOccurrences at h
  simp only [bind_eq_ok] at h
  obtain ⟨first, hfirst, second, hsecond, h⟩ := h
  cases h
  have hmem : u ∈ first.toList ++ second.toList.filter (· ∉ first.toList) ↔
      first = some u ∨ second = some u := by
    simp only [List.mem_append, List.mem_filter, Option.mem_toList, decide_eq_true_eq]
    by_cases hu : first = some u <;> simp [hu]
  rw [hmem, occurrence_ok hfirst, occurrence_ok hsecond]
  constructor
  · rintro (⟨-, hw⟩ | ⟨-, hw⟩) <;> exact hw
  · rintro ⟨rfl, rfl⟩
    have hback := zone.fromutc_utcoffset u
    cases hf : (zone.fromutc u).2 with
    | false => exact Or.inl ⟨by rw [← hf]; exact hback, rfl, rfl⟩
    | true => exact Or.inr ⟨by rw [← hf]; exact hback, rfl, rfl⟩

/-- The window of a tick. -/
def Within (after until_ s : Time) : Prop := after < s ∧ s ≤ until_

theorem mem_dayDue {rule : WeeklyRule} {after until_ : Time} {date : ℤ} {times : List Clock}
    {due : List DueReminder} (h : dayDue rule after until_ date times = .ok due) (d : DueReminder) :
    d ∈ due ↔ ∃ s, d = dueAt (.weekly rule) s ∧ Within after until_ s ∧
      ∃ time ∈ times, time.utcoffset = none ∧
        (rule.timezone.fromutc s).1 = date * day + time.micros := by
  induction times generalizing due with
  | nil =>
    cases h
    simp
  | cons time times ih =>
    unfold dayDue at h
    simp only [bind_eq_ok] at h
    obtain ⟨candidates, hc, rest, hrest, h⟩ := h
    cases h
    rw [List.mem_append, ih hrest, List.mem_map]
    constructor
    · rintro (⟨s, hs, rfl⟩ | ⟨s, rfl, hw, t, ht, hp⟩)
      · rw [List.mem_filter, mem_validLocalOccurrences hc, decide_eq_true_eq] at hs
        exact ⟨s, rfl, hs.2, time, by simp, by simpa using hs.1.2, hs.1.1⟩
      · exact ⟨s, rfl, hw, t, by simp [ht], hp⟩
    · rintro ⟨s, rfl, hw, t, ht, hn, hwall⟩
      rcases List.mem_cons.mp ht with rfl | ht
      · refine Or.inl ⟨s, ?_, rfl⟩
        rw [List.mem_filter, mem_validLocalOccurrences hc, decide_eq_true_eq]
        exact ⟨⟨hwall, by simp [hn]⟩, hw⟩
      · exact Or.inr ⟨s, rfl, hw, t, ht, hn, hwall⟩

omit [Stdlib] in
theorem wall_iff {wall date micros : ℤ} (h : 0 ≤ micros ∧ micros < day) :
    wall = date * day + micros ↔ wall / day = date ∧ micros = wall % day := by
  constructor
  · rintro rfl
    rw [Int.add_comm, Int.add_mul_ediv_right _ _ (by decide), Int.add_mul_emod_self_right,
      Int.ediv_eq_zero_of_lt h.1 h.2, Int.emod_eq_of_lt h.1 h.2]
    simp
  · rintro ⟨rfl, rfl⟩
    exact (Int.ediv_mul_add_emod wall day).symm

/-- The wall clock shows one of the times without an offset on one of the weekdays. -/
def WeeklyRule.Shows (rule : WeeklyRule) (s : Time) : Prop :=
  weekday ((rule.timezone.fromutc s).1 / day) ∈ rule.weekdays ∧
    ∃ time ∈ rule.times, time.utcoffset = none ∧ time.micros = (rule.timezone.fromutc s).1 % day

theorem WeeklyRule.shows_iff {rule : WeeklyRule}
    (hplain : ∀ time ∈ rule.times, time.utcoffset = none)
    (s : Time) : rule.Shows s ↔ Scheduled (.weekly rule) s := by
  constructor
  · rintro ⟨hday, time, ht, -, hmicros⟩
    exact ⟨hday, time, ht, hmicros⟩
  · rintro ⟨hday, time, ht, hmicros⟩
    exact ⟨hday, time, ht, hplain time ht, hmicros⟩

theorem mem_dateDue {rule : WeeklyRule} {after until_ : Time} {date : ℤ} {due : List DueReminder}
    (h : dateDue rule after until_ date = .ok due) (d : DueReminder) :
    d ∈ due ↔ ∃ s, d = dueAt (.weekly rule) s ∧ Within after until_ s ∧ rule.Shows s ∧
      (rule.timezone.fromutc s).1 / day = date := by
  unfold dateDue at h
  split_ifs at h with hday
  · rw [mem_dayDue h]
    constructor
    · rintro ⟨s, rfl, hw, time, ht, hn, hwall⟩
      obtain ⟨hdate, hmicros⟩ := (wall_iff time.micros_bounds).mp hwall
      exact ⟨s, rfl, hw, ⟨by rw [hdate]; exact hday, time, ht, hn, hmicros⟩, hdate⟩
    · rintro ⟨s, rfl, hw, ⟨-, time, ht, hn, hmicros⟩, hdate⟩
      exact ⟨s, rfl, hw, time, ht, hn, (wall_iff time.micros_bounds).mpr ⟨hdate, hmicros⟩⟩
  · cases h
    constructor
    · intro h
      cases h
    · rintro ⟨s, rfl, -, ⟨hmem, -⟩, hdate⟩
      rw [hdate] at hmem
      exact absurd hmem hday

theorem mem_weeklyFrom {rule : WeeklyRule} {after until_ : Time} {n : ℕ} {date : ℤ}
    {due : List DueReminder} (h : weeklyFrom rule after until_ n date = .ok due) (d : DueReminder) :
    d ∈ due ↔ ∃ s, d = dueAt (.weekly rule) s ∧ Within after until_ s ∧ rule.Shows s ∧
      date ≤ (rule.timezone.fromutc s).1 / day ∧ (rule.timezone.fromutc s).1 / day < date + n := by
  induction n generalizing date due with
  | zero =>
    cases h
    constructor
    · intro h
      cases h
    · rintro ⟨s, -, -, -, hlo, hhi⟩
      exact absurd hlo (not_le.mpr (by simpa using hhi))
  | succ n ih =>
    unfold weeklyFrom at h
    simp only [bind_eq_ok, checked_eq_ok] at h
    obtain ⟨dueThen, hdue, next, ⟨-, rfl⟩, rest, hrest, h⟩ := h
    cases h
    rw [Int.mul_ediv_cancel _ (by decide)] at hrest
    rw [List.mem_append, mem_dateDue hdue, ih hrest]
    -- the first date, or a later one
    have hsplit : ∀ x : ℤ, date ≤ x ∧ x < date + (n + 1 : ℕ) ↔
        x = date ∨ date + 1 ≤ x ∧ x < date + 1 + n := by
      intro x
      omega
    simp only [hsplit]
    constructor
    · rintro (⟨s, rfl, hw, hs, hdate⟩ | ⟨s, rfl, hw, hs, hdate⟩)
      · exact ⟨s, rfl, hw, hs, Or.inl hdate⟩
      · exact ⟨s, rfl, hw, hs, Or.inr hdate⟩
    · rintro ⟨s, rfl, hw, hs, hdate | hdate⟩
      · exact Or.inl ⟨s, rfl, hw, hs, hdate⟩
      · exact Or.inr ⟨s, rfl, hw, hs, hdate⟩

/-- Everything in the window falls on a date between those on the wall at its ends. -/
theorem mem_weeklyDue {rule : WeeklyRule} {after until_ : Time}
    (hplain : ∀ time ∈ rule.times, time.utcoffset = none) (hforward : rule.timezone.Forward)
    {due : List DueReminder} (h : weeklyDue rule after until_ = .ok due) (d : DueReminder) :
    d ∈ due ↔ ∃ s, d = dueAt (.weekly rule) s ∧ Within after until_ s ∧
      Scheduled (.weekly rule) s := by
  unfold weeklyDue at h
  simp only [bind_eq_ok, checked_eq_ok] at h
  obtain ⟨_, ⟨-, rfl⟩, _, ⟨-, rfl⟩, h⟩ := h
  rw [mem_weeklyFrom h]
  simp only [rule.shows_iff hplain]
  constructor
  · rintro ⟨s, rfl, hw, hs, -⟩
    exact ⟨s, rfl, hw, hs⟩
  · rintro ⟨s, rfl, hw, hs⟩
    have hlo := hforward after s hw.1.le
    have hhi := hforward s until_ hw.2
    have hcount : ∀ a b c : ℤ, a ≤ b → b ≤ c → b < a + (c + 1 - a).toNat := by
      intro a b c
      omega
    exact ⟨s, rfl, hw, hs, hlo, hcount _ _ _ hlo hhi⟩

/-! ### What is listed for a periodic rule -/

theorem IntervalRule.period_ge (rule : IntervalRule) : 1 ≤ rule.period := by
  have hpos := rule.period_pos
  unfold IntervalRule.period minutes seconds
  omega

theorem mem_intervalFrom {rule : IntervalRule} {anchor after until_ : ℤ} {n : ℕ} {index : ℤ}
    {due : List DueReminder} (h : intervalFrom rule anchor after until_ n index = .ok due)
    (d : DueReminder) :
    d ∈ due ↔ ∃ j, index ≤ j ∧ j < index + n ∧ d = dueAt (.interval rule)
      (anchor + j * rule.period) ∧
      Within after until_ (anchor + j * rule.period) := by
  have hp := rule.period_ge
  induction n generalizing index due with
  | zero =>
    cases h
    constructor
    · intro h
      cases h
    · rintro ⟨j, hlo, hhi, -⟩
      simp only [Nat.cast_zero] at hhi
      omega
  | succ n ih =>
    unfold intervalFrom at h
    simp only [bind_eq_ok, checked_eq_ok] at h
    obtain ⟨_, ⟨-, rfl⟩, h⟩ := h
    by_cases hlast : anchor + index * rule.period > until_
    · -- the later ones are after the window as well
      rw [if_pos hlast] at h
      cases h
      constructor
      · intro h
        cases h
      · rintro ⟨j, hlo, -, -, -, hin⟩
        have hmono : index * rule.period ≤ j * rule.period :=
          Int.mul_le_mul_of_nonneg_right hlo (by omega)
        have hle : anchor + j * rule.period ≤ until_ := hin
        omega
    · rw [if_neg hlast] at h
      simp only [bind_eq_ok] at h
      obtain ⟨rest, hrest, h⟩ := h
      cases h
      have hfirst : d ∈ (if anchor + index * rule.period > after
          then dueAt (.interval rule) (anchor + index * rule.period) :: rest else rest) ↔
          (d = dueAt (.interval rule) (anchor + index * rule.period) ∧
            Within after until_ (anchor + index * rule.period)) ∨ d ∈ rest := by
        unfold Within
        split_ifs with ha
        · rw [List.mem_cons]
          exact or_congr_left ⟨fun he => ⟨he, ha, not_lt.mp hlast⟩, And.left⟩
        · exact ⟨Or.inr, fun he => he.resolve_left fun hd => ha hd.2.1⟩
      refine hfirst.trans ((or_congr_right (ih hrest)).trans ?_)
      constructor
      · rintro (⟨rfl, hw⟩ | ⟨j, hlo, hhi, rfl, hw⟩)
        · exact ⟨index, le_refl index, by omega, rfl, hw⟩
        · exact ⟨j, by omega, by push_cast; omega, rfl, hw⟩
      · rintro ⟨j, hlo, hhi, rfl, hw⟩
        rcases Int.lt_or_eq_of_le hlo with hlt | rfl
        · exact Or.inr ⟨j, hlt, by push_cast at hhi; omega, rfl, hw⟩
        · exact Or.inl ⟨rfl, hw⟩

theorem mem_intervalDue {rule : IntervalRule} {after until_ : ℤ} {due : List DueReminder}
    (h : intervalDue rule after until_ = .ok due) (d : DueReminder) :
    d ∈ due ↔ ∃ s, d = dueAt (.interval rule) s ∧ Within after until_ s ∧
      Scheduled (.interval rule) s := by
  have hp := rule.period_ge
  unfold intervalDue at h
  simp only [bind_eq_ok, checked_eq_ok] at h
  obtain ⟨_, ⟨-, rfl⟩, h⟩ := h
  split_ifs at h with hbefore
  · cases h
    constructor
    · intro h
      cases h
    · rintro ⟨s, -, hw, k, rfl⟩
      have hk : 0 ≤ (k : ℤ) * rule.period := Int.mul_nonneg (by omega) (by omega)
      have hle : until_ ≥ rule.anchorAt + k * rule.period := hw.2
      have hlt : until_ < rule.anchorAt := hbefore
      omega
  · rw [mem_intervalFrom h]
    constructor
    · rintro ⟨j, hlo, -, rfl, hw⟩
      exact ⟨_, rfl, hw, j.toNat, by rw [Int.toNat_of_nonneg (by omega)]⟩
    · rintro ⟨s, rfl, hw, k, rfl⟩
      refine ⟨k, ?_, ?_, rfl, hw⟩
      · have hlo : (after - rule.anchorAt) / rule.period < k := by
          rw [Int.ediv_lt_iff_lt_mul (by omega)]
          have hlt : after < rule.anchorAt + k * rule.period := hw.1
          omega
        omega
      · have hhi : (k : ℤ) ≤ (until_ - rule.anchorAt) / rule.period := by
          rw [Int.le_ediv_iff_mul_le (by omega)]
          have hle : until_ ≥ rule.anchorAt + k * rule.period := hw.2
          omega
        omega

/-- **The occurrences of a rule that are due are those of its schedule in the window.** -/
theorem mem_dueBetween {rule : ReminderRule} {after until_ : Time} (hplain : rule.Plain)
    (hforward : rule.timezone.Forward) {due : List DueReminder}
    (h : dueBetween rule after until_ = .ok due) (d : DueReminder) :
    d ∈ due ↔ ∃ s, d = dueAt rule s ∧ Within after until_ s ∧ Scheduled rule s := by
  unfold dueBetween at h
  split_ifs at h with hempty
  · cases h
    constructor
    · intro h
      cases h
    · rintro ⟨s, -, hw, -⟩
      exact absurd (hw.1.trans_le hw.2) (not_lt.mpr hempty)
  · cases rule with
    | weekly rule => exact mem_weeklyDue hplain hforward h d
    | interval rule => exact mem_intervalDue h d

end EventServer.ScheduledReminder
