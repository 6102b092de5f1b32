import EventServer.ScheduledReminder.Scheduling

/-! # When the schedule cannot be computed, and how much of it is due

Every `datetime` that `due_between` computes has to lie in the years 1 to 9999; `InCalendar` says so
of the wall clocks and instants it looks at, and otherwise an `OverflowError` is raised
(`succeeds_dueBetween`). What is listed then are the instants of `Listed`, each of them once
(`nodup_dueBetween`). -/

namespace EventServer.ScheduledReminder

open EventServer.Lib EventServer.Python

/-! ### What is looked at -/

/-- The instant of a wall clock with this `fold`, and the wall clock then, are `datetime`s. -/
def ZoneInfo.Representable (zone : ZoneInfo) (naive : Time) (fold : Bool) : Prop :=
  InRange (naive - zone.utcoffset naive fold) ∧
    InRange (zone.fromutc (naive - zone.utcoffset naive fold)).1

theorem succeeds_checked {t : Time} : Succeeds (checked t) ↔ InRange t := by
  unfold checked
  split_ifs with h <;> simp [h]

theorem raisesOnly_checked (t : Time) : RaisesOnly .overflowError (checked t) := by
  intro e h
  unfold checked at h
  split_ifs at h
  cases h
  rfl

theorem succeeds_occurrence {zone : ZoneInfo} {naive : Time} {aware fold : Bool} :
    Succeeds (occurrence zone naive aware fold) ↔ zone.Representable naive fold := by
  unfold occurrence ZoneInfo.Representable
  rw [succeeds_bind]
  simp only [checked_eq_ok, succeeds_bind, succeeds_ok, and_true]
  constructor
  · rintro ⟨_, ⟨hutc, rfl⟩, _, hwall, -⟩
    exact ⟨hutc, hwall⟩
  · rintro ⟨hutc, hwall⟩
    exact ⟨_, ⟨hutc, rfl⟩, _, hwall, rfl⟩

theorem raisesOnly_occurrence (zone : ZoneInfo) (naive : Time) (aware fold : Bool) :
    RaisesOnly .overflowError (occurrence zone naive aware fold) :=
  raises_bind (raisesOnly_checked _) fun _ _ =>
    raises_bind (raisesOnly_checked _) fun _ _ => raises_ok _

theorem succeeds_validLocalOccurrences {zone : ZoneInfo} {naive : Time} {aware : Bool} :
    Succeeds (validLocalOccurrences zone naive aware) ↔ ∀ fold, zone.Representable naive fold := by
  unfold validLocalOccurrences
  rw [succeeds_bind_iff fun _ _ => succeeds_bind_iff fun _ _ => iff_true_intro (succeeds_ok _),
    succeeds_occurrence, succeeds_occurrence, and_true, Bool.forall_bool]

theorem raisesOnly_validLocalOccurrences (zone : ZoneInfo) (naive : Time) (aware : Bool) :
    RaisesOnly .overflowError (validLocalOccurrences zone naive aware) :=
  raises_bind (raisesOnly_occurrence _ _ _ _) fun _ _ =>
    raises_bind (raisesOnly_occurrence _ _ _ _) fun _ _ => raises_ok _

variable [Stdlib]

/-- What a weekly rule looks at on a date: its times, if it looks at the weekday, and the next
date. -/
structure DateInCalendar (rule : WeeklyRule) (date : ℤ) : Prop where
  times : weekday date ∈ rule.weekdays → ∀ time ∈ rule.times, ∀ fold,
    rule.timezone.Representable (date * day + time.micros) fold
  next : InRange ((date + 1) * day)

/-- Everything that is looked at in the window lies in the years 1 to 9999: for a weekly rule the
wall clock at its ends and the dates between them, for a periodic one the anchor and, unless it is
later than the window, the first instant after the window. -/
def InCalendar : ReminderRule → Time → Time → Prop
  | .weekly rule, after, until_ =>
    InRange (rule.timezone.fromutc after).1 ∧ InRange (rule.timezone.fromutc until_).1 ∧
      ∀ date, (rule.timezone.fromutc after).1 / day ≤ date →
        date ≤ (rule.timezone.fromutc until_).1 / day → DateInCalendar rule date
  | .interval rule, _, until_ =>
    InRange rule.anchorAt ∧ (rule.anchorAt ≤ until_ →
      InRange (rule.anchorAt + ((until_ - rule.anchorAt) / rule.period + 1) * rule.period))

/-! ### Weekly rules -/

section Weekly

variable {rule : WeeklyRule} {after until_ : Time}

theorem succeeds_dayDue {date : ℤ} {times : List Clock} :
    Succeeds (dayDue rule after until_ date times) ↔ ∀ time ∈ times, ∀ fold,
      rule.timezone.Representable (date * day + time.micros) fold := by
  induction times with
  | nil => simp [dayDue]
  | cons time times ih =>
    unfold dayDue
    rw [succeeds_bind_iff fun _ _ => succeeds_bind_iff fun _ _ => iff_true_intro (succeeds_ok _),
      succeeds_validLocalOccurrences, ih, and_true, List.forall_mem_cons]

theorem raisesOnly_dayDue (date : ℤ) (times : List Clock) :
    RaisesOnly .overflowError (dayDue rule after until_ date times) := by
  induction times with
  | nil => exact raises_ok _
  | cons time times ih =>
    exact raises_bind (raisesOnly_validLocalOccurrences _ _ _) fun _ _ =>
      raises_bind ih fun _ _ => raises_ok _

theorem succeeds_dateDue {date : ℤ} :
    Succeeds (dateDue rule after until_ date) ↔ (weekday date ∈ rule.weekdays →
      ∀ time ∈ rule.times, ∀ fold,
        rule.timezone.Representable (date * day + time.micros) fold) := by
  unfold dateDue
  by_cases hday : weekday date ∈ rule.weekdays
  · rw [if_pos hday, succeeds_dayDue]
    exact ⟨fun h _ => h, fun h => h hday⟩
  · rw [if_neg hday]
    exact ⟨fun _ h => absurd h hday, fun _ => succeeds_ok _⟩

theorem raisesOnly_dateDue (date : ℤ) :
    RaisesOnly .overflowError (dateDue rule after until_ date) := by
  unfold dateDue
  split_ifs
  · exact raisesOnly_dayDue _ _
  · exact raises_ok _

theorem succeeds_weeklyFrom {n : ℕ} {date : ℤ} :
    Succeeds (weeklyFrom rule after until_ n date) ↔
      ∀ d, date ≤ d → d < date + n → DateInCalendar rule d := by
  induction n generalizing date with
  | zero =>
    refine iff_of_true (succeeds_ok _) fun d hlo hhi => ?_
    rw [Nat.cast_zero, Int.add_zero] at hhi
    exact absurd hlo (not_le.mpr hhi)
  | succ n ih =>
    have hnext : ∀ next, checked ((date + 1) * day) = .ok next → next / day = date + 1 := by
      intro next h
      obtain ⟨-, rfl⟩ := checked_eq_ok.mp h
      exact Int.mul_ediv_cancel _ (by decide)
    have hloop : Succeeds (weeklyFrom rule after until_ (n + 1) date) ↔
        DateInCalendar rule date ∧ ∀ d, date + 1 ≤ d → d < date + 1 + n →
          DateInCalendar rule d := by
      unfold weeklyFrom
      rw [succeeds_bind_iff fun _ _ => succeeds_bind_iff fun next h => ?_, succeeds_dateDue,
        succeeds_checked, ← and_assoc]
      · exact and_congr_left fun _ => ⟨fun h => ⟨h.1, h.2⟩, fun h => ⟨h.1, h.2⟩⟩
      · rw [succeeds_bind_iff fun _ _ => iff_true_intro (succeeds_ok _), and_true, hnext next h]
        exact ih
    rw [hloop]
    constructor
    · rintro ⟨hfirst, hrest⟩ d hlo hhi
      rcases Int.lt_or_eq_of_le hlo with hlt | rfl
      · exact hrest d hlt (by push_cast at hhi; omega)
      · exact hfirst
    · intro h
      refine ⟨h date (le_refl _) (by push_cast; omega), fun d hlo hhi => h d (by omega) ?_⟩
      push_cast
      omega

theorem raisesOnly_weeklyFrom (n : ℕ) (date : ℤ) :
    RaisesOnly .overflowError (weeklyFrom rule after until_ n date) := by
  induction n generalizing date with
  | zero => exact raises_ok _
  | succ n ih =>
    exact raises_bind (raisesOnly_dateDue _) fun _ _ =>
      raises_bind (raisesOnly_checked _) fun _ _ =>
        raises_bind (ih _) fun _ _ => raises_ok _

theorem succeeds_weeklyDue :
    Succeeds (weeklyDue rule after until_) ↔ InCalendar (.weekly rule) after until_ := by
  have hcount : ∀ a b d : ℤ, a ≤ d → (d < a + (b + 1 - a).toNat ↔ d ≤ b) := by
    intro a b d
    omega
  unfold weeklyDue InCalendar
  rw [succeeds_bind]
  simp only [checked_eq_ok, succeeds_bind]
  constructor
  · rintro ⟨_, ⟨hafter, rfl⟩, _, ⟨huntil, rfl⟩, h⟩
    rw [succeeds_weeklyFrom] at h
    exact ⟨hafter, huntil, fun date hlo hhi => h date hlo ((hcount _ _ _ hlo).mpr hhi)⟩
  · rintro ⟨hafter, huntil, h⟩
    refine ⟨_, ⟨hafter, rfl⟩, _, ⟨huntil, rfl⟩, ?_⟩
    rw [succeeds_weeklyFrom]
    exact fun date hlo hhi => h date hlo ((hcount _ _ _ hlo).mp hhi)

end Weekly

/-! ### Periodic rules -/

section Interval

variable {rule : IntervalRule} {anchor after until_ : ℤ}

/-- The loop computes the first instant after the window, and the others are before it. -/
theorem succeeds_intervalFrom (hanchor : InRange anchor) {n : ℕ} {index : ℤ} (h0 : 0 ≤ index)
    (hle : index ≤ (until_ - anchor) / rule.period + 1)
    (hn : (n : ℤ) = (until_ - anchor) / rule.period + 2 - index) :
    Succeeds (intervalFrom rule anchor after until_ n index) ↔
      InRange (anchor + ((until_ - anchor) / rule.period + 1) * rule.period) := by
  have hp := rule.period_ge
  induction n generalizing index with
  | zero => omega
  | succ n ih =>
    unfold intervalFrom
    rw [succeeds_bind]
    simp only [checked_eq_ok]
    rcases Int.lt_or_eq_of_le hle with hlt | rfl
    · -- the candidate is not after the window
      have hmul : index * rule.period ≤ (until_ - anchor) / rule.period * rule.period :=
        Int.mul_le_mul_of_nonneg_right (by omega) (by omega)
      have hdiv := Int.ediv_mul_le (until_ - anchor) (b := rule.period) (by omega)
      have hnot : ¬ anchor + index * rule.period > until_ := by
        have hcand : index * rule.period ≤ until_ - anchor := hmul.trans hdiv
        omega
      have hrest : Succeeds (intervalFrom rule anchor after until_ n (index + 1)) ↔
          InRange (anchor + ((until_ - anchor) / rule.period + 1) * rule.period) :=
        ih (by omega) (by omega) (by push_cast at hn; omega)
      have hbody : Succeeds (do
          let rest ← intervalFrom rule anchor after until_ n (index + 1)
          (.ok (if anchor + index * rule.period > after then
            dueAt (.interval rule) (anchor + index * rule.period) :: rest else rest) :
              Except TickError (List DueReminder))) ↔
          InRange (anchor + ((until_ - anchor) / rule.period + 1) * rule.period) := by
        rw [succeeds_bind_iff fun _ _ => iff_true_intro (succeeds_ok _), and_true]
        exact hrest
      constructor
      · rintro ⟨_, ⟨-, rfl⟩, h⟩
        rw [if_neg hnot] at h
        exact hbody.mp h
      · intro hlast
        have hnonneg : 0 ≤ index * rule.period := Int.mul_nonneg h0 (by omega)
        have hmul' : index * rule.period ≤ ((until_ - anchor) / rule.period + 1) * rule.period :=
          Int.mul_le_mul_of_nonneg_right hle (by omega)
        have hge : anchor ≤ anchor + index * rule.period := by omega
        have hin : InRange (anchor + index * rule.period) :=
          hanchor.between hlast hge (Int.add_le_add_left hmul' anchor)
        refine ⟨_, ⟨hin, rfl⟩, ?_⟩
        rw [if_neg hnot]
        exact hbody.mpr hlast
    · -- the candidate is the first one after the window
      have hlt := Int.lt_ediv_add_one_mul_self (until_ - anchor) (b := rule.period) (by omega)
      have hlast : anchor + ((until_ - anchor) / rule.period + 1) * rule.period > until_ := by
        omega
      constructor
      · rintro ⟨_, ⟨hin, rfl⟩, -⟩
        exact hin
      · intro hin
        refine ⟨_, ⟨hin, rfl⟩, ?_⟩
        rw [if_pos hlast]
        exact succeeds_ok _

theorem raisesOnly_intervalFrom (n : ℕ) (index : ℤ) :
    RaisesOnly .overflowError (intervalFrom rule anchor after until_ n index) := by
  induction n generalizing index with
  | zero => exact raises_ok _
  | succ n ih =>
    refine raises_bind (raisesOnly_checked _) fun candidate _ => ?_
    by_cases hlast : candidate > until_
    · rw [if_pos hlast]
      exact raises_ok _
    · rw [if_neg hlast]
      exact raises_bind (ih _) fun _ _ => raises_ok _

theorem succeeds_intervalDue_from (h : after < until_) (hanchor : InRange anchor) :
    Succeeds (if until_ < anchor then .ok [] else
      intervalFrom rule anchor after until_
        ((until_ - anchor) / rule.period + 2 - max 0 ((after - anchor) / rule.period + 1)).toNat
        (max 0 ((after - anchor) / rule.period + 1))) ↔
      (anchor ≤ until_ →
        InRange (anchor + ((until_ - anchor) / rule.period + 1) * rule.period)) := by
  have hp := rule.period_ge
  by_cases hbefore : until_ < anchor
  · rw [if_pos hbefore]
    exact ⟨fun _ hle => absurd hle (not_le.mpr hbefore), fun _ => succeeds_ok _⟩
  · rw [if_neg hbefore]
    have hle : anchor ≤ until_ := not_lt.mp hbefore
    have hquot : (after - anchor) / rule.period ≤ (until_ - anchor) / rule.period :=
      Int.ediv_le_ediv (by omega) (by omega)
    have hnonneg : 0 ≤ (until_ - anchor) / rule.period := Int.ediv_nonneg (by omega) (by omega)
    rw [succeeds_intervalFrom hanchor (le_max_left _ _) (by omega) (by omega)]
    exact ⟨fun h _ => h, fun h => h hle⟩

theorem succeeds_intervalDue (h : after < until_) :
    Succeeds (intervalDue rule after until_) ↔ InCalendar (.interval rule) after until_ := by
  unfold intervalDue InCalendar
  rw [succeeds_bind]
  simp only [checked_eq_ok]
  constructor
  · rintro ⟨_, ⟨hanchor, rfl⟩, hrest⟩
    exact ⟨hanchor, (succeeds_intervalDue_from h hanchor).mp hrest⟩
  · rintro ⟨hanchor, hrest⟩
    exact ⟨_, ⟨hanchor, rfl⟩, (succeeds_intervalDue_from h hanchor).mpr hrest⟩

end Interval

/-! ### Any rule -/

/-- **The schedule can be computed** exactly if what is looked at lies in the years 1 to 9999. -/
theorem succeeds_dueBetween {rule : ReminderRule} {after until_ : Time} :
    Succeeds (dueBetween rule after until_) ↔ (after < until_ → InCalendar rule after until_) := by
  unfold dueBetween
  by_cases hempty : until_ ≤ after
  · rw [if_pos hempty]
    exact ⟨fun _ hlt => absurd hlt (not_lt.mpr hempty), fun _ => succeeds_ok _⟩
  · rw [if_neg hempty]
    have hlt : after < until_ := not_le.mp hempty
    rw [forall_prop_of_true hlt]
    cases rule with
    | weekly rule => exact succeeds_weeklyDue
    | interval rule => exact succeeds_intervalDue hlt

theorem raisesOnly_dueBetween (rule : ReminderRule) (after until_ : Time) :
    RaisesOnly .overflowError (dueBetween rule after until_) := by
  unfold dueBetween
  split_ifs
  · exact raises_ok _
  · cases rule with
    | weekly rule =>
      exact raises_bind (raisesOnly_checked _) fun _ _ =>
        raises_bind (raisesOnly_checked _) fun _ _ => raisesOnly_weeklyFrom _ _
    | interval rule =>
      refine raises_bind (raisesOnly_checked _) fun anchor _ => ?_
      by_cases hbefore : until_ < anchor
      · rw [if_pos hbefore]
        exact raises_ok _
      · rw [if_neg hbefore]
        exact raisesOnly_intervalFrom _ _

/-! ### What is due -/

/-- The instant is listed: it belongs to the schedule, and for a weekly rule its date is between
those on the wall at the ends of the window. -/
def Listed : ReminderRule → Time → Time → Time → Prop
  | .weekly rule, after, until_, s =>
    Within after until_ s ∧ rule.Shows s ∧
      (rule.timezone.fromutc after).1 / day ≤ (rule.timezone.fromutc s).1 / day ∧
      (rule.timezone.fromutc s).1 / day ≤ (rule.timezone.fromutc until_).1 / day
  | .interval rule, after, until_, s => Within after until_ s ∧ Scheduled (.interval rule) s

theorem Listed.within {rule : ReminderRule} {after until_ s : Time}
    (h : Listed rule after until_ s) :
    Within after until_ s := by
  cases rule with
  | weekly rule => exact h.1
  | interval rule => exact h.1

/-- **The instants of `Listed` are due**, and no others. -/
theorem mem_dueBetween_iff {rule : ReminderRule} {after until_ : Time} {due : List DueReminder}
    (h : dueBetween rule after until_ = .ok due) (d : DueReminder) :
    d ∈ due ↔ ∃ s, d = dueAt rule s ∧ Listed rule after until_ s := by
  unfold dueBetween at h
  split_ifs at h with hempty
  · cases h
    have hnone : ∀ s, ¬ Within after until_ s := fun s hw =>
      absurd (hw.1.trans_le hw.2) (not_lt.mpr hempty)
    constructor
    · intro h
      cases h
    · rintro ⟨s, -, hlisted⟩
      exact absurd hlisted.within (hnone s)
  · cases rule with
    | weekly rule =>
      simp only [weeklyDue, bind_eq_ok, checked_eq_ok] at h
      obtain ⟨_, ⟨-, rfl⟩, _, ⟨-, rfl⟩, h⟩ := h
      have hcount : ∀ a b c : ℤ, a ≤ b → (b < a + (c + 1 - a).toNat ↔ b ≤ c) := by
        intro a b c
        omega
      rw [mem_weeklyFrom h]
      constructor
      · rintro ⟨s, rfl, hw, hs, hlo, hhi⟩
        exact ⟨s, rfl, hw, hs, hlo, (hcount _ _ _ hlo).mp hhi⟩
      · rintro ⟨s, rfl, hw, hs, hlo, hhi⟩
        exact ⟨s, rfl, hw, hs, hlo, (hcount _ _ _ hlo).mpr hhi⟩
    | interval rule => exact mem_intervalDue h d

theorem inRange_of_listed {rule : ReminderRule} {after until_ s : Time}
    (hcalendar : InCalendar rule after until_) (h : Listed rule after until_ s) : InRange s := by
  cases rule with
  | weekly rule =>
    obtain ⟨-, ⟨hweekday, time, htime, -, hmicros⟩, hlo, hhi⟩ := h
    have hdate := (hcalendar.2.2 _ hlo hhi).times hweekday time htime (rule.timezone.fromutc s).2
    rw [← (wall_iff time.micros_bounds).mpr ⟨rfl, hmicros⟩] at hdate
    have hs := hdate.1
    rw [rule.timezone.fromutc_utcoffset s] at hs
    exact hs
  | interval rule =>
    obtain ⟨hwithin, k, rfl⟩ := h
    have hp := rule.period_ge
    have hk : 0 ≤ (k : ℤ) * rule.period := Int.mul_nonneg (by omega) (by omega)
    have hge : rule.anchorAt ≤ rule.anchorAt + k * rule.period := Int.le_add_of_nonneg_right hk
    have hend := hcalendar.2 (hge.trans hwithin.2)
    have hpos : 0 < rule.period := by omega
    have hlast : until_ < rule.anchorAt +
        ((until_ - rule.anchorAt) / rule.period + 1) * rule.period :=
      Int.lt_add_of_sub_left_lt (Int.lt_ediv_add_one_mul_self _ hpos)
    exact hcalendar.1.between hend hge (hwithin.2.trans hlast.le)

/-- **The occurrences are `datetime`s.** -/
theorem inRange_of_mem_dueBetween {rule : ReminderRule} {after until_ : Time}
    {due : List DueReminder} (h : dueBetween rule after until_ = .ok due) :
    ∀ d ∈ due, ∃ s, d = dueAt rule s ∧ InRange s := by
  intro d hd
  obtain ⟨s, rfl, hlisted⟩ := (mem_dueBetween_iff h d).mp hd
  have hwithin := hlisted.within
  have hcalendar := succeeds_dueBetween.mp ⟨due, h⟩ (hwithin.1.trans_le hwithin.2)
  exact ⟨s, rfl, inRange_of_listed hcalendar hlisted⟩

/-- No two times of the rule are the same time of the day. -/
def ReminderRule.DistinctTimes : ReminderRule → Prop
  | .weekly rule => rule.times.Pairwise fun c c' =>
    c.utcoffset = none → c'.utcoffset = none → c.micros ≠ c'.micros
  | .interval _ => True

theorem dueAt_inj_right {rule : ReminderRule} {s s' : Time} (h : dueAt rule s = dueAt rule s') :
    s = s' := congrArg DueReminder.scheduledFor h

omit [Stdlib] in
theorem nodup_validLocalOccurrences {zone : ZoneInfo} {naive : Time} {aware : Bool} {us : List Time}
    (h : validLocalOccurrences zone naive aware = .ok us) : us.Nodup := by
  unfold validLocalOccurrences at h
  simp only [bind_eq_ok] at h
  obtain ⟨first, -, second, -, h⟩ := h
  cases h
  have hoption : ∀ o : Option Time, o.toList.Nodup := by
    intro o
    cases o <;> simp
  rw [List.nodup_append]
  refine ⟨hoption first, (hoption second).filter _, fun u hu u' hu' he => ?_⟩
  have hnot := (List.mem_filter.mp hu').2
  rw [decide_eq_true_eq] at hnot
  exact hnot (he ▸ hu)

theorem nodup_dayDue {rule : WeeklyRule} {after until_ : Time} {date : ℤ} {times : List Clock}
    (hdistinct : times.Pairwise fun c c' =>
      c.utcoffset = none → c'.utcoffset = none → c.micros ≠ c'.micros)
    {due : List DueReminder} (h : dayDue rule after until_ date times = .ok due) : due.Nodup := by
  induction times generalizing due with
  | nil =>
    cases h
    exact List.nodup_nil
  | cons time times ih =>
    rw [List.pairwise_cons] at hdistinct
    unfold dayDue at h
    simp only [bind_eq_ok] at h
    obtain ⟨candidates, hc, rest, hrest, h⟩ := h
    cases h
    rw [List.nodup_append]
    refine ⟨?_, ih hdistinct.2 hrest, fun d hd d' hd' he => ?_⟩
    · exact ((nodup_validLocalOccurrences hc).filter _).map fun _ _ => dueAt_inj_right
    · -- the wall clock shows one time only
      obtain ⟨s, hs, rfl⟩ := List.mem_map.mp hd
      obtain ⟨hwall, haware⟩ := (mem_validLocalOccurrences hc s).mp (List.mem_filter.mp hs).1
      obtain ⟨s', rfl, -, time', ht', hn', hwall'⟩ := (mem_dayDue hrest d').mp hd'
      have hsame : s = s' := dueAt_inj_right he
      rw [← hsame, hwall] at hwall'
      have hn : time.utcoffset = none := by simpa using haware
      exact hdistinct.1 time' ht' hn hn' (Int.add_left_cancel hwall')

theorem nodup_weeklyFrom {rule : WeeklyRule} {after until_ : Time}
    (hdistinct : (ReminderRule.weekly rule).DistinctTimes) {n : ℕ} {date : ℤ}
    {due : List DueReminder} (h : weeklyFrom rule after until_ n date = .ok due) : due.Nodup := by
  induction n generalizing date due with
  | zero =>
    cases h
    exact List.nodup_nil
  | succ n ih =>
    unfold weeklyFrom at h
    simp only [bind_eq_ok, checked_eq_ok] at h
    obtain ⟨dueThen, hdue, next, ⟨-, rfl⟩, rest, hrest, h⟩ := h
    cases h
    rw [Int.mul_ediv_cancel _ (by decide)] at hrest
    rw [List.nodup_append]
    refine ⟨?_, ih hrest, fun d hd d' hd' he => ?_⟩
    · unfold dateDue at hdue
      split_ifs at hdue
      · exact nodup_dayDue hdistinct hdue
      · cases hdue
        exact List.nodup_nil
    · -- the later dates are other ones
      obtain ⟨s, rfl, -, -, hdate⟩ := (mem_dateDue hdue d).mp hd
      obtain ⟨s', rfl, -, -, hlo, -⟩ := (mem_weeklyFrom hrest d').mp hd'
      have hsame : s = s' := dueAt_inj_right he
      rw [← hsame, hdate] at hlo
      exact absurd hlo (by omega)

theorem nodup_intervalFrom {rule : IntervalRule} {anchor after until_ : ℤ} {n : ℕ} {index : ℤ}
    {due : List DueReminder} (h : intervalFrom rule anchor after until_ n index = .ok due) :
    due.Nodup := by
  have hp := rule.period_ge
  induction n generalizing index due with
  | zero =>
    cases h
    exact List.nodup_nil
  | succ n ih =>
    unfold intervalFrom at h
    simp only [bind_eq_ok, checked_eq_ok] at h
    obtain ⟨_, ⟨-, rfl⟩, h⟩ := h
    by_cases hlast : anchor + index * rule.period > until_
    · rw [if_pos hlast] at h
      cases h
      exact List.nodup_nil
    · rw [if_neg hlast] at h
      simp only [bind_eq_ok] at h
      obtain ⟨rest, hrest, h⟩ := h
      cases h
      split_ifs with ha
      · refine List.nodup_cons.mpr ⟨fun hmem => ?_, ih hrest⟩
        obtain ⟨j, hlo, -, he, -⟩ := (mem_intervalFrom hrest _).mp hmem
        have hsame : anchor + index * rule.period = anchor + j * rule.period := dueAt_inj_right he
        have heq : index = j :=
          Int.eq_of_mul_eq_mul_right (by omega) (Int.add_left_cancel hsame)
        omega
      · exact ih hrest

/-- **Nothing is listed twice.** -/
theorem nodup_dueBetween {rule : ReminderRule} (hdistinct : rule.DistinctTimes)
    {after until_ : Time} {due : List DueReminder}
    (h : dueBetween rule after until_ = .ok due) : due.Nodup := by
  unfold dueBetween at h
  split_ifs at h
  · cases h
    exact List.nodup_nil
  · cases rule with
    | weekly rule =>
      simp only [weeklyDue, bind_eq_ok] at h
      obtain ⟨_, -, _, -, h⟩ := h
      exact nodup_weeklyFrom hdistinct h
    | interval rule =>
      simp only [intervalDue, bind_eq_ok] at h
      obtain ⟨_, -, h⟩ := h
      split_ifs at h
      · cases h
        exact List.nodup_nil
      · exact nodup_intervalFrom h

end EventServer.ScheduledReminder
