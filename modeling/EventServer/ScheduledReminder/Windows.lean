import EventServer.ScheduledReminder.Serve
import Mathlib.Data.List.Dedup

/-! # Windows of the schedule

Away from the ends of the calendar `due_between` returns, for a window, the instants of the rule in
it, each of them once: those at which the clock on the wall shows one of the times on one of the
weekdays (`weekly_exact`), or those that are a number of periods after the anchor, in their order
(`interval_exact`). A weekly rule whose times carry an offset has no such instant: a window of a
week is never empty exactly if the times are plain (`alive_iff`). -/

namespace EventServer.ScheduledReminder

open EventServer.Lib EventServer.Python

variable [Stdlib]

theorem exists_instants {rule : ReminderRule} {after until_ : Time} {due : List DueReminder}
    (h : dueBetween rule after until_ = .ok due) :
    ∃ instants : List Time, due = instants.map (dueAt rule) ∧
      ∀ s, s ∈ instants ↔ Listed rule after until_ s := by
  have hall : ∀ d ∈ due, d = dueAt rule d.scheduledFor := by
    intro d hd
    obtain ⟨s, rfl, -⟩ := (mem_dueBetween_iff h d).mp hd
    rfl
  refine ⟨due.map DueReminder.scheduledFor, ?_, fun s => ?_⟩
  · rw [List.map_map]
    conv_lhs => rw [← List.map_id due]
    exact List.map_congr_left hall
  · rw [List.mem_map]
    constructor
    · rintro ⟨d, hd, rfl⟩
      obtain ⟨s, rfl, hlisted⟩ := (mem_dueBetween_iff h d).mp hd
      exact hlisted
    · intro hlisted
      exact ⟨dueAt rule s, (mem_dueBetween_iff h _).mpr ⟨s, rfl, hlisted⟩, rfl⟩

/-! ### Periodic rules -/

section Interval

variable {rule : IntervalRule} {anchor after until_ : ℤ}

/-- The loop of `_interval_due`, entered with an index, is left and has listed these occurrences. -/
inductive Leaves (rule : IntervalRule) (anchor after until_ : Time) : ℤ → List DueReminder → Prop
  | past {index : ℤ} : anchor + index * rule.period > until_ →
      Leaves rule anchor after until_ index []
  | listed {index : ℤ} {rest : List DueReminder} : ¬ anchor + index * rule.period > until_ →
      anchor + index * rule.period > after → Leaves rule anchor after until_ (index + 1) rest →
      Leaves rule anchor after until_ index
        (dueAt (.interval rule) (anchor + index * rule.period) :: rest)
  | skipped {index : ℤ} {rest : List DueReminder} : ¬ anchor + index * rule.period > until_ →
      ¬ anchor + index * rule.period > after → Leaves rule anchor after until_ (index + 1) rest →
      Leaves rule anchor after until_ index rest

theorem leaves_intervalFrom {n : ℕ} {index : ℤ} {due : List DueReminder}
    (hn : (n : ℤ) = (until_ - anchor) / rule.period + 2 - index)
    (hle : index ≤ (until_ - anchor) / rule.period + 1)
    (h : intervalFrom rule anchor after until_ n index = .ok due) :
    Leaves rule anchor after until_ index due := by
  have hp := rule.period_ge
  induction n generalizing index due with
  | zero => omega
  | succ n ih =>
    unfold intervalFrom at h
    simp only [bind_eq_ok, checked_eq_ok] at h
    obtain ⟨_, ⟨-, rfl⟩, h⟩ := h
    by_cases hpast : anchor + index * rule.period > until_
    · rw [if_pos hpast] at h
      cases h
      exact .past hpast
    · rw [if_neg hpast] at h
      simp only [bind_eq_ok] at h
      obtain ⟨rest, hrest, h⟩ := h
      cases h
      have hquot : index ≤ (until_ - anchor) / rule.period := by
        rw [Int.le_ediv_iff_mul_le (by omega)]
        omega
      have hleaves : Leaves rule anchor after until_ (index + 1) rest :=
        ih (by push_cast at hn; omega) (by omega) hrest
      split_ifs with hafter
      · exact .listed hpast hafter hleaves
      · exact .skipped hpast hafter hleaves

theorem Leaves.ascending {index : ℤ} {due : List DueReminder}
    (h : Leaves rule anchor after until_ index due) :
    (due.map DueReminder.scheduledFor).Pairwise (· < ·) ∧
      ∀ d ∈ due, anchor + index * rule.period ≤ d.scheduledFor := by
  have hp := rule.period_ge
  have hstep : ∀ index : ℤ,
      anchor + index * rule.period < anchor + (index + 1) * rule.period := by
    intro index
    have hmul : (index + 1) * rule.period = index * rule.period + rule.period := by
      rw [Int.add_mul, Int.one_mul]
    omega
  induction h with
  | past _ => exact ⟨List.Pairwise.nil, List.forall_mem_nil _⟩
  | @listed index rest _ _ _ ih =>
    obtain ⟨hsorted, hlater⟩ := ih
    have hafter : ∀ d ∈ rest, anchor + index * rule.period < d.scheduledFor := fun d hd =>
      (hstep index).trans_le (hlater d hd)
    rw [List.map_cons, List.pairwise_cons, List.forall_mem_cons]
    refine ⟨⟨fun s hs => ?_, hsorted⟩, le_refl _, fun d hd => (hafter d hd).le⟩
    obtain ⟨d, hd, rfl⟩ := List.mem_map.mp hs
    exact hafter d hd
  | skipped _ _ _ ih => exact ⟨ih.1, fun d hd => (hstep _).le.trans (ih.2 d hd)⟩

theorem inCalendar_interval (after : Time) (hanchor : InRange rule.anchorAt)
    (hend : InRange (until_ + rule.period)) {until' : Time} (hle : until' ≤ until_) :
    InCalendar (.interval rule) after until' := by
  have hp := rule.period_ge
  refine ⟨hanchor, fun hbefore => ?_⟩
  have hquot : 0 ≤ (until' - rule.anchorAt) / rule.period :=
    Int.ediv_nonneg (sub_nonneg.mpr hbefore) (by omega)
  have hdiv := Int.ediv_mul_le (until' - rule.anchorAt) (b := rule.period) (by omega)
  have hpos : 0 ≤ (until' - rule.anchorAt) / rule.period * rule.period :=
    Int.mul_nonneg hquot (by omega)
  have hmul : ((until' - rule.anchorAt) / rule.period + 1) * rule.period =
      (until' - rule.anchorAt) / rule.period * rule.period + rule.period := by
    rw [Int.add_mul, Int.one_mul]
  have hbounds : ∀ a u u' q p : ℤ, 1 ≤ p → 0 ≤ q → q ≤ u' - a → u' ≤ u →
      a ≤ a + (q + p) ∧ a + (q + p) ≤ u + p := by
    intro a u u' q p
    omega
  obtain ⟨hlo, hhi⟩ := hbounds rule.anchorAt until_ until' _ rule.period hp hpos hdiv hle
  rw [hmul]
  exact hanchor.between hend hlo hhi

/-- The occurrences of a periodic rule in a window, in their order. -/
structure IntervalInstants (rule : IntervalRule) (after until_ : Time) (instants : List Time) : Prop
    where
  returns : dueBetween (.interval rule) after until_ = .ok (instants.map (dueAt (.interval rule)))
  leaves : after < until_ → rule.anchorAt ≤ until_ → Leaves rule rule.anchorAt after until_
    (max 0 ((after - rule.anchorAt) / rule.period + 1)) (instants.map (dueAt (.interval rule)))
  ascending : instants.Pairwise (· < ·)
  mem : ∀ s, s ∈ instants ↔
    after < s ∧ s ≤ until_ ∧ ∃ k : ℕ, s = rule.anchorAt + k * minutes rule.everyMinutes

theorem exists_intervalInstants (after : Time) (hanchor : InRange rule.anchorAt)
    (hend : InRange (until_ + rule.period)) {until' : Time} (hle : until' ≤ until_) :
    ∃ instants, IntervalInstants rule after until' instants := by
  have hp := rule.period_ge
  obtain ⟨due, hdue⟩ := succeeds_dueBetween.mpr fun _ : after < until' =>
    inCalendar_interval after hanchor hend hle
  obtain ⟨instants, rfl, hmem⟩ := exists_instants hdue
  have hscheduled : (instants.map (dueAt (.interval rule))).map DueReminder.scheduledFor =
      instants := by
    rw [List.map_map]
    exact List.map_id instants
  -- the loop is entered if the window is not empty and not before the anchor
  have hleaves : after < until' → rule.anchorAt ≤ until' → Leaves rule rule.anchorAt after until'
      (max 0 ((after - rule.anchorAt) / rule.period + 1))
        (instants.map (dueAt (.interval rule))) := by
    intro hwindow hbefore
    unfold dueBetween at hdue
    rw [if_neg (not_le.mpr hwindow)] at hdue
    simp only [intervalDue, bind_eq_ok, checked_eq_ok] at hdue
    obtain ⟨_, ⟨-, rfl⟩, hdue⟩ := hdue
    rw [if_neg (not_lt.mpr hbefore)] at hdue
    have hquot : (after - rule.anchorAt) / rule.period ≤ (until' - rule.anchorAt) / rule.period :=
      Int.ediv_le_ediv (by omega) (sub_le_sub_right hwindow.le _)
    have hnonneg : 0 ≤ (until' - rule.anchorAt) / rule.period :=
      Int.ediv_nonneg (sub_nonneg.mpr hbefore) (by omega)
    have hrounds : ∀ a b : ℤ, a ≤ b → 0 ≤ b →
        ((b + 2 - max 0 (a + 1)).toNat : ℤ) = b + 2 - max 0 (a + 1) ∧ max 0 (a + 1) ≤ b + 1 := by
      intro a b
      omega
    obtain ⟨hn, hle⟩ := hrounds _ _ hquot hnonneg
    exact leaves_intervalFrom hn hle hdue
  refine ⟨instants, hdue, hleaves, ?_, fun s => ?_⟩
  · rw [← hscheduled]
    by_cases hwindow : after < until' ∧ rule.anchorAt ≤ until'
    · exact (hleaves hwindow.1 hwindow.2).ascending.1
    · -- nothing is listed
      have hnil : instants = [] := by
        rw [List.eq_nil_iff_forall_not_mem]
        intro s hs
        obtain ⟨⟨hlo, hhi⟩, k, rfl⟩ := (hmem s).mp hs
        have hk : 0 ≤ (k : ℤ) * rule.period := Int.mul_nonneg (by omega) (by omega)
        have hge : rule.anchorAt ≤ rule.anchorAt + k * rule.period := Int.le_add_of_nonneg_right hk
        exact hwindow ⟨hlo.trans_le hhi, hge.trans hhi⟩
      rw [hnil]
      exact List.Pairwise.nil
  · rw [hmem, ← and_assoc]
    exact Iff.rfl

/-- **Intervals are exact.** For an anchor in the calendar and a window that is not at its end, the
loop is left, and what is listed are the instants a number of periods after the anchor in the
window, in their order; the lists of two windows that meet make up that of both. -/
theorem interval_exact (rule : IntervalRule) (after until_ : Time) (hanchor : InRange rule.anchorAt)
    (hend : InRange (until_ + rule.period)) :
    ∃ instants, IntervalInstants rule after until_ instants ∧
      ∀ mid, after ≤ mid → mid ≤ until_ → ∃ first second, IntervalInstants rule after mid first ∧
        IntervalInstants rule mid until_ second ∧ instants = first ++ second := by
  obtain ⟨instants, h⟩ := exists_intervalInstants after hanchor hend le_rfl
  refine ⟨instants, h, fun mid hlo hhi => ?_⟩
  obtain ⟨first, hfirst⟩ := exists_intervalInstants after hanchor hend hhi
  obtain ⟨second, hsecond⟩ := exists_intervalInstants mid hanchor hend le_rfl
  refine ⟨first, second, hfirst, hsecond, ?_⟩
  have hsorted : (first ++ second).Pairwise (· < ·) := by
    rw [List.pairwise_append]
    refine ⟨hfirst.ascending, hsecond.ascending, fun s hs s' hs' => ?_⟩
    have hle : s ≤ mid := ((hfirst.mem s).mp hs).2.1
    have hlt : mid < s' := ((hsecond.mem s').mp hs').1
    exact hle.trans_lt hlt
  refine h.ascending.eq_of_mem_iff hsorted fun s => ?_
  rw [List.mem_append, h.mem, hfirst.mem, hsecond.mem]
  constructor
  · rintro ⟨hafter, huntil, hk⟩
    rcases le_or_gt s mid with hle | hlt
    · exact Or.inl ⟨hafter, hle, hk⟩
    · exact Or.inr ⟨hlt, huntil, hk⟩
  · rintro (⟨hafter, huntil, hk⟩ | ⟨hafter, huntil, hk⟩)
    · exact ⟨hafter, huntil.trans hhi, hk⟩
    · exact ⟨hlo.trans_lt hafter, huntil, hk⟩

omit [Stdlib] in
/-- Every two hours. -/
def sampleInterval : @IntervalRule .sample :=
  @IntervalRule.mk .sample "review" (.of "Review")
    (.of "Review") sampleZone (seconds 1789520400) 120 (by decide)
    (by decide)

omit [Stdlib] in
/-- In five hours from the anchor on, the reminder is due twice. -/
theorem interval_exact_sample :
    ∃ instants, @IntervalInstants .sample sampleInterval (seconds 1789520400) (seconds 1789538400)
      instants := by
  let _ := Stdlib.sample
  obtain ⟨instants, h, -⟩ := interval_exact sampleInterval (seconds 1789520400) (seconds 1789538400)
    (by decide) (by decide)
  exact ⟨instants, h⟩

end Interval

/-! ### Away from the ends of the calendar -/

section Zones

omit [Stdlib]

/-- An offset is less than a day. -/
def ZoneInfo.Bounded (zone : ZoneInfo) : Prop :=
  ∀ wall fold, -day < zone.utcoffset wall fold ∧ zone.utcoffset wall fold < day

theorem ZoneInfo.Bounded.wall {zone : ZoneInfo} (h : zone.Bounded) (t : Time) :
    t - day ≤ (zone.fromutc t).1 ∧ (zone.fromutc t).1 ≤ t + day := by
  obtain ⟨hlo, hhi⟩ := h (zone.fromutc t).1 (zone.fromutc t).2
  have hback := zone.fromutc_utcoffset t
  have hbounds : ∀ wall offset t d : ℤ, -d < offset → offset < d → wall - offset = t →
      t - d ≤ wall ∧ wall ≤ t + d := by
    intro wall offset t d
    omega
  exact hbounds _ _ _ _ hlo hhi hback

/-- The window is four days from the ends of the calendar. -/
def AwayFromEnds (after until_ : Time) : Prop := InRange (after - 4 * day) ∧
    InRange (until_ + 4 * day)

theorem AwayFromEnds.inRange {after until_ : Time} (h : AwayFromEnds after until_) {t : ℤ}
    (hlo : after - 4 * day ≤ t) (hhi : t ≤ until_ + 4 * day) : InRange t := h.1.between h.2 hlo hhi

end Zones

/-! ### Weekly rules -/

section Weekly

variable {rule : WeeklyRule} {after until_ : Time}

theorem dateInCalendar_of_near (hbounded : rule.timezone.Bounded)
    (haway : AwayFromEnds after until_) {date : ℤ} (hx : after - 2 * day ≤ date * day)
    (hx' : date * day ≤ until_ + day) :
    DateInCalendar rule date := by
  -- an instant of the date, and the wall clock then
  have hinner : ∀ a u x y : ℤ, a - 2 * day ≤ x → x ≤ u + day → x - day < y → y < x + 2 * day →
      a - 3 * day ≤ y ∧ y ≤ u + 3 * day := by
    intro a u x y
    rw [day_eq]
    omega
  have houter : ∀ a u y w : ℤ, a - 3 * day ≤ y → y ≤ u + 3 * day → y - day ≤ w → w ≤ y + day →
      a - 4 * day ≤ w ∧ w ≤ u + 4 * day := by
    intro a u y w
    omega
  have hwiden : ∀ a u y : ℤ, a - 3 * day ≤ y → y ≤ u + 3 * day →
      a - 4 * day ≤ y ∧ y ≤ u + 4 * day := by
    intro a u y
    rw [day_eq]
    omega
  refine ⟨fun _ time _ fold => ?_, ?_⟩
  · obtain ⟨hoffset, hoffset'⟩ := hbounded (date * day + time.micros) fold
    obtain ⟨hmicros, hmicros'⟩ := time.micros_bounds
    have hutc : ∀ x m o d : ℤ, -d < o → o < d → 0 ≤ m → m < d →
        x - d < x + m - o ∧ x + m - o < x + 2 * d := by
      intro x m o d
      omega
    obtain ⟨hy, hy'⟩ := hutc (date * day) _ _ _ hoffset hoffset' hmicros hmicros'
    obtain ⟨hutc, hutc'⟩ := hinner _ _ _ _ hx hx' hy hy'
    obtain ⟨hw, hw'⟩ := hbounded.wall
      (date * day + time.micros - rule.timezone.utcoffset (date * day + time.micros) fold)
    obtain ⟨hwall, hwall'⟩ := houter _ _ _ _ hutc hutc' hw hw'
    obtain ⟨hy, hy'⟩ := hwiden _ _ _ hutc hutc'
    exact ⟨haway.inRange hy hy', haway.inRange hwall hwall'⟩
  · have hnext : ∀ x a u : ℤ, a - 2 * day ≤ x * day → x * day ≤ u + day →
        a - 4 * day ≤ (x + 1) * day ∧ (x + 1) * day ≤ u + 4 * day := by
      intro x a u
      rw [day_eq]
      omega
    obtain ⟨hlo, hhi⟩ := hnext _ _ _ hx hx'
    exact haway.inRange hlo hhi

theorem inCalendar_weekly (hbounded : rule.timezone.Bounded) (haway : AwayFromEnds after until_)
    (hle : after ≤ until_) : InCalendar (.weekly rule) after until_ := by
  obtain ⟨hafter, hafter'⟩ := hbounded.wall after
  obtain ⟨huntil, huntil'⟩ := hbounded.wall until_
  -- the wall clock at the ends of the window, and a date between them
  have hends : ∀ a u w : ℤ, a ≤ u → (a - day ≤ w ∧ w ≤ a + day ∨ u - day ≤ w ∧ w ≤ u + day) →
      a - 4 * day ≤ w ∧ w ≤ u + 4 * day := by
    intro a u w
    rw [day_eq]
    omega
  have hdates : ∀ a u wa wu date : ℤ, a - day ≤ wa → wu ≤ u + day → wa / day ≤ date →
      date ≤ wu / day → a - 2 * day ≤ date * day ∧ date * day ≤ u + day := by
    intro a u wa wu date
    rw [day_eq]
    omega
  have hfirst := hends _ _ _ hle (Or.inl ⟨hafter, hafter'⟩)
  have hlast := hends _ _ _ hle (Or.inr ⟨huntil, huntil'⟩)
  refine ⟨haway.inRange hfirst.1 hfirst.2, haway.inRange hlast.1 hlast.2, fun date hlo hhi => ?_⟩
  obtain ⟨hx, hx'⟩ := hdates _ _ _ _ _ hafter huntil' hlo hhi
  exact dateInCalendar_of_near hbounded haway hx hx'

omit [Stdlib] in
/-- The time of the day says which clock it is, among those without an offset. -/
theorem Clock.micros_inj {c c' : Clock} (hc : c.utcoffset = none) (hc' : c'.utcoffset = none)
    (h : c.micros = c'.micros) : c = c' := by
  obtain ⟨hour, minute, second, microsecond, offset, hhour, hminute, hsecond, hmicro⟩ := c
  obtain ⟨hour', minute', second', microsecond', offset', hhour', hminute', hsecond', hmicro'⟩ := c'
  simp only at hc hc'
  subst hc hc'
  simp only [Clock.micros, seconds] at h
  have hfields : hour = hour' ∧ minute = minute' ∧ second = second' ∧
      microsecond = microsecond' := by
    omega
  obtain ⟨rfl, rfl, rfl, rfl⟩ := hfields
  rfl

theorem distinctTimes_of_nodup (h : rule.times.Nodup) : (ReminderRule.weekly rule).DistinctTimes :=
  h.imp fun hne hc hc' he => hne (Clock.micros_inj hc hc' he)

/-- The occurrences of a weekly rule in a window. -/
structure WeeklyInstants (rule : WeeklyRule) (after until_ : Time)
    (instants : List Time) : Prop where
  returns : dueBetween (.weekly rule) after until_ = .ok (instants.map (dueAt (.weekly rule)))
  nodup : instants.Nodup
  mem : ∀ s, s ∈ instants ↔ (after < s ∧ s ≤ until_) ∧
    weekday ((rule.timezone.fromutc s).1 / day) ∈ rule.weekdays ∧
      ∃ time ∈ rule.times, time.micros = (rule.timezone.fromutc s).1 % day

theorem exists_weeklyInstants (hplain : ∀ time ∈ rule.times, time.utcoffset = none)
    (hnodup : rule.times.Nodup) (hforward : rule.timezone.Forward)
    (hbounded : rule.timezone.Bounded) (hwindow : after < until_)
    (haway : AwayFromEnds after until_) :
    ∃ instants, WeeklyInstants rule after until_ instants := by
  obtain ⟨due, hdue⟩ := succeeds_dueBetween.mpr fun _ : after < until_ =>
    inCalendar_weekly hbounded haway hwindow.le
  obtain ⟨instants, rfl, -⟩ := exists_instants hdue
  have hall : ReminderRule.Plain (.weekly rule) := hplain
  have hlisted := mem_dueBetween hall hforward hdue
  refine ⟨instants, hdue, ?_, fun s => ?_⟩
  · exact (nodup_dueBetween (distinctTimes_of_nodup hnodup) hdue).of_map
  · have hmem : dueAt (.weekly rule) s ∈ instants.map (dueAt (.weekly rule)) ↔ s ∈ instants := by
      rw [List.mem_map]
      constructor
      · rintro ⟨s', hs', he⟩
        exact dueAt_inj_right he ▸ hs'
      · intro hs
        exact ⟨s, hs, rfl⟩
    rw [← hmem, hlisted]
    constructor
    · rintro ⟨s', he, hin⟩
      obtain rfl := dueAt_inj_right he
      exact hin
    · intro hin
      exact ⟨s, rfl, hin⟩

end Weekly

theorem pairwise_allDue {rules : List ReminderRule}
    (hids : (rules.map ReminderRule.reminderId).Nodup)
    (hdistinct : ∀ rule ∈ rules, rule.DistinctTimes) {after until_ : Time}
    {found : List DueReminder} (h : allDue after until_ rules = .ok found) :
    found.Pairwise fun d d' => d.scheduledFor = d'.scheduledFor → d.reminderId ≠ d'.reminderId := by
  have hall := mem_allDue_iff h
  refine (nodup_allDue hids hdistinct h).pairwise_of_forall_ne fun d hd d' hd' hne hs hid => hne ?_
  obtain ⟨rule, hr, s, rfl, -⟩ := (hall d).mp hd
  obtain ⟨rule', hr', s', rfl, -⟩ := (hall d').mp hd'
  have hrule : rule = rule' := List.inj_on_of_nodup_map hids hr hr' hid
  have hsame : s = s' := hs
  rw [hrule, hsame]

/-- **Weekly schedules are exact.** For times without an offset, none of them twice, and a zone
whose date does not go backwards, a window that is not at an end of the calendar lists the instants
in it at which the wall clock shows one of the times on one of the weekdays, each of them once; and
no two of all reminders that are due have both their instant and their id in common. -/
theorem weekly_exact (rule : WeeklyRule) (hplain : ∀ time ∈ rule.times, time.utcoffset = none)
    (hnodup : rule.times.Nodup) (hforward : rule.timezone.Forward)
    (hbounded : rule.timezone.Bounded) (after until_ : Time) (hwindow : after < until_)
    (haway : AwayFromEnds after until_) :
    (∃ instants, WeeklyInstants rule after until_ instants) ∧
      ∀ rules : List ReminderRule, (rules.map ReminderRule.reminderId).Nodup →
        (∀ rule ∈ rules, rule.DistinctTimes) → ∀ found, allDue after until_ rules = .ok found →
          found.Pairwise fun d d' => d.scheduledFor = d'.scheduledFor →
            d.reminderId ≠ d'.reminderId :=
  ⟨exists_weeklyInstants hplain hnodup hforward hbounded hwindow haway,
    fun _ hids hdistinct _ h => pairwise_allDue hids hdistinct h⟩

omit [Stdlib] in
theorem forward_sampleZone : sampleZone.Forward := fun _ _ h => Int.ediv_le_ediv (by decide) h

omit [Stdlib] in
theorem bounded_sampleZone : sampleZone.Bounded := fun _ _ =>
  (by decide : -day < (0 : ℤ) ∧ (0 : ℤ) < day)

omit [Stdlib] in
/-- In the week from Tuesday evening on. -/
theorem weekly_exact_sample :
    ∃ instants, @WeeklyInstants .sample sampleWeekly (seconds 1789495200) (seconds 1790100000)
      instants := by
  let _ := Stdlib.sample
  refine (weekly_exact sampleWeekly ?_ (by decide) forward_sampleZone bounded_sampleZone
    (seconds 1789495200) (seconds 1790100000) (by decide) ⟨by decide, by decide⟩).1
  intro time htime
  rw [List.mem_singleton.mp htime]
  rfl

/-! ### What an accepted weekly rule has -/

section Accepted

theorem parseWeekdays_ok {items : List Value} {parsed : List ℕ}
    (h : parseWeekdays items = .ok parsed) :
    parsed.length = items.length ∧ ∀ number ∈ parsed, number < 7 := by
  induction items generalizing parsed with
  | nil =>
    cases h
    exact ⟨rfl, List.forall_mem_nil _⟩
  | cons item items ih =>
    cases item with
    | str s =>
      unfold parseWeekdays at h
      cases hnumber : weekdayNumbers.lookup (Stdlib.lower s) with
      | none =>
        rw [hnumber] at h
        cases h
      | some number =>
        rw [hnumber] at h
        obtain ⟨rest, hrest, rfl⟩ := map_eq_ok.mp h
        obtain ⟨hlength, hlt⟩ := ih hrest
        have hall : ∀ entry ∈ weekdayNumbers, entry.2 < 7 := by decide
        obtain ⟨before, after, he, -⟩ := List.lookup_eq_some_iff.mp hnumber
        have hmem : (Stdlib.lower s, number) ∈ weekdayNumbers := by
          rw [he]
          simp
        refine ⟨by rw [List.length_cons, List.length_cons, hlength], ?_⟩
        exact List.forall_mem_cons.mpr ⟨hall _ hmem, hlt⟩
    | null | bool _ | int _ | float _ | arr _ | obj _ => cases h

theorem exists_weekday {value : Option Value} {days : List ℕ} (h : weekdays value = .ok days) :
    ∃ number ∈ days, number < 7 := by
  unfold weekdays at h
  split at h
  · obtain ⟨parsed, hparsed, rfl⟩ := map_eq_ok.mp h
    obtain ⟨hlength, hlt⟩ := parseWeekdays_ok hparsed
    cases parsed with
    | nil => cases hlength
    | cons number parsed =>
      refine ⟨number, ?_, hlt number List.mem_cons_self⟩
      rw [List.mem_insertionSort, List.mem_dedup]
      exact List.mem_cons_self
  · cases h

theorem parseTimes_ne_nil {item : Value} {items : List Value} {parsed : List Clock}
    (h : parseTimes (item :: items) = .ok parsed) : ∃ c, c ∈ parsed := by
  cases item with
  | str s =>
    unfold parseTimes at h
    cases htime : Stdlib.timeFromIsoformat s with
    | none =>
      rw [htime] at h
      cases h
    | some time =>
      rw [htime] at h
      obtain ⟨rest, -, rfl⟩ := map_eq_ok.mp h
      exact ⟨time, List.mem_cons_self⟩
  | null | bool _ | int _ | float _ | arr _ | obj _ => cases h

omit [Stdlib] in
/-- Either all times that are sorted are without an offset or all have one. -/
theorem unmixed_of_sortedTimes {parsed sorted : List Clock} (h : sortedTimes parsed = .ok sorted) :
    (∀ c ∈ sorted, c.utcoffset = none) ∨ ∀ c ∈ sorted, c.utcoffset ≠ none := by
  have hsome := exists_mem_of_sortedTimes (fun c c' he hc => by rwa [← isSome_of_eq he])
    (P := fun c => c.utcoffset.isSome = true) h
  have hnone := exists_mem_of_sortedTimes (fun c c' he hc => by
    rwa [← Option.not_isSome, ← isSome_of_eq he, Option.not_isSome])
    (P := fun c => c.utcoffset.isNone = true) h
  have hmixed : ¬ ((∃ c ∈ parsed, c.utcoffset.isSome = true) ∧
      ∃ c ∈ parsed, c.utcoffset.isNone = true) := by
    rw [← sortedTimes_eq_typeError, h]
    exact fun he => by cases he
  by_cases hoffset : ∃ c ∈ parsed, c.utcoffset.isSome = true
  · refine Or.inr fun c hc he => ?_
    exact hmixed ⟨hoffset, hnone.mp ⟨c, hc, by rw [he]; rfl⟩⟩
  · refine Or.inl fun c hc => ?_
    by_contra hne
    exact hoffset (hsome.mp ⟨c, hc, Option.isSome_iff_ne_none.mpr hne⟩)

/-- A time is asked for, and either all times are without an offset or all have one. -/
theorem times_ok {value : Option Value} {sorted : List Clock} (h : times value = .ok sorted) :
    sorted ≠ [] ∧ ((∀ c ∈ sorted, c.utcoffset = none) ∨ ∀ c ∈ sorted, c.utcoffset ≠ none) := by
  unfold times at h
  split at h
  · split at h
    · cases h
    · rename_i item items _ parsed hparsed
      split_ifs at h
      · cases h
      · have hany := exists_mem_of_sortedTimes (fun _ _ _ hc => hc) (P := fun _ => True) h
        refine ⟨?_, unmixed_of_sortedTimes h⟩
        rintro rfl
        obtain ⟨c, hc⟩ := parseTimes_ne_nil hparsed
        obtain ⟨c', hc', -⟩ := hany.mpr ⟨c, hc, trivial⟩
        exact List.not_mem_nil hc'
  · cases h

end Accepted

/-! ### Rules that are alive -/

section Alive

omit [Stdlib] in
/-- The zone has one offset, of less than a day. -/
structure ZoneInfo.Constant (zone : ZoneInfo) (offset : ℤ) : Prop where
  fromutc : ∀ t, (zone.fromutc t).1 = t + offset
  utcoffset : ∀ wall fold, zone.utcoffset wall fold = offset
  bounded : -day < offset ∧ offset < day

omit [Stdlib] in
theorem ZoneInfo.Constant.forward {zone : ZoneInfo} {offset : ℤ} (h : zone.Constant offset) :
    zone.Forward := by
  intro s s' hle
  rw [h.fromutc, h.fromutc]
  exact Int.ediv_le_ediv (by decide) (Int.add_le_add_right hle offset)

omit [Stdlib] in
theorem ZoneInfo.Constant.all_bounded {zone : ZoneInfo} {offset : ℤ} (h : zone.Constant offset) :
    zone.Bounded := fun wall fold => by
  rw [h.utcoffset]
  exact h.bounded

omit [Stdlib] in
theorem exists_wall (number : ℕ) (hnumber : number < 7) (c : Clock) (wall : ℤ) :
    ∃ w, wall < w ∧ w ≤ wall + 7 * day ∧ weekday (w / day) = number ∧ c.micros = w % day := by
  obtain ⟨hmicros, hmicros'⟩ := c.micros_bounds
  -- one of the seven dates from the one on the wall has the weekday
  have hdate : ∃ date : ℤ, wall / day ≤ date ∧ date < wall / day + 7 ∧ weekday date = number := by
    refine ⟨wall / day + (number - (wall / day + epochOrdinal + 6)) % 7, ?_, ?_, ?_⟩
    · omega
    · omega
    · unfold weekday
      omega
  obtain ⟨date, hlo, hhi, hweekday⟩ := hdate
  have hsplit : ∀ d m : ℤ, 0 ≤ m → m < day → (d * day + m) / day = d ∧ (d * day + m) % day = m := by
    intro d m
    rw [day_eq]
    omega
  have hbounds : ∀ x d m : ℤ, x / day ≤ d → d < x / day + 7 → 0 ≤ m → m < day →
      x < d * day + m ∧ d * day + m ≤ x + 7 * day ∨
        x < (d + 7) * day + m ∧ (d + 7) * day + m ≤ x + 7 * day := by
    intro x d m
    rw [day_eq]
    omega
  have hweek : weekday (date + 7) = number := by
    unfold weekday at hweekday ⊢
    omega
  rcases hbounds wall date c.micros hlo hhi hmicros hmicros' with ⟨hlt, hle⟩ | ⟨hlt, hle⟩
  · obtain ⟨hd, hm⟩ := hsplit date c.micros hmicros hmicros'
    exact ⟨_, hlt, hle, by rw [hd, hweekday], hm.symm⟩
  · obtain ⟨hd, hm⟩ := hsplit (date + 7) c.micros hmicros hmicros'
    exact ⟨_, hlt, hle, by rw [hd, hweek], hm.symm⟩

/-- A weekly rule whose times are without an offset, in a zone with one offset, is due within a
week. -/
theorem exists_due_of_plain {rule : WeeklyRule} {payload : Fields}
    (hdays : weekdays (payload.lookup (.of "weekdays")) = .ok rule.weekdays) (hne : rule.times ≠ [])
    (hplain : ∀ time ∈ rule.times, time.utcoffset = none) (hnodup : rule.times.Nodup) {offset : ℤ}
    (hzone : rule.timezone.Constant offset) {after until_ : Time} (hweek : after + 7 * day ≤ until_)
    (haway : AwayFromEnds after until_) :
    ∃ d due, dueBetween (.weekly rule) after until_ = .ok (d :: due) := by
  have hwindow : after < until_ := by
    rw [day_eq] at hweek
    have hlt : ∀ a u : ℤ, a + 7 * 86400000000 ≤ u → a < u := by
      intro a u
      omega
    exact hlt _ _ hweek
  obtain ⟨instants, h⟩ := exists_weeklyInstants hplain hnodup hzone.forward
    hzone.all_bounded hwindow haway
  obtain ⟨number, hnumber, hlt⟩ := exists_weekday hdays
  obtain ⟨time, htime⟩ := List.exists_mem_of_ne_nil _ hne
  obtain ⟨w, hlo, hhi, hweekday, hmicros⟩ := exists_wall number hlt time (after + offset)
  have hwall : (rule.timezone.fromutc (w - offset)).1 = w := by
    rw [hzone.fromutc]
    exact Int.sub_add_cancel w offset
  have hin : ∀ a u o w d : ℤ, a + o < w → w ≤ a + o + 7 * d → a + 7 * d ≤ u →
      a < w - o ∧ w - o ≤ u := by
    intro a u o w d
    omega
  have hmem : w - offset ∈ instants := by
    rw [h.mem, hwall, hweekday]
    exact ⟨hin _ _ _ _ _ hlo hhi hweek, hnumber, time, htime, hmicros⟩
  have hreturns := h.returns
  cases instants with
  | nil => exact absurd hmem List.not_mem_nil
  | cons s instants => exact ⟨_, _, hreturns⟩

/-- **No reminder is silently dead.** An accepted weekly rule, in a zone with one offset, has an
occurrence in every window of a week exactly if its times are without an offset. -/
theorem alive_iff {file : Value} {config : ReminderConfig} (hload : loadConfig file = .ok config)
    {rule : WeeklyRule} (hrule : .weekly rule ∈ config.rules) {offset : ℤ}
    (hzone : rule.timezone.Constant offset) :
    (∀ after until_, after + 7 * day ≤ until_ → AwayFromEnds after until_ →
      ∃ d due, dueBetween (.weekly rule) after until_ = .ok (d :: due)) ↔
      ∀ time ∈ rule.times, time.utcoffset = none := by
  obtain ⟨raw, hraw⟩ := exists_raw_of_loadConfig hload _ hrule
  obtain ⟨payload, -, -, -, -, -, hweekly⟩ := parseRule_ok hraw
  obtain ⟨hdays, htimes⟩ := hweekly rule rfl
  obtain ⟨hne, hsame⟩ := times_ok htimes
  constructor
  · intro halive
    rcases hsame with hplain | hoffset
    · exact hplain
    · -- no instant is listed in any window
      obtain ⟨d, due, hdue⟩ := halive 0 (7 * day) (by decide) ⟨by decide, by decide⟩
      obtain ⟨s, -, -, hshows, -⟩ := (mem_dueBetween_iff hdue d).mp List.mem_cons_self
      obtain ⟨-, time, htime, hnone, -⟩ := hshows
      exact absurd hnone (hoffset time htime)
  · intro hplain after until_ hweek haway
    have hnodup : rule.times.Nodup := (pairwise_of_times htimes).imp_of_mem
      fun {c c'} hc hc' hd he => hd (hplain c hc) (hplain c' hc') (by rw [he])
    exact exists_due_of_plain hdays hne hplain hnodup hzone hweek haway

omit [Stdlib] in
theorem constant_sampleZone : sampleZone.Constant 0 :=
  ⟨fun t => (Int.add_zero t).symm, fun _ _ => rfl, by decide⟩

omit [Stdlib] in
theorem alive_iff_sample :
    let _ := Stdlib.sample
    ∀ after until_, after + 7 * day ≤ until_ → AwayFromEnds after until_ →
      ∃ d due, dueBetween (.weekly sampleWeekly) after until_ = .ok (d :: due) := by
  let _ := Stdlib.sample
  have hrule : .weekly sampleWeekly ∈ sampleConfig.rules := List.mem_singleton.mpr rfl
  refine (alive_iff loadConfig_sample hrule constant_sampleZone).mpr ?_
  intro time htime
  rw [List.mem_singleton.mp htime]
  rfl

omit [Stdlib] in
/-- The library on the text of a time with an offset. -/
abbrev Stdlib.offsets : Stdlib :=
  { Stdlib.sample with
    timeFromIsoformat s :=
      if s = .of "08:00+00:00" then some { sampleClock with utcoffset := some 0 } else none }

omit [Stdlib] in
/-- On Wednesdays at eight, in UTC. -/
def deadFile : Value := .obj
  [(.of "event_key", strOf "reminder.scheduled.triggered"),
    (.of "reminders", .arr [.obj [(.of "id", strOf "stand-up"), (.of "title", strOf "Stand-up"),
      (.of "text", strOf "Stand-up"), (.of "timezone", strOf "UTC"), (.of "kind", strOf "weekly"),
      (.of "weekdays", .arr [strOf "wednesday"]), (.of "times", .arr [strOf "08:00+00:00"])]])]

omit [Stdlib] in
/-- **A reminder is accepted that is dead**: a wall clock with an offset equals none without. -/
theorem dead_reminder :
    let _ := Stdlib.offsets
    ∃ config rule, loadConfig deadFile = .ok config ∧ .weekly rule ∈ config.rules ∧
      rule.timezone.Constant 0 ∧ AwayFromEnds 0 (7 * day) ∧
        dueBetween (.weekly rule) 0 (7 * day) = .ok [] := by
  let _ := Stdlib.offsets
  exact ⟨_, _, rfl, List.mem_singleton.mpr rfl, constant_sampleZone, ⟨by decide, by decide⟩, rfl⟩

end Alive

end EventServer.ScheduledReminder
