import EventServer.ScheduledReminder.Windows

/-! # Overload

`run_once` refuses a window in which more is due than a tick may publish, and leaves the cursor
where it is. A later window contains that one, so it is refused as well: a call of the publisher can
be followed by one that returns exactly if it could catch up itself (`recoverable_iff`). -/

namespace EventServer.ScheduledReminder

open EventServer.Lib EventServer.Python

variable [Stdlib]

/-! ### Wider windows -/

section Wider

variable {after until_ until' : Time}

omit [Stdlib] in
theorem inRange_iff_date {wall : ℤ} : InRange wall ↔ -719162 ≤ wall / day ∧
    wall / day < 2932897 := by
  show (-719162 * day ≤ wall ∧ wall < 2932897 * day) ↔ _
  rw [day_eq]
  omega

theorem inCalendar_of_le {rule : ReminderRule} (hforward : rule.timezone.Forward)
    (hafter : after ≤ until_) (hle : until_ ≤ until')
    (h : InCalendar rule after until') : InCalendar rule after until_ := by
  cases rule with
  | weekly rule =>
    obtain ⟨hfirst, hlast, hdates⟩ := h
    have hlo := hforward _ _ hafter
    have hhi := hforward _ _ hle
    have hfirst' := inRange_iff_date.mp hfirst
    have hlast' := inRange_iff_date.mp hlast
    have hbetween : ∀ a b c lo hi : ℤ, lo ≤ a → a ≤ b → b ≤ c → c < hi → lo ≤ b ∧ b < hi := by
      intro a b c lo hi
      omega
    refine ⟨hfirst, ?_, fun date hd hd' => hdates date hd (hd'.trans hhi)⟩
    exact inRange_iff_date.mpr (hbetween _ _ _ _ _ hfirst'.1 hlo hhi hlast'.2)
  | interval rule =>
    have hp := rule.period_ge
    obtain ⟨hanchor, hend⟩ := h
    refine ⟨hanchor, fun hbefore => ?_⟩
    have hquot : (until_ - rule.anchorAt) / rule.period ≤ (until' - rule.anchorAt) / rule.period :=
      Int.ediv_le_ediv (by omega) (sub_le_sub_right hle _)
    have hnonneg : (0 : ℤ) ≤ (until_ - rule.anchorAt) / rule.period :=
      Int.ediv_nonneg (sub_nonneg.mpr hbefore) (by omega)
    have hmul : ((until_ - rule.anchorAt) / rule.period + 1) * rule.period ≤
        ((until' - rule.anchorAt) / rule.period + 1) * rule.period :=
      Int.mul_le_mul_of_nonneg_right (Int.add_le_add_right hquot 1) (by omega)
    have hpos : 0 ≤ ((until_ - rule.anchorAt) / rule.period + 1) * rule.period :=
      Int.mul_nonneg (Int.add_nonneg hnonneg (by decide)) (by omega)
    exact hanchor.between (hend (hbefore.trans hle)) (Int.le_add_of_nonneg_right hpos)
      (Int.add_le_add_left hmul _)

theorem listed_of_le {rule : ReminderRule} (hforward : rule.timezone.Forward)
    (hle : until_ ≤ until') {s : Time}
    (h : Listed rule after until_ s) : Listed rule after until' s := by
  cases rule with
  | weekly rule =>
    obtain ⟨⟨hlo, hhi⟩, hshows, hdate, hdate'⟩ := h
    exact ⟨⟨hlo, hhi.trans hle⟩, hshows, hdate, hdate'.trans (hforward _ _ hle)⟩
  | interval rule =>
    obtain ⟨⟨hlo, hhi⟩, hscheduled⟩ := h
    exact ⟨⟨hlo, hhi.trans hle⟩, hscheduled⟩

/-- **A publisher that can catch up with a window can catch up with a part of it.** -/
theorem canCatchUp_of_le {config : ReminderConfig}
    (hforward : ∀ rule ∈ config.rules, rule.timezone.Forward) (hle : until_ ≤ until')
    (h : CanCatchUp config after until') : CanCatchUp config after until_ := by
  refine ⟨fun hwindow rule hr => ?_, fun ds hnodup hds => h.count ds hnodup fun d hd => ?_⟩
  · exact inCalendar_of_le (hforward rule hr) hwindow.le hle
      (h.calendar (hwindow.trans_le hle) rule hr)
  · obtain ⟨rule, hr, s, he, hlisted⟩ := hds d hd
    exact ⟨rule, hr, s, he, listed_of_le (hforward rule hr) hle hlisted⟩

end Wider

/-! ### A call -/

section Call

variable {file : Value} {config : ReminderConfig}

/-- Publishing succeeds: the texts of the rules can be encoded, and every call of the server
returns. -/
structure Tick.Delivers (config : ReminderConfig) (tick : Tick) : Prop where
  texts : ∀ rule ∈ config.rules, rule.title.Encodable ∧ rule.text.Encodable
  calls : ∀ i, tick.calls i = .delivered

theorem publish_delivered (config : ReminderConfig) {due : DueReminder}
    (htitle : due.rule.title.Encodable) (htext : due.rule.text.Encodable) (store : Events) :
    publish config store due .delivered = (keep store (publishRequest config due), .ok ()) := by
  obtain ⟨title, htitle⟩ := htitle
  obtain ⟨text, htext⟩ := htext
  unfold publish
  rw [body?_of_encode? config htitle htext]

theorem publishAll_delivered {config : ReminderConfig} {tick : Tick}
    (h : tick.Delivers config) (i : ℕ) {due : List DueReminder}
    (hdue : ∀ d ∈ due, d.rule ∈ config.rules) (store : Events) :
    (publishAll config tick.calls i due store).2 = .ok () := by
  induction due generalizing i store with
  | nil => rfl
  | cons d due ih =>
    rw [List.forall_mem_cons] at hdue
    obtain ⟨htitle, htext⟩ := h.texts d.rule hdue.1
    unfold publishAll
    rw [h.calls i, publish_delivered config htitle htext]
    exact ih (i + 1) hdue.2 _

theorem runOnce_first (hload : loadConfig file = .ok config) {st : State} (tick : Tick)
    (hlast : st.lastCheckedAt = none) :
    runOnce file st tick = ({ st with lastCheckedAt := some tick.now }, .ok 0) := by
  unfold runOnce
  simp only [hload, hlast]

theorem runOnce_canCatchUp (hload : loadConfig file = .ok config) {st : State} {tick : Tick}
    {after : Time} (hcalls : tick.Delivers config) (hlast : st.lastCheckedAt = some after)
    (hcan : CanCatchUp config after tick.now) : (∃ n, (runOnce file st tick).2 = .ok n) ∧
      (next file st tick).lastCheckedAt = some tick.now := by
  obtain ⟨found, hall, hmax⟩ := (canCatchUp_iff hload).mp hcan
  have hrules : ∀ d ∈ found.insertionSort fun d d' => d.before d', d.rule ∈ config.rules := by
    intro d hd
    rw [List.mem_insertionSort] at hd
    obtain ⟨rule, hr, s, rfl, -⟩ := (mem_allDue_iff hall d).mp hd
    exact hr
  have hpub := publishAll_delivered hcalls 0 hrules st.store
  unfold next runOnce
  simp only [hload, hlast, hall, List.length_insertionSort, if_neg (not_lt.mpr hmax)]
  generalize publishAll config tick.calls 0 (found.insertionSort fun d d' => d.before d')
    st.store = r at hpub
  obtain ⟨store, res⟩ := r
  simp only at hpub
  subst hpub
  exact ⟨⟨_, rfl⟩, rfl⟩

theorem runOnce_not_canCatchUp (hload : loadConfig file = .ok config) {st : State} {tick : Tick}
    {after : Time} (hlast : st.lastCheckedAt = some after)
    (hnot : ¬ CanCatchUp config after tick.now) : (∀ n, (runOnce file st tick).2 ≠ .ok n) ∧
      (next file st tick).lastCheckedAt = some after := by
  rw [canCatchUp_iff hload] at hnot
  unfold next runOnce
  simp only [hload, hlast]
  cases hall : allDue after tick.now config.rules with
  | error e => exact ⟨nofun, hlast⟩
  | ok found =>
    have hmax : config.maxDuePerTick < (found.length : ℤ) := by
      by_contra hle
      exact hnot ⟨found, hall, not_lt.mp hle⟩
    simp only [List.length_insertionSort, if_pos hmax]
    exact ⟨nofun, hlast⟩

theorem canCatchUp_self (hload : loadConfig file = .ok config) (now : Time) :
    CanCatchUp config now now := by
  obtain ⟨payload, raws, -, -, -, hone, -⟩ := loadConfig_ok hload
  obtain ⟨found, hfound⟩ := succeeds_allDue.mpr fun h : now < now => absurd h (lt_irrefl now)
  have hnil : found = [] := by
    rw [List.eq_nil_iff_forall_not_mem]
    intro d hd
    obtain ⟨rule, -, s, -, hlisted⟩ := (mem_allDue_iff hfound d).mp hd
    have hwithin := hlisted.within
    exact absurd (hwithin.1.trans_le hwithin.2) (lt_irrefl now)
  refine (canCatchUp_iff hload).mpr ⟨found, hfound, ?_⟩
  rw [hnil, List.length_nil, Nat.cast_zero]
  omega

/-- There is a clock reading, not before `latest`, at which a call returns. -/
def Recoverable (file : Value) (config : ReminderConfig) (st : State) (latest : Time) : Prop :=
  ∃ tick : Tick, latest ≤ tick.now ∧ tick.Delivers config ∧ ∃ n, (runOnce file st tick).2 = .ok n

theorem lastCheckedAt_run (hload : loadConfig file = .ok config)
    (hforward : ∀ rule ∈ config.rules, rule.timezone.Forward) {after latest : Time}
    (hnot : ¬ CanCatchUp config after latest) {ticks : List Tick}
    (hticks : ∀ tick ∈ ticks, latest ≤ tick.now) {st : State}
    (hlast : st.lastCheckedAt = some after) :
    (run (next file) st ticks).lastCheckedAt = some after := by
  induction ticks generalizing st with
  | nil => exact hlast
  | cons tick ticks ih =>
    rw [List.forall_mem_cons] at hticks
    have hwider : ¬ CanCatchUp config after tick.now := fun hcan =>
      hnot (canCatchUp_of_le hforward hticks.1 hcan)
    exact ih hticks.2 (runOnce_not_canCatchUp hload hlast hwider).2

theorem recoverable_next_iff (hload : loadConfig file = .ok config)
    (hforward : ∀ rule ∈ config.rules, rule.timezone.Forward) (st : State) {tick : Tick}
    (hcalls : tick.Delivers config) : Recoverable file config (next file st tick) tick.now ↔
      ∀ after, st.lastCheckedAt = some after → CanCatchUp config after tick.now := by
  -- after a call that returns nothing is due at the same time
  have hagain : (next file st tick).lastCheckedAt = some tick.now →
      Recoverable file config (next file st tick) tick.now := by
    intro hnow
    obtain ⟨hok, -⟩ := runOnce_canCatchUp hload hcalls hnow (canCatchUp_self hload tick.now)
    exact ⟨tick, le_rfl, hcalls, hok⟩
  cases hlast : st.lastCheckedAt with
  | none =>
    refine iff_of_true (hagain ?_) fun after h => by cases h
    rw [next, runOnce_first hload tick hlast]
  | some after =>
    simp only [Option.some.injEq, forall_eq']
    constructor
    · rintro ⟨later, hle, -, n, hok⟩
      by_contra hnot
      have hstays := (runOnce_not_canCatchUp hload hlast hnot).2
      have hwider : ¬ CanCatchUp config after later.now := fun hcan =>
        hnot (canCatchUp_of_le hforward hle hcan)
      exact (runOnce_not_canCatchUp hload hstays hwider).1 n hok
    · intro hcan
      exact hagain (runOnce_canCatchUp hload hcalls hlast hcan).2

/-- **Overload is final.** After a call of any run the publisher can be called at the same or a
later time and return exactly if the call could catch up, so that it returned itself. Otherwise
every call of every continuation fails. -/
theorem recoverable_iff (hload : loadConfig file = .ok config)
    (hforward : ∀ rule ∈ config.rules, rule.timezone.Forward) (pre : List Tick) {tick : Tick}
    (hcalls : tick.Delivers config) :
    (Recoverable file config (run (next file) {} (pre ++ [tick])) tick.now ↔
        ∀ after, (run (next file) {} pre).lastCheckedAt = some after →
          CanCatchUp config after tick.now) ∧
      (¬ Recoverable file config (run (next file) {} (pre ++ [tick])) tick.now →
        ∀ (ticks : List Tick) (later : Tick), (∀ t ∈ ticks, tick.now ≤ t.now) →
          tick.now ≤ later.now →
          ∀ n, (runOnce file (run (next file) {} (pre ++ [tick] ++ ticks)) later).2 ≠ .ok n) := by
  rw [run_concat]
  have hiff := recoverable_next_iff hload hforward (run (next file) {} pre) hcalls
  refine ⟨hiff, fun hnot ticks later hticks hlater => ?_⟩
  rw [hiff] at hnot
  push Not at hnot
  obtain ⟨after, hlast, hover⟩ := hnot
  have hstays := lastCheckedAt_run hload hforward hover hticks
    (runOnce_not_canCatchUp hload hlast hover).2
  rw [run_append, run_concat]
  exact (runOnce_not_canCatchUp hload hstays
    fun hcan => hover (canCatchUp_of_le hforward hlater hcan)).1

end Call

/-! ### Samples -/

omit [Stdlib] in
/-- The configuration in `busyFile`. -/
def busyConfig : @ReminderConfig .sample :=
  @ReminderConfig.mk .sample "reminder.scheduled.triggered" 1
    [@ReminderRule.weekly .sample
      (@WeeklyRule.mk .sample "stand-up" (.of "Stand-up") (.of "Stand-up") sampleZone
        [1, 2] [sampleClock] (@WeeklyRule.id_valid .sample sampleWeekly))] 1 (by decide)

omit [Stdlib] in
theorem loadConfig_busy : @loadConfig .sample busyFile = .ok busyConfig := rfl

omit [Stdlib] in
/-- Three minutes before eight on a Tuesday. -/
def earlyTick : Tick := ⟨seconds 1789459020, by decide, fun _ => .delivered⟩

omit [Stdlib] in
/-- Four minutes after eight. -/
def morningTick : Tick := ⟨seconds 1789459440, by decide, fun _ => .delivered⟩

omit [Stdlib] in
/-- On the next day at the same time. -/
def lateTick : Tick := ⟨seconds 1789545840, by decide, fun _ => .delivered⟩

omit [Stdlib] in
theorem forward_busy :
    let _ := Stdlib.sample
    ∀ rule ∈ busyConfig.rules, rule.timezone.Forward := by
  intro _ rule hr
  rw [List.mem_singleton.mp hr]
  exact forward_sampleZone

omit [Stdlib] in
theorem delivers_busy {tick : Tick} (h : ∀ i, tick.calls i = .delivered) :
    @Tick.Delivers .sample busyConfig tick := by
  let _ := Stdlib.sample
  refine ⟨fun rule hr => ?_, h⟩
  rw [List.mem_singleton.mp hr]
  exact ⟨Str.encodable_of _, Str.encodable_of _⟩

omit [Stdlib] in
/-- On the first day one reminder is due. -/
theorem recoverable_iff_sample :
    let _ := Stdlib.sample
    Recoverable busyFile busyConfig (run (next busyFile) {} ([earlyTick] ++ [morningTick]))
      morningTick.now := by
  let _ := Stdlib.sample
  refine (recoverable_iff loadConfig_busy forward_busy [earlyTick]
    (delivers_busy fun _ => rfl)).1.mpr ?_
  intro after hafter
  cases hafter
  exact (canCatchUp_iff loadConfig_busy).mpr ⟨_, rfl, by decide⟩

omit [Stdlib] in
/-- After a day without a tick two reminders are due, and no later call returns. -/
theorem not_recoverable :
    let _ := Stdlib.sample
    (∃ config, loadConfig busyFile = .ok config) ∧ earlyTick.now ≤ lateTick.now ∧
      ∀ later : Tick, lateTick.now ≤ later.now → later.Delivers busyConfig →
        ∀ n, (runOnce busyFile (run (next busyFile) {} [earlyTick, lateTick]) later).2 ≠ .ok n := by
  let _ := Stdlib.sample
  refine ⟨⟨_, loadConfig_busy⟩, by decide, fun later hlater hcalls n hok => ?_⟩
  have hrec : Recoverable busyFile busyConfig
      (next busyFile (run (next busyFile) {} [earlyTick]) lateTick)
      lateTick.now := ⟨later, hlater, hcalls, n, hok⟩
  have hcan := (recoverable_next_iff loadConfig_busy forward_busy _ (delivers_busy fun _ => rfl)).mp
    hrec _ rfl
  obtain ⟨found, hfound, hle⟩ := (canCatchUp_iff loadConfig_busy).mp hcan
  cases hfound
  exact absurd hle (by decide)

end EventServer.ScheduledReminder
