import EventServer.DemoReminder.Contract
import Mathlib.Algebra.Order.Ring.Rat

/-! # The time limits of a reminder

A reminder that is published is due at the time it was requested or later, at most
`max_delay_seconds` ahead, and the seconds it carries are those until then. The bounds are checked
on whole seconds: a point in time less than a second beyond the limit passes (`Late`), and so does a
negative `delay` of less than a second (`Slight`). `limits_iff` says that nothing else does. -/

namespace EventServer.DemoReminder

open EventServer.Lib EventServer.Python

/-- `value < 0` of a number; `submit` does not take booleans for numbers. -/
def Negative : Value → Prop
  | .int n => n < 0
  | .float x => x.lt (.finite 0) = true
  | _ => False

/-- A negative number above -1 is cut off to 0, and any other to a negative integer. -/
theorem tdiv_nonneg_iff {q : ℚ} (h : q < 0) : 0 ≤ q.num.tdiv q.den ↔ -1 < q := by
  have hden : (0 : ℤ) < q.den := Int.natCast_pos.mpr q.den_pos
  have hnum : q.num < 0 := Rat.num_neg.mpr h
  have hone : -1 < q ↔ -(q.den : ℤ) < q.num := by
    rw [Rat.lt_iff]
    simp
  rw [hone]
  obtain ⟨m, hm⟩ : ∃ m : ℤ, q.num = -m := ⟨-q.num, by omega⟩
  rw [hm, Int.neg_tdiv, Int.tdiv_eq_ediv_of_nonneg (by omega)]
  constructor
  · intro hle
    have hlt : m < q.den := by
      by_contra hge
      have hpos : 1 ≤ m / q.den := (Int.le_ediv_iff_mul_le hden).mpr (by omega)
      omega
    omega
  · intro hlt
    have hzero : m / q.den = 0 := Int.ediv_eq_zero_of_lt (by omega) (by omega)
    omega

theorem tdiv_nonpos {q : ℚ} (h : q < 0) : q.num.tdiv q.den ≤ 0 := by
  have hnum : q.num < 0 := Rat.num_neg.mpr h
  obtain ⟨m, hm⟩ : ∃ m : ℤ, q.num = -m := ⟨-q.num, by omega⟩
  have hnonneg : 0 ≤ m.tdiv q.den := Int.tdiv_nonneg (by omega) (Int.natCast_nonneg _)
  rw [hm, Int.neg_tdiv]
  omega

/-- The whole seconds of a duration are bounded exactly if it stays below the next second. -/
theorem wholeSeconds_le_iff {d m : ℤ} (hm : 0 ≤ m) :
    max 0 (d / seconds 1) ≤ m ↔ d < seconds (m + 1) := by
  simp only [seconds, one_mul]
  omega

theorem wholeSeconds_seconds {n : ℤ} (hn : 0 ≤ n) : max 0 (seconds n / seconds 1) = n := by
  simp only [seconds, one_mul]
  omega

theorem seconds_mono {m n : ℤ} (h : m ≤ n) : seconds m ≤ seconds n := by
  simp only [seconds]
  omega

section Limits

variable [Stdlib]

/-- What is promised of a reminder that is published. -/
structure WithinLimits (settings : PublisherSettings) (args : Arguments)
    (request : ReminderRequest) :
    Prop where
  /-- It is not due before it was requested, unless for a point in time that had passed. -/
  order : (∀ t, parseAbsolute args.at_ = .ok t → request.requestedAt ≤ t) →
    request.requestedAt ≤ request.notifyAt
  horizon : request.notifyAt ≤ request.requestedAt + seconds settings.maxDelaySeconds
  delaySeconds : request.delaySeconds = max 0 ((request.notifyAt - request.requestedAt) / seconds 1)
  delay_nonneg : ¬ Negative args.delay
  delaySeconds_nonneg : ¬ Negative args.delaySeconds

/-- The request is in order apart from its timing, and says in one way at most when it is due. -/
structure Clean (uuid : Uuid) (args : Arguments) : Prop where
  provided : ¬ 1 < (provided args).length
  key : Succeeds (chooseKey uuid args.dedupeKey)
  title : Succeeds (cleanTitle args.title)
  text : Succeeds (cleanText args.text)

/-- The point in time that is given is beyond the limit, by less than a second. -/
def Late (settings : PublisherSettings) (now : Time) (args : Arguments) : Prop :=
  ∃ t, parseAbsolute args.at_ = .ok t ∧ now + seconds settings.maxDelaySeconds < t ∧
    t < now + seconds (settings.maxDelaySeconds + 1)

/-- The delay that is given is negative, by less than a second. -/
def Slight (args : Arguments) : Prop :=
  ∃ x, args.delay = .float x ∧ x.lt (.finite 0) = true ∧
    (Number.finite (-1)).lt (Stdlib.timesSixty x) = true

/-- Sixty times a negative number is negative. -/
def KeepsSign : Prop :=
  ∀ x : Number, x.lt (.finite 0) = true → (Stdlib.timesSixty x).lt (.finite 0) = true

variable {settings : PublisherSettings} {now : Time} {uuid : Uuid} {args : Arguments}
  {request : ReminderRequest}

theorem Accepted.clean (h : Accepted settings now uuid args request) : Clean uuid args where
  provided := h.moment.provided_le
  key := ⟨_, h.key⟩
  title := ⟨_, h.title⟩
  text := ⟨_, h.text⟩

theorem Clean.accepted (h : Clean uuid args) {t : Time} {n : ℤ}
    (hmoment : Moment settings now args t n) (hin : InRange t)
    (hmax : n ≤ settings.maxDelaySeconds) :
    ∃ request, Accepted settings now uuid args request ∧ request.notifyAt = t ∧
      request.delaySeconds = n := by
  obtain ⟨key, hkey⟩ := h.key
  obtain ⟨title, htitle⟩ := h.title
  obtain ⟨text, htext⟩ := h.text
  exact ⟨⟨key, key, title, text, n, now, t⟩,
    ⟨hmoment, hin, hmax, hkey, rfl, htitle, htext, rfl⟩, rfl, rfl⟩

/-! ### The delays that pass -/

/-- The value of a negative float that passes is that of a slight one. -/
theorem delayOf_float_iff (hsixty : KeepsSign) {x : Number} (hx : x.lt (.finite 0) = true) :
    (∃ n, DelayOf (.float x) n ∧ 0 ≤ n) ↔
      (Number.finite (-1)).lt (Stdlib.timesSixty x) = true := by
  have hneg := hsixty x hx
  constructor
  · rintro ⟨n, hn, hlo⟩
    cases hn with
    | float _ q hq =>
      rw [hq] at hneg ⊢
      simp only [Number.lt, decide_eq_true_eq] at hneg ⊢
      exact (tdiv_nonneg_iff hneg).mp hlo
    | negZero _ hq =>
      rw [hq] at hneg
      simp [Number.lt] at hneg
  · intro hlt
    cases hq : Stdlib.timesSixty x with
    | finite q =>
      rw [hq] at hneg hlt
      simp only [Number.lt, decide_eq_true_eq] at hneg hlt
      exact ⟨_, .float x q hq, (tdiv_nonneg_iff hneg).mpr hlt⟩
    | negZero => exact ⟨0, .negZero x hq, le_refl 0⟩
    | inf | negInf | nan => rw [hq] at hneg hlt; simp [Number.lt] at hneg hlt

theorem delayOf_slight (hsixty : KeepsSign) {x : Number} (hx : x.lt (.finite 0) = true)
    (hlt : (Number.finite (-1)).lt (Stdlib.timesSixty x) = true) : DelayOf (.float x) 0 := by
  obtain ⟨n, hn, hlo⟩ := (delayOf_float_iff hsixty hx).mpr hlt
  have hneg := hsixty x hx
  cases hn with
  | float _ q hq =>
    rw [hq] at hneg
    simp only [Number.lt, decide_eq_true_eq] at hneg
    have hzero : q.num.tdiv q.den = 0 := le_antisymm (tdiv_nonpos hneg) hlo
    rw [← hzero]
    exact .float x q hq
  | negZero _ hq => exact .negZero x hq

/-! ### The requests that pass -/

/-- A request for a point in time less than a second beyond the limit passes. -/
theorem accepted_late (hclean : Clean uuid args) (hlate : Late settings now args) :
    ∃ request, Accepted settings now uuid args request ∧
      now + seconds settings.maxDelaySeconds < request.notifyAt := by
  obtain ⟨t, hat, hlo, hhi⟩ := hlate
  obtain ⟨s, wall, offset, hs, hread, hin, rfl⟩ := parseAbsolute_eq_ok.mp hat
  have hboth : args.delay = .null ∧ args.delaySeconds = .null := by
    rcases provided_le.mp hclean.provided with h | ⟨-, h⟩ | ⟨-, h⟩
    · exact h
    · rw [hs] at h; cases h
    · rw [hs] at h; cases h
  have hmoment : Moment settings now args (wall - offset) _ :=
    .absolute s wall offset hs hread hboth.1 hboth.2 rfl rfl
  have hmax : max 0 ((wall - offset - now) / seconds 1) ≤ settings.maxDelaySeconds :=
    (wholeSeconds_le_iff (settings.default_nonneg.trans settings.default_le)).mpr
      (sub_lt_iff_lt_add'.mpr hhi)
  obtain ⟨request, haccepted, ht, -⟩ := hclean.accepted hmoment hin hmax
  exact ⟨request, haccepted, by rw [ht]; exact hlo⟩

theorem accepted_slight (hsixty : KeepsSign) (hclean : Clean uuid args) (hnow : InRange now)
    (hslight : Slight args) :
    Negative args.delay ∧ ∃ request, Accepted settings now uuid args request := by
  obtain ⟨x, hx, hneg, hlt⟩ := hslight
  have hboth : args.delaySeconds = .null ∧ args.at_ = .null := by
    rcases provided_le.mp hclean.provided with ⟨h, -⟩ | ⟨h, -⟩ | h
    · rw [hx] at h; cases h
    · rw [hx] at h; cases h
    · exact h
  have hmax : 0 ≤ settings.maxDelaySeconds := settings.default_nonneg.trans settings.default_le
  have hasks : Asks settings args 0 := by
    refine .byDelay ?_ (le_refl 0) hmax hboth.1
    rw [hx]
    exact delayOf_slight hsixty hneg hlt
  have hin : InRange (now + seconds 0) := by
    rw [show now + seconds 0 = now by simp [seconds]]
    exact hnow
  obtain ⟨request, haccepted, -⟩ := hclean.accepted (.after hboth.2 hasks rfl) hin hmax
  rw [hx]
  exact ⟨hneg, request, haccepted⟩

/-! ### The others keep to the limits -/

theorem Accepted.slight (h : Accepted settings now uuid args request) (hsixty : KeepsSign)
    (hneg : Negative args.delay) : Slight args := by
  have hnull : args.delay ≠ .null := by
    intro hnull
    rw [hnull] at hneg
    exact hneg
  rcases h.moment with ⟨-, hasks, -⟩ | ⟨_, _, _, -, -, hd, -, -, -⟩
  · cases hasks with
    | byDefault hd _ _ => exact absurd hd hnull
    | bySeconds _ hd => exact absurd hd hnull
    | byDelay hd hlo _ _ =>
      cases hv : args.delay with
      | float x =>
        rw [hv] at hd hneg
        exact ⟨x, hv, hneg, (delayOf_float_iff hsixty hneg).mp ⟨_, hd, hlo⟩⟩
      | int n =>
        rw [hv] at hd hneg
        have hneg : n < 0 := hneg
        have hvalue : request.delaySeconds = n * 60 :=
          (Except.ok.inj (delayValue_eq_ok.mpr hd)).symm
        omega
      | null | bool _ | str _ | arr _ | obj _ => rw [hv] at hneg; exact hneg.elim
  · exact absurd hd hnull

theorem Accepted.not_negative_delaySeconds (h : Accepted settings now uuid args request) :
    ¬ Negative args.delaySeconds := by
  intro hneg
  have hnull : args.delaySeconds ≠ .null := by
    intro hnull
    rw [hnull] at hneg
    exact hneg
  rcases h.moment with ⟨-, hasks, -⟩ | ⟨_, _, _, -, -, -, hs, -, -⟩
  · cases hasks with
    | byDefault _ hs _ => exact hnull hs
    | byDelay _ _ _ hs => exact hnull hs
    | bySeconds hs _ =>
      cases hv : args.delaySeconds with
      | int n =>
        rw [hv] at hs hneg
        have hneg : n < 0 := hneg
        cases hs with
        | int _ hn => omega
      | float x =>
        rw [hv] at hs hneg
        have hneg : x.lt (.finite 0) = true := hneg
        have hrefused := parseSeconds_eq_ok.mpr hs
        simp [parseSeconds, hneg, inputError] at hrefused
      | null | bool _ | str _ | arr _ | obj _ => rw [hv] at hneg; exact hneg
  · exact hnull hs

theorem Accepted.delaySeconds_eq (h : Accepted settings now uuid args request) :
    request.delaySeconds = max 0 ((request.notifyAt - now) / seconds 1) := by
  have hnonneg := h.moment.nonneg
  rcases h.moment with ⟨-, -, ht⟩ | ⟨_, _, _, -, -, -, -, -, hn⟩
  · rw [ht]
    unfold seconds
    omega
  · exact hn

/-- **A reminder that is accepted keeps to the limits**, if its point in time is not late and its
delay not slight. -/
theorem Accepted.withinLimits (h : Accepted settings now uuid args request) (hsixty : KeepsSign)
    (hlate : ¬ Late settings now args)
    (hslight : ¬ Slight args) : WithinLimits settings args request where
  order hpast := by
    have hnonneg := h.moment.nonneg
    rw [h.requestedAt] at hpast ⊢
    rcases h.moment with ⟨-, -, ht⟩ | ⟨s, wall, offset, ha, hread, -, -, ht, -⟩
    · rw [ht]
      exact le_add_of_nonneg_right (seconds_mono hnonneg)
    · exact hpast _ (parseAbsolute_eq_ok.mpr ⟨s, wall, offset, ha, hread, h.range, ht⟩)
  horizon := by
    have hwithin := h.within
    have hmax : 0 ≤ settings.maxDelaySeconds := settings.default_nonneg.trans settings.default_le
    rw [h.requestedAt]
    rcases h.moment with ⟨-, -, ht⟩ | ⟨s, wall, offset, ha, hread, -, -, ht, hn⟩
    · rw [ht]
      exact add_le_add_right (seconds_mono hwithin) now
    · rw [hn, wholeSeconds_le_iff hmax, sub_lt_iff_lt_add'] at hwithin
      by_contra hbeyond
      have hat := parseAbsolute_eq_ok.mpr ⟨s, wall, offset, ha, hread, h.range, ht⟩
      exact hlate ⟨_, hat, not_le.mp hbeyond, hwithin⟩
  delaySeconds := by rw [h.requestedAt, h.delaySeconds_eq]
  delay_nonneg hneg := hslight (h.slight hsixty hneg)
  delaySeconds_nonneg := h.not_negative_delaySeconds

theorem mem_submit {world : World} : request ∈ (submit settings world args).1 ↔
    Accepted settings world.now world.uuid args request := by
  rw [← prepare_eq_ok]
  unfold submit
  cases prepare settings world.now world.uuid args with
  | error e => simp
  | ok request' => simp [eq_comm]

/-- **The limits are kept exactly where the request is neither late nor slight**, if it is in order
otherwise. -/
theorem limits_iff (settings : PublisherSettings) (world : World) (args : Arguments)
    (hsixty : KeepsSign) :
    (∀ request ∈ (submit settings world args).1, WithinLimits settings args request) ↔
      ¬ (Clean world.uuid args ∧ (Late settings world.now args ∨ Slight args)) := by
  constructor
  · rintro h ⟨hclean, hlate | hslight⟩
    · obtain ⟨request, haccepted, hbeyond⟩ := accepted_late hclean hlate
      have hhorizon := (h request (mem_submit.mpr haccepted)).horizon
      rw [haccepted.requestedAt] at hhorizon
      exact absurd hhorizon (not_le.mpr hbeyond)
    · obtain ⟨hneg, request, haccepted⟩ := accepted_slight hsixty hclean world.now_range hslight
      exact (h request (mem_submit.mpr haccepted)).delay_nonneg hneg
  · intro h request hrequest
    have haccepted := mem_submit.mp hrequest
    refine haccepted.withinLimits hsixty (fun hlate => ?_) fun hslight => ?_
    · exact h ⟨haccepted.clean, Or.inl hlate⟩
    · exact h ⟨haccepted.clean, Or.inr hslight⟩

end Limits

/-! ### Two requests beyond the limits -/

/-- The library on the text of one point in time, an hour and half a second after eight. -/
abbrev Stdlib.late : Stdlib :=
  { Stdlib.sample [] with
    datetimeFromIsoformat := fun s =>
      if s = .of "2026-09-16T09:00:00.500000+00:00" then some (1789549200500000, some 0) else none }

theorem keepsSign_late : @KeepsSign .late := by
  intro x hx
  cases x with
  | finite q =>
    have hq : q < 0 := by simpa [Number.lt] using hx
    have hproduct : q * 60 < 0 := mul_neg_of_neg_of_pos hq (by decide)
    exact decide_eq_true hproduct
  | negZero | inf | negInf | nan => exact hx

/-- For a point in time that is half a second beyond the limit of an hour. -/
def lateArguments : Arguments :=
  { text := .str (.of "drink water"), at_ := .str (.of "2026-09-16T09:00:00.500000+00:00") }

/-- For a delay of six tenths of a second before now. -/
def slightArguments : Arguments :=
  { text := .str (.of "drink water"), delay := .float (.finite (-1 / 100)) }

theorem limits_iff_sample : let _ := Stdlib.late
    ∀ request ∈ (submit sampleSettings sampleWorld sampleArguments).1,
      WithinLimits sampleSettings sampleArguments request := by
  let _ := Stdlib.late
  refine (limits_iff sampleSettings sampleWorld sampleArguments keepsSign_late).mpr ?_
  rintro ⟨-, ⟨t, ht, -⟩ | ⟨x, hx, -⟩⟩
  · cases ht
  · cases hx

/-- Both are accepted. -/
theorem beyond_limits : let _ := Stdlib.late
    (¬ ∀ request ∈ (submit sampleSettings sampleWorld lateArguments).1,
      WithinLimits sampleSettings lateArguments request) ∧
    ¬ ∀ request ∈ (submit sampleSettings sampleWorld slightArguments).1,
      WithinLimits sampleSettings slightArguments request := by
  let _ := Stdlib.late
  refine ⟨fun h => ?_, fun h => ?_⟩
  · have hlimits := h _ (mem_submit.mpr (prepare_eq_ok.mp rfl))
    exact absurd hlimits.horizon (by decide)
  · have hslight : Slight slightArguments := ⟨_, rfl, by decide +kernel, by decide +kernel⟩
    have hclean : Clean sampleWorld.uuid slightArguments :=
      ⟨by decide, ⟨_, rfl⟩, ⟨_, rfl⟩, ⟨_, rfl⟩⟩
    have haccept : Negative slightArguments.delay ∧ ∃ request,
        Accepted sampleSettings sampleWorld.now sampleWorld.uuid slightArguments request :=
      accepted_slight keepsSign_late hclean sampleWorld.now_range hslight
    obtain ⟨hneg, request, haccepted⟩ := haccept
    exact (h request (mem_submit.mpr haccepted)).delay_nonneg hneg

end EventServer.DemoReminder
