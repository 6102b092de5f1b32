import EventServer.Python.DateTime
import Mathlib.Algebra.Order.Ring.Int

/-! # Texts of points in time are told apart

A `datetime` lies in the years 1 to 9999. The calendar finds a day's date and the date its day
(`toOrdinal_ofOrdinal`), every part of `isoformat` has a width of its own, and so two points in time
with the same text are the same (`isoClock_inj`). -/

namespace EventServer.Python

/-- The points in time of a `datetime`: the years 1 to 9999. -/
def InRange (t : Time) : Prop := -719162 * day ≤ t ∧ t < 2932897 * day

instance (t : Time) : Decidable (InRange t) := by unfold InRange; infer_instance

theorem day_eq : day = 86400000000 := rfl

theorem InRange.between {t a b : Time} (ha : InRange a) (hb : InRange b) (h : a ≤ t) (h' : t ≤ b) :
    InRange t := ⟨ha.1.trans h, h'.trans_lt hb.2⟩

/-! ### The calendar -/

/-- Month and day of a day of the year, the last one of a leap year apart. -/
theorem monthDay_spec (leap : Bool) {n : ℕ} (h : n < 365) :
    daysBeforeMonth leap (monthDay leap n).1 + (monthDay leap n).2 = n + 1 ∧
      (monthDay leap n).1 < 100 ∧ (monthDay leap n).2 < 100 := by
  have hall : ∀ leap : Bool, ∀ n < 365,
      daysBeforeMonth leap (monthDay leap n).1 + (monthDay leap n).2 = n + 1 ∧
        (monthDay leap n).1 < 100 ∧ (monthDay leap n).2 < 100 := by decide +kernel
  exact hall leap n h

/-- The years of a cycle of 400 years, from the quotients that `_ord2ymd` computes. -/
theorem year_spec {a b c d : ℕ} (hb : b ≤ 3) (hc : c ≤ 24) (hd : d ≤ 3) :
    daysBeforeYear (a * 400 + 1 + b * 100 + c * 4 + d) =
        a * 146097 + b * 36524 + c * 1461 + d * 365 ∧
      isLeap (a * 400 + 1 + b * 100 + c * 4 + d) = (d = 3 && (c ≠ 24 || b = 3)) := by
  constructor
  · unfold daysBeforeYear
    simp only
    omega
  · unfold isLeap
    rw [Bool.eq_iff_iff]
    simp only [Bool.and_eq_true, Bool.or_eq_true, decide_eq_true_eq]
    omega

theorem Date.eq_of_parts {d d' : Date} (hy : d.year = d'.year) (hm : d.month = d'.month)
    (hd : d.day = d'.day) : d = d' := by
  cases d
  cases d'
  simp only [Date.mk.injEq]
  exact ⟨hy, hm, hd⟩

theorem lastDay_spec {a b c : ℕ} (hb : b ≤ 3) (hc : c ≤ 24) (hleap : c ≠ 24 ∨ b = 3) :
    (Date.mk (a * 400 + 1 + b * 100 + c * 4 + 3) 12 31).toOrdinal =
      a * 146097 + b * 36524 + c * 1461 + 1461 := by
  obtain ⟨hdays, hl⟩ := year_spec (a := a) hb hc (le_refl 3)
  have hleap' : isLeap (a * 400 + 1 + b * 100 + c * 4 + 3) = true := by
    rw [hl]
    simpa using hleap
  unfold Date.toOrdinal
  rw [hdays, hleap']
  show _ + 335 + 31 = _
  omega

/-- **The date of a day has the ordinal of the day.** -/
theorem toOrdinal_ofOrdinal {n : ℕ} (h : 1 ≤ n) (h' : n ≤ 3652059) :
    (Date.ofOrdinal n).toOrdinal = n ∧ (Date.ofOrdinal n).year < 10000 ∧
      (Date.ofOrdinal n).month < 100 ∧ (Date.ofOrdinal n).day < 100 := by
  obtain ⟨a, r₁, ha, hr₁⟩ : ∃ a r, (n - 1) / 146097 = a ∧ (n - 1) % 146097 = r := ⟨_, _, rfl, rfl⟩
  obtain ⟨b, r₂, hb, hr₂⟩ : ∃ b r, r₁ / 36524 = b ∧ r₁ % 36524 = r := ⟨_, _, rfl, rfl⟩
  obtain ⟨c, r₃, hc, hr₃⟩ : ∃ c r, r₂ / 1461 = c ∧ r₂ % 1461 = r := ⟨_, _, rfl, rfl⟩
  obtain ⟨d, r₄, hd, hr₄⟩ : ∃ d r, r₃ / 365 = d ∧ r₃ % 365 = r := ⟨_, _, rfl, rfl⟩
  have hn : n = a * 146097 + b * 36524 + c * 1461 + d * 365 + r₄ + 1 := by omega
  have hc24 : c ≤ 24 := by omega
  unfold Date.ofOrdinal
  simp only [ha, hr₁, hb, hr₂, hc, hr₃, hd, hr₄]
  by_cases hlast : d = 4 ∨ b = 4
  · rw [if_pos hlast]
    refine ⟨?_, by simp only; omega, by simp, by simp⟩
    rcases hlast with rfl | rfl
    · have hyear : a * 400 + 1 + b * 100 + c * 4 + 4 - 1 = a * 400 + 1 + b * 100 + c * 4 + 3 := by
        omega
      rw [hyear, lastDay_spec (by omega) hc24 (by omega)]
      omega
    · have hyear : a * 400 + 1 + 4 * 100 + c * 4 + d - 1 = a * 400 + 1 + 3 * 100 + 24 * 4 + 3 := by
        omega
      rw [hyear, lastDay_spec (le_refl 3) (le_refl 24) (by simp)]
      omega
  · rw [if_neg hlast]
    obtain ⟨hdays, hl⟩ := year_spec (a := a) (b := b) (c := c) (d := d) (by omega) hc24 (by omega)
    obtain ⟨hmd, hm, hday⟩ := monthDay_spec (d = 3 && (c ≠ 24 || b = 3)) (n := r₄) (by omega)
    refine ⟨?_, by simp only; omega, hm, hday⟩
    unfold Date.toOrdinal
    simp only [hdays, hl]
    omega

/-! ### Decimal texts -/

theorem ofDigitChars_decPad (w n : ℕ) : Nat.ofDigitChars 10 (decPad w n) 0 = n := by
  unfold decPad
  simp only [Nat.ofDigitChars_append, Nat.ofDigitChars_replicate_zero, Nat.mul_zero,
    Nat.ofDigitChars_ten_toDigits]

theorem length_decPad {w n : ℕ} (hw : 0 < w) (h : n < 10 ^ w) : (decPad w n).length = w := by
  have hle := (Nat.length_toDigits_le_iff (b := 10) (by omega) hw).mpr h
  unfold decPad
  rw [List.length_append, List.length_replicate]
  omega

theorem decPad_inj {w n n' : ℕ} (h : decPad w n = decPad w n') : n = n' := by
  rw [← ofDigitChars_decPad w n, h, ofDigitChars_decPad]

theorem decPad_append_inj {w n n' : ℕ} {rest rest' : List Char} (hw : 0 < w) (hn : n < 10 ^ w)
    (hn' : n' < 10 ^ w) (h : decPad w n ++ rest = decPad w n' ++ rest') :
    n = n' ∧ rest = rest' := by
  have hlen : (decPad w n).length = (decPad w n').length := by
    rw [length_decPad hw hn, length_decPad hw hn']
  obtain ⟨hhead, htail⟩ := List.append_inj h hlen
  exact ⟨decPad_inj hhead, htail⟩

/-! ### The texts -/

theorem ordinal_spec {t : ℤ} (h : InRange t) :
    1 ≤ (t / day + epochOrdinal).toNat ∧ (t / day + epochOrdinal).toNat ≤ 3652059 ∧
      ((t / day + epochOrdinal).toNat : ℤ) = t / day + 719163 := by
  obtain ⟨hlo, hhi⟩ := h
  have hlo' : -719162 ≤ t / day := by
    rw [Int.le_ediv_iff_mul_le (by decide)]
    exact hlo
  have hhi' : t / day < 2932897 := by
    rw [Int.ediv_lt_iff_lt_mul (by decide)]
    exact hhi
  unfold epochOrdinal
  omega

theorem toNat_emod_day_lt (t : ℤ) : (t % day).toNat < 86400000000 := by
  have hnonneg := Int.emod_nonneg t (b := day) (by decide)
  have hlt := Int.emod_lt_of_pos t (b := day) (by decide)
  rw [day_eq] at hnonneg hlt ⊢
  omega

theorem length_isoClock {t : ℤ} (ht : InRange t) :
    (isoClock t).length = if (t % day).toNat % 1000000 = 0 then 19 else 26 := by
  obtain ⟨hlo, hhi, -⟩ := ordinal_spec ht
  obtain ⟨-, hy, hm, hd⟩ := toOrdinal_ofOrdinal hlo hhi
  have hus := toNat_emod_day_lt t
  have hfraction : (if (t % day).toNat % 1000000 = 0 then [] else
      '.' :: decPad 6 ((t % day).toNat % 1000000)).length =
        if (t % day).toNat % 1000000 = 0 then 0 else 7 := by
    split_ifs
    · rfl
    · rw [List.length_cons, length_decPad (by omega) (by omega)]
  unfold isoClock dateOf
  simp only [List.length_append, List.length_cons, hfraction]
  rw [length_decPad (by omega) hy, length_decPad (by omega) hm, length_decPad (by omega) hd,
    length_decPad (by omega) (by omega), length_decPad (by omega) (by omega),
    length_decPad (by omega) (by omega)]
  split_ifs <;> omega

/-- The parts of a text and what is left after each are those of the other text. -/
theorem isoClock_inj {t t' : ℤ} (ht : InRange t) (ht' : InRange t')
    (h : isoClock t = isoClock t') : t = t' := by
  obtain ⟨hlo, hhi, hord⟩ := ordinal_spec ht
  obtain ⟨hlo', hhi', hord'⟩ := ordinal_spec ht'
  obtain ⟨hdate, hy, hm, hd⟩ := toOrdinal_ofOrdinal hlo hhi
  obtain ⟨hdate', hy', hm', hd'⟩ := toOrdinal_ofOrdinal hlo' hhi'
  have hus := toNat_emod_day_lt t
  have hus' := toNat_emod_day_lt t'
  unfold isoClock dateOf at h
  simp only [List.append_assoc, List.cons_append] at h
  obtain ⟨hyear, h⟩ := decPad_append_inj (by omega) hy hy' h
  rw [List.cons_inj_right] at h
  obtain ⟨hmonth, h⟩ := decPad_append_inj (by omega) hm hm' h
  rw [List.cons_inj_right] at h
  obtain ⟨hday, h⟩ := decPad_append_inj (by omega) hd hd' h
  rw [List.cons_inj_right] at h
  obtain ⟨hhour, h⟩ := decPad_append_inj (by omega) (by omega) (by omega) h
  rw [List.cons_inj_right] at h
  obtain ⟨hminute, h⟩ := decPad_append_inj (by omega) (by omega) (by omega) h
  rw [List.cons_inj_right] at h
  obtain ⟨hsecond, h⟩ := decPad_append_inj (by omega) (by omega) (by omega) h
  have hmicro : (t % day).toNat % 1000000 = (t' % day).toNat % 1000000 := by
    split_ifs at h with h0 h0' h0'
    · omega
    · rw [List.cons_inj_right] at h
      exact decPad_inj h
  have hordinal : (t / day + epochOrdinal).toNat = (t' / day + epochOrdinal).toNat := by
    rw [← hdate, ← hdate', Date.eq_of_parts hyear hmonth hday]
  have hdays : t / day = t' / day := by omega
  have hclock : t % day = t' % day := by
    have hnonneg := Int.emod_nonneg t (b := day) (by decide)
    have hnonneg' := Int.emod_nonneg t' (b := day) (by decide)
    omega
  rw [← Int.ediv_mul_add_emod t day, hdays, hclock, Int.ediv_mul_add_emod]

theorem isDigit_of_mem_decPad {w n : ℕ} {c : Char} (h : c ∈ decPad w n) : c.isDigit = true := by
  unfold decPad at h
  rcases List.mem_append.mp h with h | h
  · rw [(List.mem_replicate.mp h).2]
    rfl
  · exact Nat.isDigit_of_mem_toDigits (by omega) (by omega) h

theorem plus_not_mem_isoClock (t : Time) : '+' ∉ isoClock t := by
  have hpad : ∀ w n, '+' ∉ decPad w n := by
    intro w n h
    have := isDigit_of_mem_decPad h
    revert this
    decide
  unfold isoClock
  simp only [List.mem_append, List.mem_cons, hpad, not_or]
  split_ifs <;> simp [hpad]

end EventServer.Python
