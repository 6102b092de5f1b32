import EventServer.DemoReminder.Answers
import EventServer.DemoReminder.Limits

/-! # The spellings of a moment

The moment `n` seconds ahead can be asked for as a delay in words, as a number of minutes, as a
number of seconds or as a point in time (`Gives`). Whatever the spelling, the request is published
for the same moment with the same `delay_seconds`, or refused with an input error
(`spellings_agree`). A delay in words has seven digits at most, which is no bound of its own: more
digits are beyond the limit. -/

namespace EventServer.DemoReminder

open EventServer.Lib EventServer.Python

/-! ### Delays in words -/

/-- `str(m)`, white space and a unit. -/
def spelled (m : ℕ) (space unit : Str) : Str := Str.of (toString m) ++ (space ++ unit)

theorem strip_eq_self {s : Str} (hhead : ∀ c, s.head? = some c → c.isSpace = false)
    (hlast : ∀ c, s.getLast? = some c → c.isSpace = false) : s.strip = s := by
  have hkeep : ∀ s : Str, (∀ c, s.head? = some c → c.isSpace = false) → s.lstrip = s := by
    intro s h
    cases s with
    | nil => rfl
    | cons c s =>
      unfold Str.lstrip
      rw [List.dropWhile_cons_of_neg]
      simp [h c rfl]
  unfold Str.strip
  rw [hkeep s hhead, hkeep s.reverse, List.reverse_reverse]
  intro c hc
  rw [List.head?_reverse] at hc
  exact hlast c hc

/-! ### Characters -/

theorem isAlpha_of_toLower {c : Char} (h : c.toLower.isAlpha = true) : c.isAlpha = true := by
  by_cases hupper : c.isUpper = true
  · have halpha : (c.isUpper || c.isLower) = true := by rw [hupper, Bool.true_or]
    exact halpha
  · have hsame : c.toLower = c := by
      have hrange : ¬ (c.val ≥ 65 ∧ c.val ≤ 90) := fun hr => hupper (decide_eq_true hr)
      unfold Char.toLower
      exact dif_neg hrange
    rwa [hsame] at h

/-! ### Numbers -/

theorem mem_toString {m : ℕ} {c : CodePoint} (h : c ∈ Str.of (toString m)) :
    ∃ d : Char, d.isDigit = true ∧ c = .char d := by
  obtain ⟨d, hd, rfl⟩ := List.mem_map.mp h
  rw [Nat.toString_eq_repr, Nat.toList_repr] at hd
  exact ⟨d, Nat.isDigit_of_mem_toDigits (by omega) (by omega) hd, rfl⟩

theorem toString_ne_nil (m : ℕ) : Str.of (toString m) ≠ [] := by
  intro h
  have hlen : (Str.of (toString m)).length = 0 := by rw [h]; rfl
  have hpos : 0 < (Nat.toDigits 10 m).length := Nat.length_toDigits_pos
  unfold Str.of at hlen
  rw [List.length_map, Nat.toString_eq_repr, Nat.toList_repr] at hlen
  omega

section Digits

variable [Stdlib]

/-- Neither a letter from A to Z nor white space is a decimal digit. -/
def NoOtherDigits : Prop :=
  ∀ c : Char, c.isAlpha = true ∨ CodePoint.isSpace (.char c) = true → Stdlib.decimal c = none

theorem digit?_of_isDigit {c : Char}
    (h : c.isDigit = true) : digit? (.char c) = some (c.toNat - 48) :=
  if_pos h

theorem digit?_eq_none (hdecimal : NoOtherDigits) {c : CodePoint}
    (h : c.isAlpha = true ∨ c.isSpace = true) : digit? c = none := by
  cases c with
  | surrogate n => rfl
  | char c =>
    have hdigit : ¬ c.isDigit = true := by
      intro hd
      have hrange := toNat_of_isDigit hd
      rcases h with halpha | hspace
      · have hletter := toNat_of_isAlpha halpha
        omega
      · rw [isSpace_eq_false (by omega) (by omega)] at hspace
        cases hspace
    simp [digit?, hdigit, hdecimal c h]

/-- **The value of the text of a number** is the number. -/
theorem digitsValue_toString (m : ℕ) : digitsValue (Str.of (toString m)) = m := by
  have hfold : ∀ (cs : List Char) (n : ℕ), (∀ c ∈ cs, c.isDigit = true) →
      (cs.map CodePoint.char).foldl (fun (v : ℤ) c => v * 10 + ((digit? c).getD 0 : ℕ)) n =
        (Nat.ofDigitChars 10 cs n : ℕ) := by
    intro cs
    induction cs with
    | nil => intro n _; simp
    | cons c cs ih =>
      intro n h
      rw [List.map_cons, List.foldl_cons, digit?_of_isDigit (h c List.mem_cons_self),
        Nat.ofDigitChars_cons, ← ih _ fun c hc => h c (List.mem_cons_of_mem _ hc)]
      congr 1
      rw [Option.getD_some]
      push_cast
      rw [mul_comm]
  have hdigits : ∀ c ∈ Nat.toDigits 10 m, c.isDigit = true :=
    fun c hc => Nat.isDigit_of_mem_toDigits (by omega) (by omega) hc
  have htext : Str.of (toString m) = (Nat.toDigits 10 m).map CodePoint.char := by
    unfold Str.of
    rw [Nat.toString_eq_repr, Nat.toList_repr]
  have hvalue := hfold (Nat.toDigits 10 m) 0 hdigits
  rw [Nat.ofDigitChars_ten_toDigits] at hvalue
  rw [htext]
  exact hvalue

/-! ### Delays -/

omit [Stdlib] in
theorem eq_of_chars? {s : Str} {cs : List Char} (h : s.chars? = some cs) : s = cs.map .char := by
  induction s generalizing cs with
  | nil =>
    cases h
    rfl
  | cons c s ih =>
    cases c with
    | char c =>
      obtain ⟨cs', hs, rfl⟩ := Option.map_eq_some_iff.mp h
      rw [ih hs, List.map_cons]
    | surrogate n => cases h

omit [Stdlib] in
theorem isAlpha_of_factor? {unit : Str} {factor : ℤ} (h : factor? unit = some factor) :
    (∀ c ∈ unit, c.isAlpha = true) ∧ 1 ≤ factor := by
  unfold factor? at h
  split_ifs at h with hempty
  · cases h
    refine ⟨fun c hc => ?_, by omega⟩
    rw [hempty] at hc
    cases hc
  · obtain ⟨name, hname, hlookup⟩ := Option.bind_eq_some_iff.mp h
    obtain ⟨l₁, l₂, hmem, -⟩ := List.lookup_eq_some_iff.mp hlookup
    have hpair : (name, factor) ∈ unitSeconds := by rw [hmem]; simp
    have hall : unitSeconds.all (fun p => p.1.toList.all Char.isAlpha && decide (1 ≤ p.2)) =
        true := by
      decide +kernel
    have hunit := List.all_eq_true.mp hall _ hpair
    rw [Bool.and_eq_true, List.all_eq_true, decide_eq_true_eq] at hunit
    obtain ⟨hletters, hfactor⟩ := hunit
    obtain ⟨cs, hcs, rfl⟩ := Option.map_eq_some_iff.mp hname
    rw [String.toList_ofList] at hletters
    refine ⟨fun c hc => ?_, hfactor⟩
    have hlower : ∀ c ∈ lowerUnit unit, ∃ d ∈ cs, c = .char d := by
      rw [eq_of_chars? hcs]
      intro c hc
      obtain ⟨d, hd, rfl⟩ := List.mem_map.mp hc
      exact ⟨d, hd, rfl⟩
    cases c with
    | char c =>
      obtain ⟨d, hd, he⟩ := hlower (.char c.toLower) (List.mem_map.mpr ⟨_, hc, rfl⟩)
      cases he
      exact isAlpha_of_toLower (hletters _ hd)
    | surrogate n =>
      obtain ⟨d, -, he⟩ := hlower (.surrogate n) (List.mem_map.mpr ⟨_, hc, rfl⟩)
      cases he

omit [Stdlib] in
theorem strip_spelled {m : ℕ} {space unit : Str} (hunit : ∀ c ∈ unit, c.isAlpha = true)
    (hbare : unit = [] → space = []) : (spelled m space unit).strip = spelled m space unit := by
  have hdigit : ∀ c ∈ Str.of (toString m), c.isSpace = false := by
    intro c hc
    obtain ⟨d, hd, rfl⟩ := mem_toString hc
    have hrange := toNat_of_isDigit hd
    exact isSpace_eq_false (by omega) (by omega)
  refine strip_eq_self (fun c hc => hdigit c ?_) fun c hc => ?_
  · unfold spelled at hc
    rw [List.head?_append_of_ne_nil _ (toString_ne_nil m)] at hc
    exact List.mem_of_head? hc
  · unfold spelled at hc
    by_cases hempty : unit = []
    · rw [hbare hempty, hempty, List.append_nil, List.append_nil] at hc
      exact hdigit c (List.mem_of_getLast? hc)
    · rw [← List.append_assoc, List.getLast?_append_of_ne_nil _ hempty] at hc
      exact isSpace_of_isAlpha (hunit c (List.mem_of_getLast? hc))

/-- **A number, white space and a unit** are read as such, if the number has at most seven
digits. -/
theorem matchDelay_spelled (hdecimal : NoOtherDigits) {m : ℕ} {space unit : Str}
    (hspace : ∀ c ∈ space, c.isSpace = true) (hunit : ∀ c ∈ unit, c.isAlpha = true)
    (hbare : unit = [] → space = []) :
    matchDelay (spelled m space unit).strip =
      if (Str.of (toString m)).length ≤ 7 then some ((m : ℤ), unit) else none := by
  have hdigits : ∀ c ∈ Str.of (toString m), (digit? c).isSome = true := by
    intro c hc
    obtain ⟨d, hd, rfl⟩ := mem_toString hc
    rw [digit?_of_isDigit hd]
    rfl
  have hrest : ∀ c ∈ space ++ unit, ¬ (digit? c).isSome = true := by
    intro c hc
    rw [digit?_eq_none hdecimal ((List.mem_append.mp hc).symm.imp (hunit c) (hspace c))]
    simp
  have htake : (spelled m space unit).takeWhile (fun c => (digit? c).isSome) =
      Str.of (toString m) := by
    unfold spelled
    rw [List.takeWhile_append_of_pos hdigits]
    cases hr : space ++ unit with
    | nil => simp
    | cons c r =>
      have hc := hrest c (by rw [hr]; exact List.mem_cons_self)
      simp [hc]
  have hdrop : (spelled m space unit).dropWhile (fun c => (digit? c).isSome) = space ++ unit := by
    unfold spelled
    rw [List.dropWhile_append_of_pos hdigits]
    cases hr : space ++ unit with
    | nil => rfl
    | cons c r =>
      have hc := hrest c (by rw [hr]; exact List.mem_cons_self)
      simp [hc]
  have hword : (space ++ unit).dropWhile CodePoint.isSpace = unit := by
    rw [List.dropWhile_append_of_pos hspace]
    cases unit with
    | nil => rfl
    | cons c r => simp [isSpace_of_isAlpha (hunit c List.mem_cons_self)]
  have hall : unit.all CodePoint.isAlpha = true := List.all_eq_true.mpr hunit
  have hpos : 1 ≤ (Str.of (toString m)).length := List.length_pos_iff.mpr (toString_ne_nil m)
  unfold matchDelay
  simp only [strip_spelled hunit hbare, htake, hdrop, hword, hall, hpos, true_and, and_true,
    digitsValue_toString]

/-! ### The spellings -/

/-- The arguments ask for the moment `n` seconds ahead of `now`. -/
inductive Gives (now : Time) (n : ℕ) (args : Arguments) : Prop
  /-- A number of seconds, minutes or hours, in words; without a unit it is one of minutes. -/
  | words (m : ℕ) (factor : ℤ) (space unit : Str) (hd : args.delay = .str (spelled m space unit))
    (hspace : ∀ c ∈ space, c.isSpace = true) (hbare : unit = [] → space = [])
    (hunit : factor? unit = some factor) (hn : (n : ℤ) = m * factor)
    (hs : args.delaySeconds = .null) (ha : args.at_ = .null)
  | minutes (m : ℕ) (hd : args.delay = .int m) (hn : n = m * 60)
    (hs : args.delaySeconds = .null) (ha : args.at_ = .null)
  | count (hs : args.delaySeconds = .int n) (hd : args.delay = .null) (ha : args.at_ = .null)
  | instant (s : Str) (wall offset : ℤ) (ha : args.at_ = .str s)
    (hread : Stdlib.datetimeFromIsoformat s = some (wall, some offset))
    (ht : wall - offset = now + seconds n) (hd : args.delay = .null)
    (hs : args.delaySeconds = .null)

variable {settings : PublisherSettings} {now : Time} {n : ℕ} {args : Arguments}

theorem delayOf_spelled (hdecimal : NoOtherDigits) {m : ℕ} {factor k : ℤ} {space unit : Str}
    (hspace : ∀ c ∈ space, c.isSpace = true) (hbare : unit = [] → space = [])
    (hunit : factor? unit = some factor) :
    DelayOf (.str (spelled m space unit)) k ↔
      (Str.of (toString m)).length ≤ 7 ∧ k = m * factor := by
  have hmatch := matchDelay_spelled hdecimal (m := m) hspace (isAlpha_of_factor? hunit).1 hbare
  rw [← delayValue_eq_ok]
  unfold delayValue
  simp only [hmatch]
  split_ifs with hlen
  · simp only [hunit, Except.ok.injEq, true_and, hlen]
    exact eq_comm
  · exact iff_of_false (by simp [delayError]) fun h => hlen h.1

/-- **No spelling stands for another moment.** -/
theorem Gives.eq_of_moment (hdecimal : NoOtherDigits) (h : Gives now n args) {t : Time} {k : ℤ}
    (hmoment : Moment settings now args t k) : t = now + seconds n ∧ k = n := by
  -- what the delay comes to, if one is given
  have hdelay : args.delay ≠ .null → args.delaySeconds = .null → args.at_ = .null →
      (∀ k, DelayOf args.delay k → k = n) → t = now + seconds n ∧ k = n := by
    intro hd hs ha hof
    rcases hmoment with ⟨-, hasks, rfl⟩ | ⟨s, _, _, hat, -, -, -, -, -⟩
    · rcases hasks with ⟨hnull, -, -⟩ | ⟨hk, -, -, -⟩ | ⟨-, hnull⟩
      · exact absurd hnull hd
      · rw [hof k hk]
        exact ⟨rfl, rfl⟩
      · exact absurd hnull hd
    · rw [ha] at hat
      cases hat
  cases h with
  | words m factor space unit hd hspace hbare hunit hn hs ha =>
    refine hdelay (by simp [hd]) hs ha fun k hk => ?_
    rw [hd, delayOf_spelled hdecimal hspace hbare hunit] at hk
    rw [hk.2, hn]
  | minutes m hd hn hs ha =>
    refine hdelay (by simp [hd]) hs ha fun k hk => ?_
    rw [hd, ← delayValue_eq_ok] at hk
    rw [← Except.ok.inj hk, hn]
    push_cast
    rfl
  | count hs hd ha =>
    rcases hmoment with ⟨-, hasks, rfl⟩ | ⟨s, _, _, hat, -, -, -, -, -⟩
    · rcases hasks with ⟨-, hnull, -⟩ | ⟨-, -, -, hnull⟩ | ⟨hk, -⟩
      · rw [hs] at hnull; cases hnull
      · rw [hs] at hnull; cases hnull
      · rw [hs, ← parseSeconds_eq_ok] at hk
        have hval : parseSeconds (.int n) = .ok (n : ℤ) :=
          parseSeconds_eq_ok.mpr (.int n (Int.natCast_nonneg n))
        rw [hval, Except.ok.injEq] at hk
        rw [← hk]
        exact ⟨rfl, rfl⟩
    · rw [ha] at hat
      cases hat
  | instant s wall offset ha hread ht hd hs =>
    rcases hmoment with ⟨hat, -, -⟩ | ⟨s', _, _, hat, hread', -, -, rfl, rfl⟩
    · rw [ha] at hat
      cases hat
    · rw [ha] at hat
      cases hat
      rw [hread] at hread'
      cases hread'
      rw [ht, add_sub_cancel_left, wholeSeconds_seconds (Int.natCast_nonneg n)]
      exact ⟨rfl, rfl⟩

/-- **Every spelling stands for its moment**, up to the limit. -/
theorem Gives.moment (hdecimal : NoOtherDigits) (h : Gives now n args)
    (hmax : (n : ℤ) ≤ settings.maxDelaySeconds) :
    Moment settings now args (now + seconds n) n := by
  have hnonneg : (0 : ℤ) ≤ n := Int.natCast_nonneg n
  cases h with
  | words m factor space unit hd hspace hbare hunit hn hs ha =>
    have hfactor := (isAlpha_of_factor? hunit).2
    have hm : (m : ℤ) ≤ m * factor := le_mul_of_one_le_right (Int.natCast_nonneg m) hfactor
    have hlen : (Str.of (toString m)).length ≤ 7 := by
      have hle := settings.max_le
      have htext : (toString m).length ≤ 7 := length_toString_le (by omega) (by omega)
      unfold Str.of
      rwa [List.length_map, String.length_toList]
    have hof : DelayOf args.delay n := by
      rw [hd, delayOf_spelled hdecimal hspace hbare hunit]
      exact ⟨hlen, hn⟩
    exact .after ha (.byDelay hof hnonneg hmax hs) rfl
  | minutes m hd hn hs ha =>
    have hof : DelayOf args.delay n := by
      rw [hd, ← delayValue_eq_ok, hn]
      rfl
    exact .after ha (.byDelay hof hnonneg hmax hs) rfl
  | count hs hd ha =>
    have hof : SecondsOf args.delaySeconds n := by
      rw [hs]
      exact .int n hnonneg
    exact .after ha (.bySeconds hof hd) rfl
  | instant s wall offset ha hread ht hd hs =>
    refine .absolute s wall offset ha hread hd hs ht.symm ?_
    rw [add_sub_cancel_left, wholeSeconds_seconds hnonneg]

theorem Gives.computable (hdecimal : NoOtherDigits) (h : Gives now n args)
    (hin : InRange (now + seconds n)) : Computable settings now args where
  delay ha hs x hx := by
    cases h with
    | words _ _ _ _ hd => rw [hd] at hx; cases hx
    | minutes _ hd => rw [hd] at hx; cases hx
    | count _ hd => rw [hd] at hx; cases hx
    | instant _ _ _ _ _ _ hd => rw [hd] at hx; cases hx
  delaySeconds ha hd x hx := by
    cases h with
    | words _ _ _ _ _ _ _ _ _ hs => rw [hs] at hx; cases hx
    | minutes _ _ _ hs => rw [hs] at hx; cases hx
    | count hs => rw [hs] at hx; cases hx
    | instant _ _ _ _ _ _ _ hs => rw [hs] at hx; cases hx
  moment t k hmoment := by
    rw [(h.eq_of_moment hdecimal hmoment).1]
    exact hin

/-! ### What becomes of a request -/

/-- The request is published, for the moment `t` with the seconds `k`. -/
def PublishesFor (settings : PublisherSettings) (world : World) (args : Arguments)
    (t : Time) (k : ℤ) :
    Prop :=
  ∃ request, (submit settings world args).1 = [request] ∧ request.notifyAt = t ∧
    request.delaySeconds = k

/-- The request is refused with an input error. -/
def Refuses (settings : PublisherSettings) (world : World) (args : Arguments) : Prop :=
  (submit settings world args).1 = [] ∧
    ∃ e, (submit settings world args).2 = .error e ∧ e.isRefusal = true

/-- The arguments other than the timing are in order. -/
structure TextsClean (args : Arguments) : Prop where
  key : args.dedupeKey.isTrue = true → Succeeds (cleanDedupeKey args.dedupeKey)
  title : Succeeds (cleanTitle args.title)
  text : Succeeds (cleanText args.text)

omit [Stdlib] in
theorem textsClean_iff {uuid : Uuid} (hone : ¬ 1 < (provided args).length) :
    TextsClean args ↔ Clean uuid args := by
  have hkey : Succeeds (chooseKey uuid args.dedupeKey) ↔
      (args.dedupeKey.isTrue = true → Succeeds (cleanDedupeKey args.dedupeKey)) := by
    unfold chooseKey
    split_ifs with htrue
    · exact ⟨fun h _ => h, fun h => h htrue⟩
    · exact iff_of_true (succeeds_ok _) fun h => absurd h htrue
  constructor
  · intro h
    exact ⟨hone, hkey.mpr h.key, h.title, h.text⟩
  · intro h
    exact ⟨hkey.mp h.key, h.title, h.text⟩

theorem Gives.provided_le (h : Gives now n args) : ¬ 1 < (provided args).length := by
  rw [DemoReminder.provided_le]
  cases h with
  | words _ _ _ _ _ _ _ _ _ hs ha => exact Or.inr (Or.inr ⟨hs, ha⟩)
  | minutes _ _ _ hs ha => exact Or.inr (Or.inr ⟨hs, ha⟩)
  | count _ hd ha => exact Or.inr (Or.inl ⟨hd, ha⟩)
  | instant _ _ _ _ _ _ hd hs => exact Or.inl ⟨hd, hs⟩

/-- **What becomes of a request for the moment `n` seconds ahead**: it is published if that is
within the limit and the rest is in order, and refused otherwise. -/
theorem Gives.submit (settings : PublisherSettings) {world : World} (hdecimal : NoOtherDigits)
    (h : Gives world.now n args) (hin : InRange (world.now + seconds n)) :
    ((n : ℤ) ≤ settings.maxDelaySeconds ∧ TextsClean args →
      PublishesFor settings world args (world.now + seconds n) n) ∧
    (¬ ((n : ℤ) ≤ settings.maxDelaySeconds ∧ TextsClean args) → Refuses settings world args) := by
  have hclean : TextsClean args ↔ Clean world.uuid args := textsClean_iff h.provided_le
  unfold PublishesFor Refuses DemoReminder.submit
  cases hp : prepare settings world.now world.uuid args with
  | ok request =>
    have haccepted := prepare_eq_ok.mp hp
    obtain ⟨ht, hn⟩ := h.eq_of_moment hdecimal haccepted.moment
    refine ⟨fun _ => ⟨request, rfl, ht, hn⟩,
      fun hnot => absurd ⟨?_, hclean.mpr haccepted.clean⟩ hnot⟩
    rw [← hn]
    exact haccepted.within
  | error e =>
    have hrefusal : e.isRefusal = true := by
      by_contra hr
      have hescapes : Escapes (prepare settings world.now world.uuid args) :=
        ⟨e, hp, by simpa using hr⟩
      exact escapes_prepare.mp hescapes (h.computable hdecimal hin)
    refine ⟨fun hok => ?_, fun _ => ⟨rfl, e, rfl, hrefusal⟩⟩
    obtain ⟨request, haccepted, -⟩ :=
      (hclean.mp hok.2).accepted (h.moment hdecimal hok.1) hin hok.1
    rw [← prepare_eq_ok, hp] at haccepted
    cases haccepted

end Digits

/-! ### Five minutes ahead -/

/-- The library on the text of the point in time five minutes after eight. -/
abbrev Stdlib.soon : Stdlib :=
  { Stdlib.sample [] with
    datetimeFromIsoformat := fun s =>
      if s = .of "2026-09-16T16:05:00+08:00" then some (1789574700000000,
        some 28800000000) else none }

end EventServer.DemoReminder
