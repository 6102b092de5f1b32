import EventServer.Observability

/-! # What redaction hides

Two messages that differ only in the value of a secret field, or only in a bearer token, should be
the same once they are redacted. A value is hidden up to the first white space and a token up to the
first character that is not of its class; the rest stays in the message. Neither is hidden where the
text before it does not leave the expressions at rest: a field name after the word Bearer is taken
for a token, and the word Bearer after an open quote belongs to the value.

`redaction` gives the exact condition for fields, and the condition for tokens, which is exact for
tokens without double quotes. Redacting a second time never changes anything. -/

namespace EventServer.Observability

open EventServer.Lib EventServer.Lib.Masking EventServer.Python

/-- `field: "s"` in a text. -/
def fieldText (before field s rest : Str) : Str :=
  before ++ field ++ Str.of ": " ++ quote :: (s ++ quote :: rest)

/-- A bearer word and `t` in a text. -/
def bearerText (before word t rest : Str) : Str := before ++ word ++ (t ++ rest)

/-- No run goes on at the end of the text, and none may begin there. -/
def AtRest (p : Pattern CodePoint) (text : Str) : Prop := (after p text).AtRest p

/-- A token without white space that the settings accept. -/
def Token (t : Str) : Prop := rejectShortProductionToken t = .ok t ∧ ∀ c ∈ t, c.isSpace = false

/-! ### Fields -/

section Fields

variable {before field rest s s' : Str}

theorem bearerSub_quote (x y : Str) :
    bearerSub (x ++ quote :: y) = bearerSub x ++ quote :: bearerSub y := by
  have hquote : Separates bearer quote := bearer_separates (by decide +kernel) rfl
  rw [bearerSub_eq, bearerSub_eq, bearerSub_eq, output_append, output_separator hquote rfl]

theorem isSpace_of_name (hfield : field ∈ nameLanguage) :
    ∀ c ∈ field ++ [.char ':'], c.isSpace = false := by
  intro c hc
  rcases List.mem_append.mp hc with hc | hc
  · exact (letter_kinds (isLetter_of_name hfield c hc)).2.1
  · rw [List.mem_singleton.mp hc]
    rfl

theorem isValueChar_of_name (hfield : field ∈ nameLanguage) :
    ∀ c ∈ field ++ [.char ':'], isValueChar c = true := by
  intro c hc
  rcases List.mem_append.mp hc with hc | hc
  · exact isValueChar_of_isTokenChar (letter_kinds (isLetter_of_name hfield c hc)).1
  · rw [List.mem_singleton.mp hc]
    decide

theorem name_ne_nil (hfield : field ∈ nameLanguage) : field ≠ [] := by
  obtain ⟨c, v, rfl, -⟩ := begins_name field hfield
  exact List.cons_ne_nil c v

theorem colon_split : Str.of ": " = [.char ':', .char ' '] := by decide

theorem bearerSub_name (hfield : field ∈ nameLanguage) (hrest : AtRest bearer before) :
    bearerSub (before ++ field ++ Str.of ": ") = bearerSub before ++ field ++ Str.of ": " := by
  have hcopy : output bearer redacted (after bearer before) (field ++ [.char ':'] ++ [.char ' ']) =
      field ++ [.char ':'] ++ [.char ' '] := by
    refine output_atRest bearer_endsIn (isSpace_of_name hfield) (fun c hc => ?_) hrest
    rw [List.mem_singleton.mp hc]
    rfl
  have hsplit : before ++ field ++ Str.of ": " = before ++
      (field ++ [.char ':'] ++ [.char ' ']) := by
    rw [colon_split]
    simp
  rw [hsplit, bearerSub_eq, output_append, ← bearerSub_eq]
  show _ ++ output bearer redacted (after bearer before) _ = _
  rw [hcopy, colon_split]
  simp

theorem bearerSub_name_masked (hfield : field ∈ nameLanguage) (hrest : ¬ AtRest bearer before) :
    ∃ z, bearerSub (before ++ field ++ Str.of ": ") = z ++ redacted ++ Str.of ": " := by
  have hrun : ∀ c ∈ field, isTokenChar c = true := fun c hc =>
    (letter_kinds (isLetter_of_name hfield c hc)).1
  have hmasking : after bearer (before ++ field) = .masking := by
    unfold after
    rw [run_append]
    exact run_of_not_atRest hrest (name_ne_nil hfield) hrun
  obtain ⟨z, hz⟩ := output_of_masking redacted hmasking
  refine ⟨z, ?_⟩
  have hstop : output bearer redacted .masking (Str.of ": ") = Str.of ": " := by
    have hnot : ∀ c ∈ Str.of ": ", bearer.run c = false := by
      intro c hc
      rw [colon_split] at hc
      rcases List.mem_pair.mp hc with rfl | rfl <;> decide
    rw [output_masking_of_head fun c hc => hnot c (List.mem_of_head? hc),
      output_plain (plain_of_not_run hnot)]
  rw [bearerSub_eq, output_append, hz]
  show _ ++ output bearer redacted (after bearer (before ++ field)) _ = _
  rw [hmasking, hstop]

theorem not_opens_of_letters {z : Str}
    (h : ∀ c ∈ z, isLetter c = false) : ¬ secretField.Opens z := by
  rintro ⟨x, w, rfl, hw⟩
  obtain ⟨g, d, s, rfl, -, ⟨c, hc, hletter⟩, -⟩ := field_split hw
  have hfalse := h c (by simp [hc])
  rw [hletter] at hfalse
  cases hfalse

theorem isValueChar_stop {c : CodePoint} (hc : c ∈ [CodePoint.char ' ', quote]) :
    isValueChar c = false := by
  rcases List.mem_pair.mp hc with rfl | rfl <;> rfl

theorem not_opens_stop : ¬ secretField.Opens [.char ' ', quote] := by
  refine not_opens_of_letters fun c hc => ?_
  rcases List.mem_pair.mp hc with rfl | rfl <;> decide +kernel

/-- The mark is not the name of a field: after it a colon and a quote open nothing. -/
theorem after_mark (z : Str) : ∃ seen, run (next secretField) (.reading [])
    (z ++ (redacted ++ [.char ':'] ++ [.char ' ', quote])) = .reading seen ∧
      ¬ secretField.Opens seen := by
  have hrun : ∀ c ∈ redacted ++ [.char ':'], isValueChar c = true := by
    intro c hc
    rcases List.mem_append.mp hc with hc | hc
    · exact isValueChar_of_mem_redacted hc
    · rw [List.mem_singleton.mp hc]
      decide
  rw [run_append]
  by_cases hat : (after secretField z).AtRest secretField
  · obtain ⟨seen, hseen⟩ := run_atRest field_endsIn (fun c hc => isQuote_of_isValueChar (hrun c hc))
      (fun c hc => isValueChar_stop hc) hat
    refine ⟨_, hseen, fun ho => ?_⟩
    have hforget : secretField.Opens [.char ':', .char ' ', quote] := by
      refine forgets_redacted (field_separates (by decide +kernel) rfl rfl rfl) seen _ ?_
      simpa using ho
    refine not_opens_of_letters (fun c hc => ?_) hforget
    have hall : ([CodePoint.char ':', .char ' ', quote].all fun c => !isLetter c) = true := by
      decide +kernel
    simpa using List.all_eq_true.mp hall c hc
  · exact ⟨_, run_of_run (List.append_ne_nil_of_right_ne_nil _ (List.cons_ne_nil _ _)) hrun
      (List.cons_ne_nil _ _) (fun c hc => isValueChar_stop hc) hat, not_opens_stop⟩

/-- **The value is masked** if both expressions are at rest before the field. -/
theorem after_opening (before : Str) (hfield : field ∈ nameLanguage) :
    ∃ seen, run (next secretField) (.reading [])
      (bearerSub (before ++ field ++ Str.of ": ") ++ [quote]) =
      .reading seen ∧
      (secretField.Opens seen ↔ AtRest bearer before ∧ AtRest secretField (bearerSub before)) := by
  by_cases hrest : AtRest bearer before
  · have hsplit : bearerSub (before ++ field ++ Str.of ": ") ++ [quote] =
        bearerSub before ++ (field ++ [.char ':'] ++ [.char ' ', quote]) := by
      rw [bearerSub_name hfield hrest, colon_split]
      simp
    obtain ⟨seen, hseen, hopens⟩ := run_word field_endsIn (fun c hc => isQuote_of_isValueChar hc)
      (field_word hfield) (List.append_ne_nil_of_right_ne_nil _ (List.cons_ne_nil _ _))
      (isValueChar_of_name hfield) (List.cons_ne_nil _ _)
        (fun c hc => isValueChar_stop hc) not_opens_stop
      (after secretField (bearerSub before))
    refine ⟨seen, ?_, hopens.trans (and_iff_right hrest).symm⟩
    rw [hsplit, run_append]
    exact hseen
  · obtain ⟨z, hz⟩ := bearerSub_name_masked hfield hrest
    obtain ⟨seen, hseen, hclosed⟩ := after_mark z
    refine ⟨seen, ?_, iff_of_false hclosed fun h => hrest h.1⟩
    rw [hz, ← hseen, colon_split]
    simp

theorem quote_not_mem_bearerSub (h : quote ∉ s) : quote ∉ bearerSub s := by
  intro hmem
  rw [bearerSub_eq] at hmem
  exact (mem_output hmem).elim quote_not_mem_redacted h

theorem redactText_fieldText {seen : Str}
    (hseen : run (next secretField) (.reading [])
      (bearerSub (before ++ field ++ Str.of ": ") ++ [quote]) =
      .reading seen) (s rest : Str) : redactText (fieldText before field s rest) =
    output secretField redacted (.reading [])
      (bearerSub (before ++ field ++ Str.of ": ") ++ [quote]) ++
      output secretField redacted (.reading seen) (bearerSub s ++ quote :: bearerSub rest) := by
  have hsplit : bearerSub (fieldText before field s rest) =
      bearerSub (before ++ field ++ Str.of ": ") ++ [quote] ++
        (bearerSub s ++ quote :: bearerSub rest) := by
    unfold fieldText
    rw [bearerSub_quote, bearerSub_quote]
    simp
  rw [redactText_eq, hsplit, output_append, hseen]

theorem output_value_eq {seen v v' t : Str} (hv : quote ∉ v) (hv' : quote ∉ v')
    (h : output secretField redacted (.reading seen) (v ++ quote :: t) =
      output secretField redacted (.reading seen) (v' ++ quote :: t)) :
    output secretField redacted (.reading seen) v = output secretField redacted
      (.reading seen) v' := by
  have hnone : ∀ {v : Str}, quote ∉ v → ∀ c ∈ output secretField redacted (.reading seen) v,
      (!isQuote c) = true := by
    intro v hv c hc
    have hnot : quote ∉ output secretField redacted (.reading seen) v := fun hmem =>
      (mem_output hmem).elim quote_not_mem_redacted hv
    rw [isQuote_of_not_mem hnot c hc]
    rfl
  have hclose :
      ∀ (v : Str), ∀ c ∈ (output secretField redacted (run (next secretField) (.reading seen) v)
      (quote :: t)).head?, (!isQuote c) = false := by
    intro v c hc
    rw [output_cons, write_of_not_run _ rfl, List.singleton_append, List.head?_cons,
      Option.mem_some_iff] at hc
    rw [← hc]
    rfl
  rw [output_append, output_append] at h
  exact run_inj (hnone hv) (hnone hv') (hclose v) (hclose v') h

/-- The condition under which two values are hidden: they are the same up to bearer tokens, or both
expressions are at rest before the field, the values begin with a value character and they are the
same from the first white space on. -/
def ValuesHidden (before s s' : Str) : Prop :=
  bearerSub s = bearerSub s' ∨ AtRest bearer before ∧ AtRest secretField (bearerSub before) ∧
    SameRest isValueChar (bearerSub s) (bearerSub s')

theorem valuesHidden_iff_of_plain (hs : Plain bearer [] s) (hs' : Plain bearer [] s') :
    ValuesHidden before s s' ↔ s = s' ∨ AtRest bearer before ∧
      AtRest secretField (bearerSub before) ∧
      SameRest isValueChar s s' := by
  unfold ValuesHidden
  rw [bearerSub_eq s, bearerSub_eq s', output_plain hs, output_plain hs']

/-- **Values that redaction hides.** -/
theorem redactText_field_iff (hfield : field ∈ nameLanguage) (hs : quote ∉ s) (hs' : quote ∉ s') :
    redactText (fieldText before field s rest) = redactText (fieldText before field s' rest) ↔
      ValuesHidden before s s' := by
  obtain ⟨seen, hseen, hopens⟩ := after_opening before hfield
  have hv := quote_not_mem_bearerSub hs
  have hv' := quote_not_mem_bearerSub hs'
  rw [redactText_fieldText hseen, redactText_fieldText hseen, List.append_cancel_left_eq]
  constructor
  · intro h
    have hvalue := output_value_eq hv hv' h
    by_cases ho : secretField.Opens seen
    · rw [output_opened field_endsIn ho (isQuote_of_not_mem hv),
        output_opened field_endsIn ho (isQuote_of_not_mem hv')] at hvalue
      obtain ⟨hrest, hrest'⟩ := hopens.mp ho
      have hmarked : ∀ {v v' : Str}, Marked isValueChar redacted v v' → SameRest isValueChar v v' :=
        fun h => sameRest_of_marked redacted_ne_nil (fun c hc => isValueChar_of_mem_redacted hc) h
      rcases cases_of_maskRun hvalue with heq | hsame | hmark | hmark
      · exact Or.inl heq
      · exact Or.inr ⟨hrest, hrest', hsame⟩
      · exact Or.inr ⟨hrest, hrest', hmarked hmark⟩
      · obtain ⟨htake, htake', hdrop⟩ := hmarked hmark
        exact Or.inr ⟨hrest, hrest', htake', htake, hdrop.symm⟩
    · rw [output_plain (plain_of_ends field_endsIn ho (isQuote_of_not_mem hv)),
        output_plain (plain_of_ends field_endsIn ho (isQuote_of_not_mem hv'))] at hvalue
      exact Or.inl hvalue
  · rintro (heq | ⟨hrest, hrest', htake, htake', hdrop⟩)
    · rw [heq]
    · have ho := hopens.mpr ⟨hrest, hrest'⟩
      have hdrop' : (bearerSub s).dropWhile secretField.run =
          (bearerSub s').dropWhile secretField.run := hdrop
      rw [output_take ho htake redacted, output_take ho htake' redacted, hdrop']

end Fields

/-! ### Tokens -/

section Tokens

variable {before word rest t t' : Str}

/-- A token and what belongs to it in the text: the characters up to white space or a quote. -/
def shown (t rest : Str) : Str := t ++ rest.takeWhile isValueChar

/-- What comes after it. -/
def beyond (rest : Str) : Str := rest.dropWhile isValueChar

theorem bearerText_eq (before word t rest : Str) :
    bearerText before word t rest = before ++ word ++ (shown t rest ++ beyond rest) := by
  unfold bearerText shown beyond
  rw [List.append_assoc t, List.takeWhile_append_dropWhile]

theorem head?_beyond (rest : Str) : ∀ c ∈ (beyond rest).head?, isValueChar c = false :=
  head?_dropWhile isValueChar rest

theorem letters_ne_nil {a : Str} (ha : a ∈ spellings sameLetter bearerWord) : a ≠ [] := by
  rintro rfl
  have hlength : bearerWord.length = 0 := List.Forall₂.length_eq ha
  have hsix : bearerWord.length = 6 := by decide
  omega

/-- **A token is masked** if bearer tokens are at rest before the word. -/
theorem after_word (before : Str) (hword : word ∈ bearerLanguage) :
    ∃ seen, after bearer (before ++ word) = .reading seen ∧
      (bearer.Opens seen ↔ AtRest bearer before) := by
  obtain ⟨a, s, rfl, ha, hne, hs⟩ := bearer_split hword
  have hstop : ∀ c ∈ s, isTokenChar c = false := fun c hc => isTokenChar_of_isSpace (hs c hc)
  have hnot : ¬ bearer.Opens s := by
    rintro ⟨x, w, rfl, hw⟩
    obtain ⟨a', s', rfl, ha', -⟩ := bearer_split hw
    obtain ⟨c, a', rfl⟩ := List.exists_cons_of_ne_nil (letters_ne_nil ha')
    have hletter := letter_kinds (isLetter_of_bearer ha' c List.mem_cons_self)
    have hspace := hs c (List.mem_append_right x List.mem_cons_self)
    rw [hletter.2.1] at hspace
    cases hspace
  obtain ⟨seen, hseen, hopens⟩ := run_word bearer_endsIn (fun c hc =>
    isSpace_of_isTokenChar hc) hword (letters_ne_nil ha) (fun c hc =>
    (letter_kinds (isLetter_of_bearer ha c hc)).1) hne hstop hnot
    (after bearer before)
  refine ⟨seen, ?_, hopens⟩
  unfold after
  rw [run_append]
  exact hseen

theorem bearerSub_bearerText {seen : Str} (hseen : after bearer (before ++ word) = .reading seen)
    (t rest : Str) : bearerSub (bearerText before word t rest) = bearerSub (before ++ word) ++
      output bearer redacted (.reading seen) (shown t rest ++ beyond rest) := by
  rw [bearerText_eq, bearerSub_eq, output_append, ← bearerSub_eq]
  show _ ++ output bearer redacted (after bearer (before ++ word)) _ = _
  rw [hseen]

/-- The condition under which two tokens are hidden: bearer tokens are at rest before the word, and
the tokens, with what belongs to them, begin with a token character and are the same from the first
other one on. The mark itself in the place of the first characters is no difference. -/
def TokensHidden (before rest t t' : Str) : Prop :=
  t = t' ∨ AtRest bearer before ∧ (SameRest isTokenChar (shown t rest) (shown t' rest) ∨
    Marked isTokenChar redacted (shown t rest) (shown t' rest) ∨
    Marked isTokenChar redacted (shown t' rest) (shown t rest))

theorem redacted_cons : redacted = .char '[' :: Str.of "REDACTED]" := by decide +kernel

/-- **Tokens that redaction hides.** -/
theorem redactText_of_tokensHidden (hword : word ∈ bearerLanguage)
    (h : TokensHidden before rest t t') :
    redactText (bearerText before word t rest) = redactText (bearerText before word t' rest) := by
  rcases h with rfl | ⟨hrest, hmask⟩
  · rfl
  · obtain ⟨seen, hseen, hopens⟩ := after_word before hword
    have ho := hopens.mpr hrest
    have hmarked : ∀ {v v' : Str}, Marked isTokenChar redacted v v' →
        maskRun isTokenChar redacted v = maskRun isTokenChar redacted v' := by
      rw [redacted_cons]
      exact fun h => maskRun_of_marked (by decide) h
    have hsame : maskRun isTokenChar redacted (shown t rest) =
        maskRun isTokenChar redacted (shown t' rest) := by
      rcases hmask with hsame | hmark | hmark
      · exact maskRun_of_sameRest hsame redacted
      · exact hmarked hmark
      · exact (hmarked hmark).symm
    have hhead : ∀ c ∈ (beyond rest).head?, bearer.run c = false := fun c hc =>
      isTokenChar_of_not_value (head?_beyond rest c hc)
    have hout : ∀ t, output bearer redacted (.reading seen) (shown t rest ++ beyond rest) =
        output bearer redacted (.reading seen)
          (maskRun isTokenChar redacted (shown t rest) ++ beyond rest) := fun t =>
      (output_maskRun bearer_inert ho (shown t rest) hhead).symm
    rw [redactText_eq, redactText_eq, bearerSub_bearerText hseen, bearerSub_bearerText hseen,
      hout t, hout t', hsame]

theorem isValueChar_of_shown (ht : ∀ c ∈ t, c.isSpace = false) (hq : quote ∉ t) :
    ∀ c ∈ shown t rest, isValueChar c = true := by
  intro c hc
  rcases List.mem_append.mp hc with hc | hc
  · exact isValueChar_iff.mpr ⟨isQuote_of_not_mem hq c hc, ht c hc⟩
  · exact List.mem_takeWhile_imp hc

/-- After the word the second substitution masks nothing before white space or a quote. -/
theorem after_bearerSub_word (before : Str) (hword : word ∈ bearerLanguage) : ∃ seen,
    run (next secretField) (.reading []) (bearerSub (before ++ word)) = .reading seen ∧
      ¬ secretField.Opens seen := by
  obtain ⟨w, c, rfl, hc⟩ := bearer_endsIn word hword
  have hstop := isValueChar_of_isSpace hc
  have hlast : bearerSub (before ++ (w ++ [c])) = bearerSub (before ++ w) ++ [c] := by
    rw [← List.append_assoc, bearerSub_eq, bearerSub_eq, output_append, output_cons,
      write_of_not_run _ (isTokenChar_of_not_value hstop)]
    rfl
  obtain ⟨z, hz⟩ := next_of_not_run (p := secretField)
    (run (next secretField) (.reading []) (bearerSub (before ++ w))) hstop
  refine ⟨z ++ [c], ?_, not_opens_concat field_endsIn (isQuote_of_isSpace hc) z⟩
  rw [hlast, run_append, run_cons, hz]
  rfl

/-- The redacted text: up to the token, what is left of it, and the rest. -/
theorem redactText_bearerText {seen : Str} (hword : word ∈ bearerLanguage)
    (hseen : after bearer (before ++ word) = .reading seen) (rest : Str) :
    ∃ X, ∀ t, (∀ c ∈ t, c.isSpace = false) → quote ∉ t →
      ∃ R, (∀ c ∈ R.head?, isValueChar c = false) ∧
      redactText (bearerText before word t rest) =
        X ++ (output bearer redacted (.reading seen) (shown t rest) ++ R) := by
  obtain ⟨seen', hseen', hnot⟩ := after_bearerSub_word before hword
  refine ⟨output secretField redacted (.reading []) (bearerSub (before ++ word)), fun t ht hq => ?_⟩
  have hleft : ∀ c ∈ output bearer redacted (.reading seen) (shown t rest), isQuote c = false :=
    fun c hc =>
    isQuote_of_isValueChar ((mem_output hc).elim isValueChar_of_mem_redacted
      (isValueChar_of_shown ht hq c))
  have hfirst : bearerSub (bearerText before word t rest) = bearerSub (before ++ word) ++
      (output bearer redacted (.reading seen) (shown t rest) ++
        output bearer redacted (run (next bearer) (.reading seen) (shown t rest))
          (beyond rest)) := by
    rw [bearerSub_bearerText hseen, output_append]
  have hhead : ∀ c ∈ (output bearer redacted (run (next bearer) (.reading seen) (shown t rest))
      (beyond rest)).head?, isValueChar c = false := by
    rw [head?_output _ fun c hc => isTokenChar_of_not_value (head?_beyond rest c hc)]
    exact head?_beyond rest
  refine ⟨output secretField redacted (run (next secretField) (.reading seen')
    (output bearer redacted (.reading seen) (shown t rest)))
    (output bearer redacted (run (next bearer) (.reading seen) (shown t rest)) (beyond rest)), ?_,
      ?_⟩
  · rw [head?_output _ hhead]
    exact hhead
  · rw [redactText_eq, hfirst, output_append, hseen', output_append,
      output_plain (plain_of_ends field_endsIn hnot hleft)]

/-- **Tokens that redaction does not hide**: any others without quotes. -/
theorem tokensHidden_of_redactText (hword : word ∈ bearerLanguage) (ht : ∀ c ∈ t, c.isSpace = false)
    (ht' : ∀ c ∈ t', c.isSpace = false) (hq : quote ∉ t) (hq' : quote ∉ t')
    (h : redactText (bearerText before word t rest) = redactText (bearerText before word t' rest)) :
    TokensHidden before rest t t' := by
  obtain ⟨seen, hseen, hopens⟩ := after_word before hword
  obtain ⟨X, hX⟩ := redactText_bearerText hword hseen rest
  obtain ⟨R, hR, hout⟩ := hX t ht hq
  obtain ⟨R', hR', hout'⟩ := hX t' ht' hq'
  have hvalues : ∀ {t : Str}, (∀ c ∈ t, c.isSpace = false) → quote ∉ t →
      ∀ c ∈ output bearer redacted (.reading seen) (shown t rest), isValueChar c = true :=
        fun ht hq c hc =>
    (mem_output hc).elim isValueChar_of_mem_redacted (isValueChar_of_shown ht hq c)
  have hspaces : ∀ {t : Str}, (∀ c ∈ t, c.isSpace = false) → quote ∉ t →
      ∀ c ∈ shown t rest, c.isSpace = false := fun ht hq c hc =>
    (isValueChar_iff.mp (isValueChar_of_shown ht hq c hc)).2
  rw [hout, hout'] at h
  have hleft := run_inj (hvalues ht hq) (hvalues ht' hq') hR hR' (List.append_cancel_left h)
  by_cases ho : bearer.Opens seen
  · rw [output_opened bearer_endsIn ho (hspaces ht hq),
      output_opened bearer_endsIn ho (hspaces ht' hq')] at hleft
    rcases cases_of_maskRun hleft with heq | hmask
    · exact Or.inl (List.append_cancel_right heq)
    · exact Or.inr ⟨hopens.mp ho, hmask⟩
  · rw [output_plain (plain_of_ends bearer_endsIn ho (hspaces ht hq)),
      output_plain (plain_of_ends bearer_endsIn ho (hspaces ht' hq'))] at hleft
    exact Or.inl (List.append_cancel_right hleft)

end Tokens

/-! ### Both -/

theorem password_name : Str.of "password" ∈ nameLanguage := by
  have hread : letters sameLetter "password".toList (Str.of "password") =
      some (Str.of "password", []) := by
    decide +kernel
  exact ⟨"password".toList, List.mem_cons_self, (letters_sound hread).2⟩

theorem bearer_word : Str.of "Bearer " ∈ bearerLanguage := by
  have hread : letters sameLetter bearerWord (Str.of "Bearer ") = some (Str.of "Bearer",
      [.char ' ']) := by
    decide +kernel
  obtain ⟨hsplit, hletters⟩ := letters_sound hread
  have hblank : [.char ' '] ∈ plusOf CodePoint.isSpace :=
    ⟨List.cons_ne_nil _ _, fun c hc => by rw [List.mem_singleton.mp hc]; rfl⟩
  rw [hsplit]
  exact Language.append_mem_mul hletters hblank

theorem token_of {t : Str} (hlength : 24 ≤ t.length) (hspace : (t.all fun c => !c.isSpace) = true) :
    Token t := by
  refine ⟨if_neg fun h => ?_, fun c hc => ?_⟩
  · omega
  · simpa using List.all_eq_true.mp hspace c hc

/-- **What redaction hides**: values of secret fields exactly under `ValuesHidden`, tokens under
`TokensHidden`, which is exact for tokens without quotes. To redact again changes nothing. -/
theorem redaction (before rest : Str) :
    (∀ field ∈ nameLanguage, ∀ s s' : Str, quote ∉ s → quote ∉ s' →
      (redactText (fieldText before field s rest) = redactText (fieldText before field s' rest) ↔
        ValuesHidden before s s')) ∧
    (∀ word ∈ bearerLanguage, ∀ t t' : Str, Token t → Token t' →
      (TokensHidden before rest t t' →
        redactText (bearerText before word t rest) = redactText (bearerText before word t' rest)) ∧
      (quote ∉ t → quote ∉ t' →
        redactText (bearerText before word t rest) = redactText (bearerText before word t' rest) →
        TokensHidden before rest t t')) ∧
    ∀ text : Str, redactText (redactText text) = redactText text := by
  refine ⟨fun field hfield s s' hs hs' => redactText_field_iff hfield hs hs',
    fun word hword t t' ht ht' => ⟨redactText_of_tokensHidden hword, fun hq hq' => ?_⟩,
    redactText_redactText⟩
  exact tokensHidden_of_redactText hword ht.2 ht'.2 hq hq'

/-- Two passwords, and two tokens, that are hidden. -/
theorem redaction_sample :
    redactText (fieldText [] (Str.of "password") (Str.of "one two") []) =
      redactText (fieldText [] (Str.of "password") (Str.of "another two") []) ∧
    redactText (bearerText [] (Str.of "Bearer ") (Str.of "abcdefghijklmnopqrstuvwx") []) =
      redactText (bearerText [] (Str.of "Bearer ") (Str.of "ABCDEFGHIJKLMNOPQRSTUVWXYZ") []) := by
  obtain ⟨hfields, htokens, -⟩ := redaction [] []
  have hbearer : AtRest bearer [] := not_opens_nil bearer_endsIn
  have hfield : AtRest secretField (bearerSub []) := not_opens_nil field_endsIn
  constructor
  · refine (hfields _ password_name _ _ (by decide +kernel) (by decide +kernel)).mpr
      (Or.inr ⟨hbearer, hfield, ?_, ?_, ?_⟩) <;> decide +kernel
  · have ht : Token (Str.of "abcdefghijklmnopqrstuvwx") :=
      token_of (by decide +kernel) (by decide +kernel)
    have ht' : Token (Str.of "ABCDEFGHIJKLMNOPQRSTUVWXYZ") :=
      token_of (by decide +kernel) (by decide +kernel)
    refine (htokens _ bearer_word _ _ ht ht').1 (Or.inr ⟨hbearer, Or.inl ⟨?_, ?_, ?_⟩⟩) <;>
      decide +kernel

/-- The end of a password after a blank, and of a token after an exclamation mark, stays in the
message. -/
theorem end_of_secret_shown :
    ¬ (∀ before rest field s s' : Str, field ∈ nameLanguage → s ≠ [] → s' ≠ [] →
      quote ∉ s → quote ∉ s' →
      redactText (fieldText before field s rest) = redactText (fieldText before field s' rest)) ∧
    ¬ (∀ before rest t t' : Str, Token t → Token t' →
      redactText (bearerText before (Str.of "Bearer ") t rest) =
        redactText (bearerText before (Str.of "Bearer ") t' rest)) := by
  constructor
  · intro h
    have hsame := h [] [] (Str.of "password") (Str.of "one two") (Str.of "one three") password_name
      (by decide +kernel) (by decide +kernel) (by decide +kernel) (by decide +kernel)
    have hdiffer : redactText (fieldText [] (Str.of "password") (Str.of "one two") []) ≠
        redactText (fieldText [] (Str.of "password") (Str.of "one three") []) := by decide +kernel
    exact hdiffer hsame
  · intro h
    have ht : Token (Str.of "abcdefghijklmnopqrstuv!one") :=
      token_of (by decide +kernel) (by decide +kernel)
    have ht' : Token (Str.of "abcdefghijklmnopqrstuv!two") :=
      token_of (by decide +kernel) (by decide +kernel)
    have hsame := h [] [] _ _ ht ht'
    have hdiffer :
        redactText (bearerText [] (Str.of "Bearer ") (Str.of "abcdefghijklmnopqrstuv!one") []) ≠
        redactText (bearerText [] (Str.of "Bearer ") (Str.of "abcdefghijklmnopqrstuv!two") []) := by
      decide +kernel
    exact hdiffer hsame

end EventServer.Observability
