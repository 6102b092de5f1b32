import EventServer.Lib.Substitution
import EventServer.Python.Str

/-! # Redaction of log messages

`redact_text` replaces the tokens after the word Bearer, and then the values of the fields that are
secret. Both expressions ignore the case of letters. They are masks for the patterns `bearer` and
`secretField` (`bearerSub_eq`, `redactText_eq`): a token goes up to the first character that is not
of its class, and a value up to the first white space or quote. -/

namespace EventServer.Observability

open EventServer.Lib EventServer.Lib.Masking EventServer.Python

/-! ### Characters -/

/-- The characters that a letter of an expression stands for when case is ignored. -/
def letterCases (p : Char) : List Char :=
  [p, p.toUpper] ++
    if p = 's' then [Char.ofNat 0x17F]
    else if p = 'k' then [Char.ofNat 0x212A]
    else if p = 'i' then [Char.ofNat 0x130, Char.ofNat 0x131]
    else []

def sameLetter (p : Char) : CodePoint → Bool
  | .char c => (letterCases p).contains c
  | .surrogate _ => false

/-- `[A-Za-z0-9._~+/=-]`, where case is ignored. -/
def isTokenChar : CodePoint → Bool
  | .char c =>
    c.isAlpha || c.isDigit || ['.', '_', '~', '+', '/', '=', '-'].contains c ||
      [0x17F, 0x212A, 0x130, 0x131].contains c.toNat
  | .surrogate _ => false

def quote : CodePoint := .char '"'

def isQuote (c : CodePoint) : Bool := c = quote

/-- `[:=]` -/
def isSeparator (c : CodePoint) : Bool := c = .char ':' || c = .char '='

/-- `[^"\s]` -/
def isValueChar (c : CodePoint) : Bool := !isQuote c && !c.isSpace

/-! ### Expressions -/

def bearerWord : List Char := "bearer".toList

def fieldNames : List (List Char) :=
  ["password".toList, "token".toList, "secret".toList, "lease_token".toList, "pairing_code".toList]

/-- `_BEARER` -/
def findBearer : Str → Option (Str × Str) :=
  findRun ((letters sameLetter bearerWord).seq (plus CodePoint.isSpace)) isTokenChar

/-- `_SECRET_FIELD` -/
def findSecretField : Str → Option (Str × Str) :=
  findRun ((optional isQuote).seq ((anyOf sameLetter fieldNames).seq ((optional isQuote).seq
    ((star CodePoint.isSpace).seq ((one isSeparator).seq
      ((star CodePoint.isSpace).seq (one isQuote)))))))
    isValueChar

def redacted : Str := Str.of "[REDACTED]"

/-- `_BEARER.sub(r"\1[REDACTED]", value)` -/
def bearerSub (value : Str) : Str := sub findBearer redacted value

def redactText (value : Str) : Str := sub findSecretField redacted (bearerSub value)

/-- What is read of a log record: the message that `getMessage` returns, and the attributes that are
set. -/
structure LogRecord where
  levelname : Str
  name : Str
  message : Str
  attributes : Fields

def requestKeys : List String := ["request_id", "method", "route", "status", "duration_ms"]

/-- `JsonFormatter.format`, as the value that is written; `timestamp` is the reading of the
clock. -/
def JsonFormatter.format (timestamp : Str) (record : LogRecord) : Fields :=
  [(.of "timestamp", .str timestamp), (.of "level", .str record.levelname),
    (.of "logger", .str record.name), (.of "message", .str (redactText record.message))] ++
    requestKeys.filterMap fun key =>
      (record.attributes.lookup (.of key)).map fun value => (.of key, value)

/-- `Settings.reject_short_production_token` -/
def rejectShortProductionToken (value : Str) : Except String Str :=
  if value ≠ [] ∧ value.length < 24 then
    .error "INTERNAL_API_TOKEN must contain at least 24 characters"
  else .ok value

/-! ### Patterns -/

def bearerLanguage : Language CodePoint :=
  spellings sameLetter bearerWord * plusOf CodePoint.isSpace

def nameLanguage : Language CodePoint := {w | ∃ ps ∈ fieldNames, w ∈ spellings sameLetter ps}

/-- What comes after the name of a field, up to its value. -/
def openingLanguage : Language CodePoint :=
  (1 + oneOf isQuote) *
    (starOf CodePoint.isSpace * (oneOf isSeparator * (starOf CodePoint.isSpace * oneOf isQuote)))

def fieldLanguage : Language CodePoint := (1 + oneOf isQuote) * (nameLanguage * openingLanguage)

def bearer : Pattern CodePoint := ⟨(· ∈ bearerLanguage), isTokenChar⟩

def secretField : Pattern CodePoint := ⟨(· ∈ fieldLanguage), isValueChar⟩

/-! ### Kinds of characters -/

/-- A letter of one of the words, in any case. -/
def isLetter (c : CodePoint) : Bool :=
  (bearerWord ++ fieldNames.flatten).any fun p => sameLetter p c

theorem letter_kinds {c : CodePoint} (h : isLetter c = true) :
    isTokenChar c = true ∧ c.isSpace = false ∧ isSeparator c = false ∧ isQuote c = false := by
  obtain ⟨p, hp, hc⟩ := List.any_eq_true.mp h
  have hall : (bearerWord ++ fieldNames.flatten).all (fun p => (letterCases p).all fun c =>
      isTokenChar (.char c) && !(CodePoint.isSpace (.char c) || isSeparator (.char c) ||
        isQuote (.char c)))
      = true := by decide +kernel
  cases c with
  | surrogate n => cases hc
  | char c =>
    have hkinds := List.all_eq_true.mp (List.all_eq_true.mp hall p hp) c
      (List.contains_iff_mem.mp hc)
    simpa [and_assoc] using hkinds

theorem isLetter_of_bearer {w : Str} (hw : w ∈ spellings sameLetter bearerWord) :
    ∀ c ∈ w, isLetter c = true := by
  intro c hc
  obtain ⟨p, hp, hsame⟩ := mem_spelling hw hc
  exact List.any_eq_true.mpr ⟨p, List.mem_append_left _ hp, hsame⟩

theorem isLetter_of_name {w : Str} (hw : w ∈ nameLanguage) : ∀ c ∈ w, isLetter c = true := by
  intro c hc
  obtain ⟨ps, hps, hw⟩ := hw
  obtain ⟨p, hp, hsame⟩ := mem_spelling hw hc
  exact List.any_eq_true.mpr
    ⟨p, List.mem_append_right _ (List.mem_flatten.mpr ⟨ps, hps, hp⟩), hsame⟩

theorem isQuote_iff {c : CodePoint} : isQuote c = true ↔ c = quote := decide_eq_true_iff

theorem isQuote_of_not_mem {s : Str} (h : quote ∉ s) : ∀ c ∈ s, isQuote c = false := by
  intro c hc
  by_contra hquote
  rw [isQuote_iff.mp (eq_true_of_ne_false hquote)] at hc
  exact h hc

theorem isSpace_of_isTokenChar {c : CodePoint} (h : isTokenChar c = true) : c.isSpace = false := by
  cases c with
  | surrogate n => rfl
  | char c =>
    simp only [isTokenChar, Bool.or_eq_true, List.contains_iff_mem] at h
    rcases h with ((halpha | hdigit) | hsign) | hother
    · exact isSpace_of_isAlpha halpha
    · have hrange := toNat_of_isDigit hdigit
      exact isSpace_eq_false (by omega) (by omega)
    · have hall : (['.', '_', '~', '+', '/', '=', '-'].all fun c =>
          !CodePoint.isSpace (.char c)) = true := by decide
      simpa using List.all_eq_true.mp hall c hsign
    · simp only [List.mem_cons, List.not_mem_nil, or_false] at hother
      simp only [CodePoint.isSpace, Bool.or_eq_false_iff, Bool.and_eq_false_iff,
        decide_eq_false_iff_not]
      omega

theorem isQuote_of_isTokenChar {c : CodePoint} (h : isTokenChar c = true) : isQuote c = false := by
  by_contra hquote
  rw [isQuote_iff.mp (eq_true_of_ne_false hquote)] at h
  cases h

theorem isValueChar_iff {c : CodePoint} : isValueChar c = true ↔ isQuote c = false ∧
    c.isSpace = false := by
  simp [isValueChar]

theorem isValueChar_of_isTokenChar {c : CodePoint}
    (h : isTokenChar c = true) : isValueChar c = true :=
  isValueChar_iff.mpr ⟨isQuote_of_isTokenChar h, isSpace_of_isTokenChar h⟩

theorem isQuote_of_isValueChar {c : CodePoint} (h : isValueChar c = true) : isQuote c = false :=
  (isValueChar_iff.mp h).1

theorem isTokenChar_of_not_value {c : CodePoint}
    (h : isValueChar c = false) : isTokenChar c = false := by
  by_contra htoken
  rw [isValueChar_of_isTokenChar (eq_true_of_ne_false htoken)] at h
  cases h

theorem isValueChar_of_isSpace {c : CodePoint} (h : c.isSpace = true) : isValueChar c = false := by
  simp [isValueChar, h]

theorem isTokenChar_of_isSpace {c : CodePoint} (h : c.isSpace = true) : isTokenChar c = false :=
  isTokenChar_of_not_value (isValueChar_of_isSpace h)

/-! ### The pattern of bearer tokens -/

theorem finds_bearer : Finds findBearer bearer := by
  have hgroup := (reads_letters sameLetter bearerWord).seq (reads_plus CodePoint.isSpace)
    (begins_plusOf CodePoint.isSpace) fun _ _ => rfl
  exact finds_findRun hgroup fun c hc => isSpace_of_isTokenChar hc

theorem bearer_split {w : Str} (h : bearer.Word w) : ∃ a s, w = a ++ s ∧
    a ∈ spellings sameLetter bearerWord ∧ s ≠ [] ∧ (∀ c ∈ s, c.isSpace = true) := by
  obtain ⟨a, ha, s, ⟨hne, hs⟩, rfl⟩ := Language.mem_mul.mp h
  exact ⟨a, s, rfl, ha, hne, hs⟩

theorem bearer_endsIn : EndsIn bearer CodePoint.isSpace := by
  intro w hw
  obtain ⟨a, s, rfl, -, hne, hs⟩ := bearer_split hw
  rcases List.eq_nil_or_concat s with rfl | ⟨s', c, rfl⟩
  · exact absurd rfl hne
  · rw [List.concat_eq_append] at hs ⊢
    exact ⟨a ++ s', c, (List.append_assoc _ _ _).symm,
      hs c (List.mem_append_right s' List.mem_cons_self)⟩

/-- A character that is neither a letter nor white space occurs in no word. -/
theorem bearer_separates {q : CodePoint} (hletter : isLetter q = false)
    (hspace : q.isSpace = false) :
    Separates bearer q := by
  intro w hw hq
  obtain ⟨a, s, rfl, ha, -, hs⟩ := bearer_split hw
  rcases List.mem_append.mp hq with hq | hq
  · rw [isLetter_of_bearer ha q hq] at hletter
    cases hletter
  · rw [hs q hq] at hspace
    cases hspace

theorem bearer_flat : Flat bearer := by
  intro x w c y hword hw
  obtain ⟨a, s, hsplit, ha, -, hs⟩ := bearer_split hword
  obtain ⟨a', s', rfl, ha', hne, hs'⟩ := bearer_split hw
  obtain ⟨d, s', rfl⟩ := List.exists_cons_of_ne_nil hne
  have hd := hs' d List.mem_cons_self
  -- whatever comes after the first white space of a word is white space
  have hsame : x ++ a' ++ d :: (s' ++ c :: y) = a ++ s := by
    rw [← hsplit]
    simp
  have hafter : c ∈ s := by
    rcases List.append_eq_append_iff.mp hsame with ⟨b, hb, htail⟩ | ⟨b, -, hb⟩
    · cases b with
      | nil =>
        rw [List.nil_append] at htail
        rw [← htail]
        simp
      | cons e b =>
        obtain ⟨rfl, -⟩ := List.cons.inj htail
        have hmem : d ∈ a := by
          rw [hb]
          exact List.mem_append_right _ List.mem_cons_self
        have hletter := letter_kinds (isLetter_of_bearer ha d hmem)
        rw [hletter.2.1] at hd
        cases hd
    · rw [hb]
      simp
  exact isTokenChar_of_isSpace (hs c hafter)

theorem redacted_split : redacted = Str.of "[REDACTED" ++ [.char ']'] := by decide +kernel

theorem quote_not_mem_redacted : quote ∉ redacted := by decide +kernel

theorem isValueChar_of_mem_redacted {c : CodePoint} (hc : c ∈ redacted) : isValueChar c = true := by
  have hall : redacted.all isValueChar = true := by decide +kernel
  exact List.all_eq_true.mp hall c hc

theorem redacted_ne_nil : redacted ≠ [] := by decide +kernel

theorem forgets_redacted {p : Pattern CodePoint} (h : Separates p (.char ']')) (seen z : Str)
    (ho : p.Opens (seen ++ redacted ++ z)) : p.Opens z := by
  have hsplit : seen ++ redacted ++ z = seen ++ Str.of "[REDACTED" ++ .char ']' :: z := by
    rw [redacted_split]
    simp
  rw [hsplit] at ho
  exact (opens_of_separates h (seen ++ Str.of "[REDACTED") z).mp ho

theorem bearer_inert : Inert bearer redacted := by
  refine ⟨fun seen => ?_, forgets_redacted (bearer_separates (by decide +kernel) (by decide))⟩
  have hopen : isTokenChar (.char '[') = false := by decide
  have hrest : ∀ c ∈ Str.of "REDACTED]", c.isSpace = false := by
    intro c hc
    have hall : ((Str.of "REDACTED]").all fun c => !c.isSpace) = true := by decide
    simpa using List.all_eq_true.mp hall c hc
  have hcons : redacted = .char '[' :: Str.of "REDACTED]" := by decide +kernel
  rw [hcons, plain_cons]
  refine ⟨fun hrun => ?_,
    plain_of_ends bearer_endsIn (not_opens_concat bearer_endsIn (by decide) seen) hrest⟩
  rw [show isTokenChar (.char '[') = true from hrun] at hopen
  cases hopen

/-- **The first substitution** is the mask for bearer tokens. -/
theorem bearerSub_eq (text : Str) : bearerSub text = output bearer redacted (.reading []) text :=
  sub_eq_output finds_bearer bearer_flat text

/-! ### The pattern of secret fields -/

theorem apart_names : fieldNames.Pairwise (Apart sameLetter) := by
  have hall : (fieldNames.Pairwise fun ps ps' => ((ps.zip ps').any fun a =>
      (letterCases a.1).all fun c => !(letterCases a.2).contains c) = true) := by decide +kernel
  refine hall.imp fun {ps ps'} h => ?_
  obtain ⟨a, ha, hcases⟩ := List.any_eq_true.mp h
  refine ⟨a, ha, fun c hc => ?_⟩
  cases c with
  | surrogate n => cases hc
  | char c => simpa [sameLetter] using List.all_eq_true.mp hcases c (List.contains_iff_mem.mp hc)

theorem begins_name : Begins nameLanguage isLetter := by
  rintro w hw
  obtain ⟨ps, hps, hspell⟩ := id hw
  cases w with
  | nil =>
    have hnone : ([] : List Char) ∉ fieldNames := by decide +kernel
    cases hspell
    exact absurd hps hnone
  | cons c w => exact ⟨c, w, rfl, isLetter_of_name hw c List.mem_cons_self⟩

theorem isSeparator_iff {c : CodePoint} : isSeparator c = true ↔ c = .char ':' ∨ c = .char '=' := by
  simp [isSeparator]

theorem separator_kinds {c : CodePoint} (h : isSeparator c = true) :
    c.isSpace = false ∧ isQuote c = false ∧ isLetter c = false := by
  rcases isSeparator_iff.mp h with rfl | rfl <;> decide +kernel

theorem isQuote_of_isSpace {c : CodePoint} (h : c.isSpace = true) : isQuote c = false := by
  by_contra hquote
  rw [isQuote_iff.mp (eq_true_of_ne_false hquote)] at h
  cases h

theorem finds_secretField : Finds findSecretField secretField := by
  have hclose := (reads_star CodePoint.isSpace).seq (reads_one isQuote) (begins_oneOf isQuote)
    fun c hc => by rw [isQuote_iff.mp hc]; rfl
  have hsep := (reads_one isSeparator).seq hclose (begins_oneOf isQuote).star_mul fun _ _ => rfl
  have hspace := (reads_star CodePoint.isSpace).seq hsep (begins_oneOf isSeparator).mul
    fun c hc => (separator_kinds hc).1
  have hopening := (reads_optional isQuote).seq hspace
    (begins_oneOf isSeparator).mul.star_mul fun c hc => by
    rcases (Bool.or_eq_true _ _).mp hc with hc | hc
    · exact isQuote_of_isSpace hc
    · exact (separator_kinds hc).2.1
  have hname := (reads_anyOf apart_names).seq hopening
    (begins_oneOf isSeparator).mul.star_mul.optional_mul fun _ _ => rfl
  have hfield := (reads_optional isQuote).seq hname begins_name.mul
    fun c hc => (letter_kinds hc).2.2.2
  exact finds_findRun hfield fun _ _ => rfl

/-- A word: a part with a name and no separator, a separator, and then white space up to the
quote. -/
theorem field_split {w : Str} (h : secretField.Word w) : ∃ g d s, w = g ++ d :: (s ++ [quote]) ∧
    (∀ c ∈ g, isQuote c = true ∨ isLetter c = true ∨ c.isSpace = true) ∧
      (∃ c ∈ g, isLetter c = true) ∧
    isSeparator d = true ∧ ∀ c ∈ s, c.isSpace = true := by
  obtain ⟨q, hq, w₁, h₁, rfl⟩ := Language.mem_mul.mp h
  obtain ⟨n, hn, w₂, h₂, rfl⟩ := Language.mem_mul.mp h₁
  obtain ⟨q', hq', w₃, h₃, rfl⟩ := Language.mem_mul.mp h₂
  obtain ⟨s, hs, w₄, h₄, rfl⟩ := Language.mem_mul.mp h₃
  obtain ⟨_, ⟨d, hd, rfl⟩, w₅, h₅, rfl⟩ := Language.mem_mul.mp h₄
  obtain ⟨s', hs', _, ⟨e, he, rfl⟩, rfl⟩ := Language.mem_mul.mp h₅
  obtain rfl := isQuote_iff.mp he
  have hquotes : ∀ {q : Str}, q ∈ (1 + oneOf isQuote : Language CodePoint) →
      ∀ c ∈ q, isQuote c = true := by
    rintro q (hq | ⟨c, hc, rfl⟩) e he
    · obtain rfl : q = [] := hq
      cases he
    · rwa [List.mem_singleton.mp he]
  refine ⟨q ++ (n ++ (q' ++ s)), d, s', by simp, fun c hc => ?_, ?_, hd, hs'⟩
  · simp only [List.mem_append] at hc
    rcases hc with hc | hc | hc | hc
    · exact Or.inl (hquotes hq c hc)
    · exact Or.inr (Or.inl (isLetter_of_name hn c hc))
    · exact Or.inl (hquotes hq' c hc)
    · exact Or.inr (Or.inr (hs c hc))
  · obtain ⟨c, v, rfl, hc⟩ := begins_name n hn
    exact ⟨c, by simp, hc⟩

theorem field_word {field : Str} (hfield : field ∈ nameLanguage) :
    secretField.Word (field ++ [.char ':'] ++ [.char ' ', quote]) := by
  have hnone : ([] : Str) ∈ (1 + oneOf isQuote : Language CodePoint) := Or.inl rfl
  have hspaces : ([] : Str) ∈ starOf CodePoint.isSpace := fun c hc => by cases hc
  have hblank : [.char ' '] ∈ starOf CodePoint.isSpace := fun c hc => by
    rw [List.mem_singleton.mp hc]
    rfl
  have hcolon : [.char ':'] ∈ oneOf isSeparator := ⟨_, rfl, rfl⟩
  have hquote : [quote] ∈ oneOf isQuote := ⟨_, rfl, rfl⟩
  have hopening : [] ++ ([] ++ ([.char ':'] ++ ([.char ' '] ++ [quote]))) ∈ openingLanguage :=
    Language.append_mem_mul hnone (Language.append_mem_mul hspaces
      (Language.append_mem_mul hcolon (Language.append_mem_mul hblank hquote)))
  have hword := Language.append_mem_mul hnone (Language.append_mem_mul hfield hopening)
  rw [List.append_assoc]
  exact hword

theorem field_endsIn : EndsIn secretField isQuote := by
  intro w hw
  obtain ⟨g, d, s, rfl, -⟩ := field_split hw
  exact ⟨g ++ d :: s, quote, by simp, rfl⟩

/-- A character that is neither a letter, nor a quote, a separator or white space occurs in no
word. -/
theorem field_separates {q : CodePoint} (hletter : isLetter q = false) (hspace : q.isSpace = false)
    (hquote : isQuote q = false) (hsep : isSeparator q = false) : Separates secretField q := by
  intro w hw hq
  obtain ⟨g, d, s, rfl, hg, -, hd, hs⟩ := field_split hw
  have hkinds : isQuote q = true ∨ isLetter q = true ∨ q.isSpace = true ∨ isSeparator q = true := by
    simp only [List.mem_append, List.mem_cons, List.not_mem_nil, or_false] at hq
    rcases hq with hq | rfl | hq | rfl
    · exact (hg q hq).imp_right fun h => h.imp_right Or.inl
    · exact Or.inr (Or.inr (Or.inr hd))
    · exact Or.inr (Or.inr (Or.inl (hs q hq)))
    · exact Or.inl rfl
  simp [hletter, hspace, hquote, hsep] at hkinds

theorem field_flat : Flat secretField := by
  intro x w c y hword hw
  obtain ⟨g, d, s, hsplit, hg, -, -, hs⟩ := field_split hword
  obtain ⟨g', d', s', rfl, -, -, hd', -⟩ := field_split hw
  have hkinds := separator_kinds hd'
  -- the separator is the only one of the word
  have hbefore : d' ∉ g := by
    intro hmem
    have hcases := hg d' hmem
    simp [hkinds] at hcases
  have hafter : d' ∉ s ++ [quote] := by
    intro hmem
    rcases List.mem_append.mp hmem with hmem | hmem
    · rw [hs d' hmem] at hkinds
      cases hkinds.1
    · rw [List.mem_singleton.mp hmem] at hd'
      cases hd'
  have hsame : g ++ d :: (s ++ [quote]) = x ++ g' ++ d' :: (s' ++ quote :: c :: y) := by
    rw [← hsplit]
    simp
  obtain ⟨-, -, htail⟩ := (List.append_cons_inj_of_notMem hbefore hafter).mp hsame
  have hquote : quote ∉ s := fun hmem => by
    have hspace := isQuote_of_isSpace (hs quote hmem)
    cases hspace
  obtain ⟨-, -, hend⟩ := (List.append_cons_inj_of_notMem hquote (List.not_mem_nil)).mp htail
  cases hend

/-- **Both substitutions** are masks. -/
theorem redactText_eq (text : Str) :
    redactText text = output secretField redacted (.reading []) (bearerSub text) :=
  sub_eq_output finds_secretField field_flat (bearerSub text)

/-- **Redacting again** changes nothing: the mark is a value, and no token comes up. -/
theorem redactText_redactText (text : Str) : redactText (redactText text) = redactText text := by
  have hopened : ∀ p : Pattern CodePoint, Follows p [] (.reading []) := fun p z hz => hz
  have hplain : Plain bearer [] (redactText text) := by
    rw [redactText_eq, bearerSub_eq]
    have hbearer := plain_output bearer_inert (hopened bearer) text
    exact plain_output_other secretField bearer_inert (fun z hz => hz) hbearer
  have hsecond : bearerSub (redactText text) = redactText text := by
    rw [bearerSub_eq]
    exact output_plain hplain
  rw [redactText_eq (redactText text), hsecond, redactText_eq text]
  exact output_output (fun c hc => isValueChar_of_mem_redacted hc) redacted_ne_nil (.reading [])
    (bearerSub text)

end EventServer.Observability
