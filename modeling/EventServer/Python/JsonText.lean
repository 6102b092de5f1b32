import EventServer.Python.Json

/-! # The canonical JSON text

`json.dumps(value, sort_keys=True, separators=(",", ":"), ensure_ascii=False)`. The items of a
dictionary are sorted by their keys first, so values that differ in the order of items only have one
text; `canon` is the value with its items sorted.

Apart from that the text determines the value (`dumps_inj`). A string ends at its first quote that
is not escaped, a list or a dictionary at its bracket, and the words in between (numbers and the
three constants) at the first character that cannot be part of one; numbers are told apart by their
texts because those of floats have a point or an exponent (`FloatTexts`). -/

namespace EventServer.Python

variable [Runtime]

/-! ### The text -/

/-- `ESCAPE_DCT`. -/
def escChar (c : Char) : List Char :=
  if c = '"' ∨ c = '\\' then ['\\', c]
  else if c = '\n' then ['\\', 'n']
  else if c = '\r' then ['\\', 'r']
  else if c = '\t' then ['\\', 't']
  else if c.toNat = 12 then ['\\', 'f']
  else if c.toNat = 8 then ['\\', 'b']
  else if c.toNat < 32 then '\\' :: 'u' :: (hexPad 4 c.toNat).toList
  else [c]

/-- A string between quotes. -/
def quote (s : String) : List Char := '"' :: s.toList.flatMap escChar ++ ['"']

/-- The text of a float. -/
def floatText : Number → String
  | .inf => "Infinity"
  | .negInf => "-Infinity"
  | .nan => "NaN"
  | x => Runtime.floatRepr x

namespace Json

mutual

def text : Json → List Char
  | .null => "null".toList
  | .bool b => if b then "true".toList else "false".toList
  | .int n => (toString n).toList
  | .float x => (floatText x).toList
  | .str s => quote s
  | .arr items => '[' :: textItems [] items
  | .obj fields => '\x7b' :: textFields [] fields

/-- The rest of a list, where `sep` stands before the next item. -/
def textItems (sep : List Char) : List Json → List Char
  | [] => [']']
  | a :: as => sep ++ text a ++ textItems [','] as

def textFields (sep : List Char) : List (String × Json) → List Char
  | [] => ['\x7d']
  | (k, a) :: as => sep ++ quote k ++ ':' :: text a ++ textFields [','] as

end

/-- The dictionary with its items sorted by their keys. -/
def sortFields (fields : List (String × Json)) : List (String × Json) :=
  fields.insertionSort fun a b => a.1 ≤ b.1

mutual

/-- The value with the items of its dictionaries sorted. -/
def canon : Json → Json
  | .arr items => .arr (canonItems items)
  | .obj fields => .obj (sortFields (canonFields fields))
  | a => a

def canonItems : List Json → List Json
  | [] => []
  | a :: as => canon a :: canonItems as

def canonFields : List (String × Json) → List (String × Json)
  | [] => []
  | (k, a) :: as => (k, canon a) :: canonFields as

end

/-- `json.dumps(value, sort_keys=True, separators=(",", ":"), ensure_ascii=False)`. -/
def dumps (value : Json) : String := String.ofList value.canon.text

end Json

/-! ### Strings -/

/-- The characters that are escaped. -/
def escaped : List Char := '"' :: '\\' :: (List.range 32).map Char.ofNat

omit [Runtime] in
theorem escChar_of_not_mem {c : Char} (h : c ∉ escaped) : escChar c = [c] ∧ c ≠ '\\' ∧ c ≠ '"' := by
  have hlarge : ¬ c.toNat < 32 := by
    intro hlt
    refine h (List.mem_cons_of_mem _ (List.mem_cons_of_mem _ (List.mem_map.mpr ⟨c.toNat, ?_, ?_⟩)))
    · exact List.mem_range.mpr hlt
    · exact Char.ofNat_toNat c
  have hcontrol : c ≠ '\n' ∧ c ≠ '\r' ∧ c ≠ '\t' := by
    refine ⟨?_, ?_, ?_⟩ <;> (rintro rfl; exact hlarge (by decide))
  have hquote : c ≠ '"' := fun hc => h (by rw [hc]; exact List.mem_cons_self)
  have hslash : c ≠ '\\' := fun hc =>
    h (by rw [hc]; exact List.mem_cons_of_mem _ List.mem_cons_self)
  refine ⟨?_, hslash, hquote⟩
  unfold escChar
  rw [if_neg (by simp [hquote, hslash]), if_neg hcontrol.1, if_neg hcontrol.2.1,
    if_neg hcontrol.2.2, if_neg (by omega), if_neg (by omega), if_neg hlarge]

omit [Runtime] in
theorem escChar_of_mem {c : Char} (h : c ∈ escaped) : ∃ cs, escChar c = '\\' :: cs := by
  have hall : (escaped.all fun c => (escChar c).head? = some '\\') = true := by decide +kernel
  have hhead := of_decide_eq_true (List.all_eq_true.mp hall c h)
  cases he : escChar c with
  | nil => simp [he] at hhead
  | cons x cs =>
    simp only [he, List.head?_cons, Option.some.injEq] at hhead
    exact ⟨cs, by rw [hhead]⟩

omit [Runtime] in
theorem escChar_append_inj {c c' : Char} {r r' : List Char}
    (h : escChar c ++ r = escChar c' ++ r') :
    c = c' ∧ r = r' := by
  by_cases hc : c ∈ escaped
  · by_cases hc' : c' ∈ escaped
    · have hpairs : (escaped.all fun a => escaped.all fun b =>
          !(escChar a).isPrefixOf (escChar b) || a = b) = true := by decide +kernel
      have hall : ∀ a ∈ escaped, ∀ b ∈ escaped, escChar a <+: escChar b → a = b := by
        intro a ha b hb hp
        have hab := List.all_eq_true.mp (List.all_eq_true.mp hpairs a ha) b hb
        rw [List.isPrefixOf_iff_prefix.mpr hp] at hab
        simpa using hab
      have hcc : c = c' := by
        rcases List.prefix_or_prefix_of_prefix (List.prefix_append (escChar c) r)
            (h ▸ List.prefix_append (escChar c') r') with hp | hp
        · exact hall c hc c' hc' hp
        · exact (hall c' hc' c hc hp).symm
      subst hcc
      exact ⟨rfl, List.append_cancel_left h⟩
    · obtain ⟨cs, hcs⟩ := escChar_of_mem hc
      obtain ⟨hlit, hne, -⟩ := escChar_of_not_mem hc'
      rw [hcs, hlit] at h
      exact absurd (List.cons.inj h).1.symm hne
  · obtain ⟨hlit, hne, -⟩ := escChar_of_not_mem hc
    by_cases hc' : c' ∈ escaped
    · obtain ⟨cs, hcs⟩ := escChar_of_mem hc'
      rw [hcs, hlit] at h
      exact absurd (List.cons.inj h).1 hne
    · rw [hlit, (escChar_of_not_mem hc').1] at h
      exact List.cons.inj h

omit [Runtime] in
theorem escChar_head_ne (c : Char) {r r' : List Char} : escChar c ++ r ≠ '"' :: r' := by
  intro h
  by_cases hc : c ∈ escaped
  · obtain ⟨cs, hcs⟩ := escChar_of_mem hc
    rw [hcs] at h
    exact absurd (List.cons.inj h).1 (by decide)
  · obtain ⟨hlit, -, hne⟩ := escChar_of_not_mem hc
    rw [hlit] at h
    exact hne (List.cons.inj h).1

omit [Runtime] in
theorem escape_append_inj {cs cs' r r' : List Char}
    (h : cs.flatMap escChar ++ '"' :: r = cs'.flatMap escChar ++ '"' :: r') :
    cs = cs' ∧ r = r' := by
  induction cs generalizing cs' with
  | nil =>
    cases cs' with
    | nil => exact ⟨rfl, (List.cons.inj h).2⟩
    | cons c' cs' =>
      rw [List.flatMap_cons, List.append_assoc] at h
      exact absurd h.symm (escChar_head_ne c')
  | cons c cs ih =>
    rw [List.flatMap_cons, List.append_assoc] at h
    cases cs' with
    | nil => exact absurd h (escChar_head_ne c)
    | cons c' cs' =>
      rw [List.flatMap_cons, List.append_assoc] at h
      obtain ⟨rfl, hrest⟩ := escChar_append_inj h
      obtain ⟨rfl, rfl⟩ := ih hrest
      exact ⟨rfl, rfl⟩

omit [Runtime] in
theorem quote_append_inj {s s' : String} {r r' : List Char} (h : quote s ++ r = quote s' ++ r') :
    s = s' ∧ r = r' := by
  unfold quote at h
  simp only [List.cons_append, List.append_assoc, List.nil_append, List.cons.injEq, true_and] at h
  obtain ⟨hs, hr⟩ := escape_append_inj h
  exact ⟨String.toList_inj.mp hs, hr⟩

/-! ### Numbers and constants -/

/-- The characters of numbers and constants. -/
def isWordChar (c : Char) : Bool := c.isAlphanum || c = '.' || c = '+' || c = '-'

/-- The characters of `repr(x)` of a float that is a number. -/
def isFloatChar (c : Char) : Bool := c.isDigit || c = '.' || c = 'e' || c = '+' || c = '-'

/-- What the texts of floats are relied on for: they differ, and have a point or an exponent. -/
structure FloatTexts : Prop where
  injective : Function.Injective Runtime.floatRepr
  chars : ∀ x, x ≠ .inf → x ≠ .negInf → x ≠ .nan → ∀ c ∈ (Runtime.floatRepr x).toList,
    isFloatChar c = true
  fraction : ∀ x, x ≠ .inf → x ≠ .negInf → x ≠ .nan →
    '.' ∈ (Runtime.floatRepr x).toList ∨ 'e' ∈ (Runtime.floatRepr x).toList

omit [Runtime] in
/-- Words of the characters `p` end at the first other one. -/
theorem word_append_inj {p : Char → Bool} {w w' r r' : List Char} (hw : ∀ c ∈ w, p c = true)
    (hw' : ∀ c ∈ w', p c = true) (hr : ∀ c ∈ r.head?, p c = false)
    (hr' : ∀ c ∈ r'.head?, p c = false) (h : w ++ r = w' ++ r') : w = w' ∧ r = r' := by
  induction w generalizing w' with
  | nil =>
    cases w' with
    | nil => exact ⟨rfl, h⟩
    | cons c' w' =>
      have hc := hr c' (by rw [List.nil_append] at h; simp [h])
      rw [hw' c' List.mem_cons_self] at hc
      cases hc
  | cons c w ih =>
    cases w' with
    | nil =>
      have hc := hr' c (by rw [List.nil_append] at h; simp [← h])
      rw [hw c List.mem_cons_self] at hc
      cases hc
    | cons c' w' =>
      obtain ⟨rfl, hrest⟩ := List.cons.inj h
      obtain ⟨rfl, rfl⟩ := ih (fun x hx => hw x (List.mem_cons_of_mem _ hx))
        (fun x hx => hw' x (List.mem_cons_of_mem _ hx)) hrest
      exact ⟨rfl, rfl⟩

omit [Runtime] in
theorem mem_toString {n : ℤ} {c : Char}
    (h : c ∈ (toString n).toList) : c.isDigit = true ∨ c = '-' := by
  have hdigit : ∀ m : ℕ, ∀ c ∈ m.repr.toList, c.isDigit = true := by
    intro m c hc
    rw [Nat.toList_repr] at hc
    exact Nat.isDigit_of_mem_toDigits (by omega) (by omega) hc
  rw [Int.toString_eq_repr, Int.repr_eq_if] at h
  split_ifs at h
  · exact Or.inl (hdigit _ c h)
  · rw [String.toList_append, List.mem_append] at h
    rcases h with h | h
    · exact Or.inr (by simpa using h)
    · exact Or.inl (hdigit _ c h)

omit [Runtime] in
theorem nat_repr_inj {a b : ℕ} (h : a.repr.toList = b.repr.toList) : a = b := by
  rw [Nat.toList_repr, Nat.toList_repr] at h
  have hval := congrArg (fun ds => Nat.ofDigitChars 10 ds 0) h
  simpa only [Nat.ofDigitChars_ten_toDigits] using hval

omit [Runtime] in
theorem toString_int_inj {n m : ℤ} (h : (toString n).toList = (toString m).toList) : n = m := by
  have hsign : ∀ a : ℕ, '-' ∉ a.repr.toList := by
    intro a ha
    rw [Nat.toList_repr] at ha
    have := Nat.isDigit_of_mem_toDigits (by omega) (by omega) ha
    revert this
    decide
  have hneg : ∀ a : ℕ, ("-" ++ a.repr).toList = '-' :: a.repr.toList := fun a => by
    rw [String.toList_append]
    rfl
  rw [Int.toString_eq_repr, Int.toString_eq_repr, Int.repr_eq_if, Int.repr_eq_if] at h
  split_ifs at h with hn hm hm
  · have := nat_repr_inj h
    omega
  · rw [hneg] at h
    exact absurd (h ▸ List.mem_cons_self) (hsign n.toNat)
  · rw [hneg] at h
    exact absurd (h ▸ List.mem_cons_self) (hsign m.toNat)
  · rw [hneg, hneg] at h
    have := nat_repr_inj (List.cons.inj h).2
    omega

/-- The texts of the floats that are not numbers. -/
def floatWords : List (Number × String) :=
  [(.inf, "Infinity"), (.negInf, "-Infinity"), (.nan, "NaN")]

theorem floatText_cases (h : FloatTexts) (x : Number) : (x, floatText x) ∈ floatWords ∨
    (floatText x = Runtime.floatRepr x ∧ (∀ c ∈ (floatText x).toList, isFloatChar c = true) ∧
      ('.' ∈ (floatText x).toList ∨ 'e' ∈ (floatText x).toList)) := by
  cases x with
  | inf | negInf | nan => exact Or.inl (by simp [floatWords, floatText])
  | finite q =>
    exact Or.inr ⟨rfl, h.chars _ (by simp) (by simp) (by simp),
      h.fraction _ (by simp) (by simp) (by simp)⟩
  | negZero =>
    exact Or.inr ⟨rfl, h.chars _ (by simp) (by simp) (by simp),
      h.fraction _ (by simp) (by simp) (by simp)⟩

theorem floatText_inj (h : FloatTexts) {x y : Number}
    (he : (floatText x).toList = (floatText y).toList) : x = y := by
  have hword : ∀ p ∈ floatWords, ∃ c ∈ p.2.toList, isFloatChar c = false := by
    intro p hp
    have hany : (floatWords.all fun p => p.2.toList.any fun c => !isFloatChar c) = true := by decide
    simpa using List.all_eq_true.mp hany p hp
  have hwords : ∀ p ∈ floatWords, ∀ p' ∈ floatWords, p.2.toList = p'.2.toList → p.1 = p'.1 := by
    simp [floatWords]
  rcases floatText_cases h x with hx | ⟨hx, hcx, -⟩
  · rcases floatText_cases h y with hy | ⟨-, hcy, -⟩
    · exact hwords _ hx _ hy he
    · obtain ⟨c, hc, hf⟩ := hword _ hx
      rw [hcy c (he ▸ hc)] at hf
      cases hf
  · rcases floatText_cases h y with hy | ⟨hy, -, -⟩
    · obtain ⟨c, hc, hf⟩ := hword _ hy
      rw [hcx c (he.symm ▸ hc)] at hf
      cases hf
    · rw [hx, hy] at he
      exact h.injective (String.toList_inj.mp he)

theorem floatText_ne_int (h : FloatTexts) (x : Number) (n : ℤ) :
    (floatText x).toList ≠ (toString n).toList := by
  intro he
  have hnot : ∀ c ∈ (floatText x).toList, c.isDigit = true ∨ c = '-' := by
    rw [he]
    exact fun c => mem_toString
  have hword : ∀ p ∈ floatWords, ∃ c ∈ p.2.toList, ¬ (c.isDigit = true ∨ c = '-') := by
    intro p hp
    have hany : (floatWords.all fun p => p.2.toList.any fun c =>
        !(c.isDigit || c = '-')) = true := by
      decide
    simpa using List.all_eq_true.mp hany p hp
  rcases floatText_cases h x with hx | ⟨-, -, hx | hx⟩
  · obtain ⟨c, hc, hf⟩ := hword _ hx
    exact hf (hnot c hc)
  · exact absurd (hnot _ hx) (by decide)
  · exact absurd (hnot _ hx) (by decide)

namespace Json

/-- Numbers and constants. -/
def isWord : Json → Bool
  | .null | .bool _ | .int _ | .float _ => true
  | .str _ | .arr _ | .obj _ => false

/-- The texts of the constants. -/
def constants : List (Json × List Char) :=
  [(.null, "null".toList), (.bool true, "true".toList), (.bool false, "false".toList)]

theorem word_cases {a : Json} (h : a.isWord = true) : (a, a.text) ∈ constants ∨
    (∃ n, a = .int n) ∨ ∃ x, a = .float x := by
  cases a with
  | null => exact Or.inl (by simp [constants, text])
  | bool b => cases b <;> exact Or.inl (by simp [constants, text])
  | int n => exact Or.inr (Or.inl ⟨n, rfl⟩)
  | float x => exact Or.inr (Or.inr ⟨x, rfl⟩)
  | str | arr | obj => cases h

theorem word_text_inj (h : FloatTexts) {a b : Json} (ha : a.isWord = true) (hb : b.isWord = true)
    (he : a.text = b.text) : a = b := by
  have hconstants : ∀ p ∈ constants, ∀ p' ∈ constants, p.2 = p'.2 → p.1 = p'.1 := by
    simp [constants]
  have hint : ∀ p ∈ constants, ∃ c ∈ p.2, ¬ (c.isDigit = true ∨ c = '-') := by
    simp [constants]
  have hfloat : ∀ p ∈ constants, ∃ c ∈ p.2, isFloatChar c = false := by
    simp [constants, isFloatChar]
  have hwords : ∀ p ∈ constants, ∀ p' ∈ floatWords, p'.2.toList ≠ p.2 := by
    simp [constants, floatWords]
  have hconstInt : ∀ p ∈ constants, ∀ n : ℤ, p.2 ≠ (toString n).toList := by
    intro p hp n hpn
    obtain ⟨c, hc, hf⟩ := hint p hp
    exact hf (mem_toString (hpn ▸ hc))
  have hconstFloat : ∀ p ∈ constants, ∀ x : Number, p.2 ≠ (floatText x).toList := by
    intro p hp x hpx
    rcases floatText_cases h x with hx | ⟨-, hx, -⟩
    · exact hwords p hp _ hx hpx.symm
    · obtain ⟨c, hc, hf⟩ := hfloat p hp
      rw [hx c (hpx ▸ hc)] at hf
      cases hf
  rcases word_cases ha with ha | ⟨n, rfl⟩ | ⟨x, rfl⟩
  · rcases word_cases hb with hb | ⟨m, rfl⟩ | ⟨y, rfl⟩
    · exact hconstants _ ha _ hb he
    · exact absurd he (hconstInt _ ha m)
    · exact absurd he (hconstFloat _ ha y)
  · rcases word_cases hb with hb | ⟨m, rfl⟩ | ⟨y, rfl⟩
    · exact absurd he.symm (hconstInt _ hb n)
    · rw [toString_int_inj he]
    · exact absurd he.symm (floatText_ne_int h y n)
  · rcases word_cases hb with hb | ⟨m, rfl⟩ | ⟨y, rfl⟩
    · exact absurd he.symm (hconstFloat _ hb x)
    · exact absurd he (floatText_ne_int h x m)
    · rw [floatText_inj h he]

theorem word_chars (h : FloatTexts) {a : Json} (ha : a.isWord = true) {c : Char} (hc : c ∈ a.text) :
    isWordChar c = true := by
  have hconstants : ∀ p ∈ constants, ∀ c ∈ p.2, isWordChar c = true := by
    simp [constants, isWordChar]
  have hwords : ∀ p ∈ floatWords, ∀ c ∈ p.2.toList, isWordChar c = true := by
    simp [floatWords, isWordChar]
  have hdigit : ∀ c : Char, c.isDigit = true → isWordChar c = true := by
    intro c hd
    simp [isWordChar, Char.isAlphanum, hd]
  rcases word_cases ha with ha | ⟨n, rfl⟩ | ⟨x, rfl⟩
  · exact hconstants _ ha c hc
  · rcases mem_toString hc with hd | rfl
    · exact hdigit c hd
    · rfl
  · rcases floatText_cases h x with hx | ⟨-, hx, -⟩
    · exact hwords _ hx c hc
    · have hf := hx c hc
      unfold isFloatChar at hf
      simp only [Bool.or_eq_true, decide_eq_true_eq] at hf
      rcases hf with (((hf | rfl) | rfl) | rfl) | rfl
      · exact hdigit c hf
      all_goals rfl

theorem word_ne_nil (h : FloatTexts) {a : Json} (ha : a.isWord = true) : a.text ≠ [] := by
  have hconstants : ∀ p ∈ constants, p.2 ≠ [] := by simp [constants]
  have hwords : ∀ p ∈ floatWords, p.2.toList ≠ [] := by simp [floatWords]
  have hnat : ∀ m : ℕ, m.repr.toList ≠ [] := by
    intro m hm
    rw [Nat.toList_repr] at hm
    have := Nat.length_toDigits_pos (b := 10) (n := m)
    rw [hm] at this
    cases this
  rcases word_cases ha with ha | ⟨n, rfl⟩ | ⟨x, rfl⟩
  · exact hconstants _ ha
  · show (toString n).toList ≠ []
    rw [Int.toString_eq_repr, Int.repr_eq_if]
    split_ifs
    · exact hnat _
    · simp [String.toList_append]
  · show (floatText x).toList ≠ []
    rcases floatText_cases h x with hx | ⟨-, -, hx | hx⟩
    · exact hwords _ hx
    · exact List.ne_nil_of_mem hx
    · exact List.ne_nil_of_mem hx

/-! ### Values -/

/-- What can follow a value: nothing, or the separator or bracket after an item. -/
def Stops (r : List Char) : Prop := ∀ c ∈ r.head?, c = ',' ∨ c = ']' ∨ c = '\x7d'

omit [Runtime] in
theorem Stops.word {r : List Char} (h : Stops r) : ∀ c ∈ r.head?, isWordChar c = false := by
  intro c hc
  rcases h c hc with rfl | rfl | rfl <;> rfl

theorem stops_textItems (as : List Json) (r : List Char) : Stops (textItems [','] as ++ r) := by
  cases as <;> simp [Stops, textItems]

theorem stops_textFields (fs : List (String × Json)) (r : List Char) :
    Stops (textFields [','] fs ++ r) := by
  cases fs <;> simp [Stops, textFields]

/-- Words, strings, lists and dictionaries. -/
def kind : Json → ℕ
  | .null | .bool _ | .int _ | .float _ => 0
  | .str _ => 1
  | .arr _ => 2
  | .obj _ => 3

/-- The kind of the values that begin with a character. -/
def kindOfChar (c : Char) : ℕ :=
  if isWordChar c then 0 else if c = '"' then 1 else if c = '[' then 2 else if c =
    '\x7b' then 3 else 4

omit [Runtime] in
theorem isWord_of_kind {a : Json} (h : a.kind = 0) : a.isWord = true := by
  cases a with
  | null | bool | int | float => rfl
  | str | arr | obj => simp [kind] at h

theorem head_text (h : FloatTexts) (a : Json) : ∃ c cs, a.text = c :: cs ∧
    kindOfChar c = a.kind := by
  cases hw : a.isWord with
  | true =>
    cases ht : a.text with
    | nil => exact absurd ht (word_ne_nil h hw)
    | cons c cs =>
      refine ⟨c, cs, rfl, ?_⟩
      unfold kindOfChar
      rw [if_pos (word_chars h hw (ht ▸ List.mem_cons_self))]
      cases a with
      | null | bool | int | float => rfl
      | str | arr | obj => cases hw
  | false =>
    cases a with
    | null | bool | int | float => cases hw
    | str s => exact ⟨'"', _, rfl, rfl⟩
    | arr as => exact ⟨'[', _, rfl, rfl⟩
    | obj fs => exact ⟨'\x7b', _, rfl, rfl⟩

theorem same_kind (h : FloatTexts) {a b : Json} {r r' : List Char}
    (he : a.text ++ r = b.text ++ r') :
    a.kind = b.kind := by
  obtain ⟨c, cs, ht, hc⟩ := head_text h a
  obtain ⟨c', cs', ht', hc'⟩ := head_text h b
  rw [ht, ht'] at he
  rw [← hc, ← hc', (List.cons.inj he).1]

theorem text_ne_close (h : FloatTexts) (a : Json) {r r' : List Char} : a.text ++ r ≠ ']' :: r' := by
  obtain ⟨c, cs, ht, hc⟩ := head_text h a
  rw [ht]
  intro he
  obtain ⟨rfl, -⟩ := List.cons.inj he
  cases a <;> simp [kindOfChar, isWordChar, kind] at hc

theorem textItems_ne_close (h : FloatTexts) {sep : List Char} (hsep : sep = [] ∨ sep = [','])
    (a : Json) (as : List Json) {r r' : List Char} : textItems sep (a :: as) ++ r ≠ ']' :: r' := by
  rcases hsep with rfl | rfl
  · simp only [textItems, List.nil_append, List.append_assoc]
    exact text_ne_close h a
  · simp [textItems]

omit [Runtime] in
theorem textFields_ne_close {sep : List Char} [Runtime] (hsep : sep = [] ∨ sep = [','])
    (f : String × Json) (fs : List (String × Json)) {r r' : List Char} :
    textFields sep (f :: fs) ++ r ≠ '\x7d' :: r' := by
  rcases hsep with rfl | rfl <;> simp [textFields, quote]

theorem word_append_text_inj (h : FloatTexts) {a b : Json} (ha : a.isWord = true)
    (hb : b.isWord = true) {r r' : List Char} (hr : Stops r) (hr' : Stops r')
    (he : a.text ++ r = b.text ++ r') : a = b ∧ r = r' := by
  obtain ⟨ht, hrest⟩ := word_append_inj (fun _ => word_chars h ha)
    (fun _ => word_chars h hb) hr.word hr'.word he
  exact ⟨word_text_inj h ha hb ht, hrest⟩

mutual

/-- **A value is determined by a text that begins with its own**, up to where the value ends. -/
theorem text_append_inj (h : FloatTexts) : ∀ (a b : Json) {r r' : List Char}, Stops r → Stops r' →
    a.text ++ r = b.text ++ r' → a = b ∧ r = r'
  | .str s, b, r, r', _, _, he => by
    have hk := same_kind h he
    cases b with
    | str s' =>
      obtain ⟨rfl, hrest⟩ := quote_append_inj he
      exact ⟨rfl, hrest⟩
    | null | bool | int | float | arr | obj => simp [kind] at hk
  | .arr as, b, r, r', _, _, he => by
    have hk := same_kind h he
    cases b with
    | arr bs =>
      obtain ⟨rfl, hrest⟩ := textItems_append_inj h [] as bs (Or.inl rfl) (List.cons.inj he).2
      exact ⟨rfl, hrest⟩
    | null | bool | int | float | str | obj => simp [kind] at hk
  | .obj fs, b, r, r', _, _, he => by
    have hk := same_kind h he
    cases b with
    | obj gs =>
      obtain ⟨rfl, hrest⟩ := textFields_append_inj h [] fs gs (Or.inl rfl) (List.cons.inj he).2
      exact ⟨rfl, hrest⟩
    | null | bool | int | float | str | arr => simp [kind] at hk
  | .null, _, _, _, hr, hr', he =>
    word_append_text_inj h rfl (isWord_of_kind (same_kind h he).symm) hr hr' he
  | .bool _, _, _, _, hr, hr', he =>
    word_append_text_inj h rfl (isWord_of_kind (same_kind h he).symm) hr hr' he
  | .int _, _, _, _, hr, hr', he =>
    word_append_text_inj h rfl (isWord_of_kind (same_kind h he).symm) hr hr' he
  | .float _, _, _, _, hr, hr', he =>
    word_append_text_inj h rfl (isWord_of_kind (same_kind h he).symm) hr hr' he

theorem textItems_append_inj (h : FloatTexts) : ∀ (sep : List Char) (as bs : List Json)
    {r r' : List Char}, (sep = [] ∨ sep = [',']) →
      textItems sep as ++ r = textItems sep bs ++ r' → as = bs ∧ r = r'
  | _, [], [], _, _, _, he => ⟨rfl, (List.cons.inj he).2⟩
  | _, [], b :: bs, _, _, hsep, he => absurd he.symm (textItems_ne_close h hsep b bs)
  | _, a :: as, [], _, _, hsep, he => absurd he (textItems_ne_close h hsep a as)
  | sep, a :: as, b :: bs, r, r', _, he => by
    simp only [textItems, List.append_assoc, List.append_cancel_left_eq] at he
    obtain ⟨rfl, hrest⟩ := text_append_inj h a b (stops_textItems as r) (stops_textItems bs r') he
    obtain ⟨rfl, rfl⟩ := textItems_append_inj h [','] as bs (Or.inr rfl) hrest
    exact ⟨rfl, rfl⟩

theorem textFields_append_inj (h : FloatTexts) : ∀ (sep : List Char) (fs gs : List (String × Json))
    {r r' : List Char}, (sep = [] ∨ sep = [',']) →
      textFields sep fs ++ r = textFields sep gs ++ r' → fs = gs ∧ r = r'
  | _, [], [], _, _, _, he => ⟨rfl, (List.cons.inj he).2⟩
  | _, [], g :: gs, _, _, hsep, he => absurd he.symm (textFields_ne_close hsep g gs)
  | _, f :: fs, [], _, _, hsep, he => absurd he (textFields_ne_close hsep f fs)
  | sep, (k, a) :: fs, (k', b) :: gs, r, r', _, he => by
    simp only [textFields, List.append_assoc, List.cons_append, List.append_cancel_left_eq] at he
    obtain ⟨rfl, hvalue⟩ := quote_append_inj he
    obtain ⟨rfl, hrest⟩ := text_append_inj h a b (stops_textFields fs r) (stops_textFields gs r')
      (List.cons.inj hvalue).2
    obtain ⟨rfl, rfl⟩ := textFields_append_inj h [','] fs gs (Or.inr rfl) hrest
    exact ⟨rfl, rfl⟩

end

/-- **Values with one canonical text are the same**, up to the order of items in dictionaries. -/
theorem dumps_inj (h : FloatTexts) {a b : Json} (he : a.dumps = b.dumps) : a.canon = b.canon := by
  unfold dumps at he
  rw [String.ofList_inj] at he
  have hstops : Stops [] := by simp [Stops]
  exact (text_append_inj h a.canon b.canon hstops hstops (by rw [he])).1

/-! ### Lookup in sorted dictionaries -/

omit [Runtime] in
theorem lookup_orderedInsert (key : String) (f : String × Json) (fields : List (String × Json)) :
    (fields.orderedInsert (fun a b => a.1 ≤ b.1) f).lookup key = (f :: fields).lookup key := by
  induction fields with
  | nil => rfl
  | cons g fields ih =>
    rw [List.orderedInsert_cons]
    split_ifs with hle
    · rfl
    · -- `g` stands before `f` only if their keys differ
      have hne : g.1 ≠ f.1 := fun he => hle (he ▸ String.le_refl _)
      rw [List.lookup_cons, ih, List.lookup_cons, List.lookup_cons, List.lookup_cons]
      cases hg : key == g.1 with
      | false => rfl
      | true =>
        have hf : (key == f.1) = false := by
          rw [eq_of_beq hg]
          exact beq_eq_false_iff_ne.mpr hne
        rw [hf]

omit [Runtime] in
theorem lookup_sortFields (key : String) (fields : List (String × Json)) :
    (sortFields fields).lookup key = fields.lookup key := by
  unfold sortFields
  induction fields with
  | nil => rfl
  | cons f fields ih =>
    rw [List.insertionSort_cons, lookup_orderedInsert, List.lookup_cons, ih, List.lookup_cons]

omit [Runtime] in
theorem lookup_canonFields (key : String) (fields : List (String × Json)) :
    (canonFields fields).lookup key = (fields.lookup key).map canon := by
  induction fields with
  | nil => rfl
  | cons f fields ih =>
    obtain ⟨k, a⟩ := f
    rw [canonFields, List.lookup_cons, List.lookup_cons, ih]
    cases key == k <;> rfl

omit [Runtime] in
/-- Dictionaries that are the same up to the order of their items have the same values. -/
theorem lookup_of_canon {fields fields' : JsonObject}
    (h : (Json.obj fields).canon = (Json.obj fields').canon) (key : String) :
    (fields.lookup key).map canon = (fields'.lookup key).map canon := by
  simp only [canon, Json.obj.injEq] at h
  rw [← lookup_canonFields, ← lookup_canonFields, ← lookup_sortFields, h, lookup_sortFields]

end Json

/-! ### A sample -/

omit [Runtime] in
/-- A text for each float. -/
def sampleFloatRepr : Number → String
  | .finite q => toString q.num ++ ".0e" ++ toString q.den
  | .negZero => "-0.0"
  | .inf => "inf"
  | .negInf => "-inf"
  | .nan => "nan"

omit [Runtime] in
theorem sampleFloatRepr_finite (q : ℚ) : (sampleFloatRepr (.finite q)).toList =
    (toString q.num).toList ++ '.' :: '0' :: 'e' :: (toString q.den).toList := by
  simp [sampleFloatRepr, String.toList_append]

omit [Runtime] in
theorem sampleFloatRepr_inj : Function.Injective sampleFloatRepr := by
  -- the other texts lack the point or the exponent
  have hother : ∀ x : Number, (∀ q, x ≠ .finite q) →
      ∀ q, sampleFloatRepr (.finite q) ≠ sampleFloatRepr x := by
    intro x hx q he
    have hpoint : '.' ∈ (sampleFloatRepr (.finite q)).toList := by simp [sampleFloatRepr_finite]
    have hexp : 'e' ∈ (sampleFloatRepr (.finite q)).toList := by simp [sampleFloatRepr_finite]
    rw [he] at hpoint hexp
    cases x with
    | finite q' => exact hx q' rfl
    | negZero | inf | negInf | nan => revert hpoint hexp; decide
  intro x y hxy
  cases x with
  | finite q =>
    cases y with
    | finite q' =>
      have hsign : ∀ (n : ℤ), ∀ c ∈ (toString n).toList, (c.isDigit || c = '-') = true := by
        intro n c hc
        simpa using mem_toString hc
      have hlist := congrArg String.toList hxy
      rw [sampleFloatRepr_finite, sampleFloatRepr_finite] at hlist
      obtain ⟨hnum, hrest⟩ := word_append_inj (hsign _) (hsign _) (by simp) (by simp) hlist
      have hden : q.den.repr.toList = q'.den.repr.toList := by simpa using hrest
      rw [Rat.ext (toString_int_inj hnum) (nat_repr_inj hden)]
    | negZero | inf | negInf | nan => exact absurd hxy (hother _ (by simp) q)
  | negZero | inf | negInf | nan =>
    cases y with
    | finite q => exact absurd hxy.symm (hother _ (by simp) q)
    | negZero | inf | negInf | nan => first | rfl | exact absurd hxy (by decide)

theorem floatTexts_sample (h : Runtime.floatRepr = sampleFloatRepr) : FloatTexts := by
  have hnat : ∀ (n : ℕ), ∀ c ∈ (toString n).toList, c.isDigit = true := by
    intro n c hc
    rw [Nat.toString_eq_repr, Nat.toList_repr] at hc
    exact Nat.isDigit_of_mem_toDigits (by omega) (by omega) hc
  constructor
  · rw [h]
    exact sampleFloatRepr_inj
  · rw [h]
    intro x h1 h2 h3 c hc
    cases x with
    | finite q =>
      rw [sampleFloatRepr_finite, List.mem_append] at hc
      rcases hc with hc | hc
      · rcases mem_toString hc with hd | rfl
        · simp [isFloatChar, hd]
        · rfl
      · simp only [List.mem_cons] at hc
        rcases hc with rfl | rfl | rfl | hc
        · rfl
        · rfl
        · rfl
        · simp [isFloatChar, hnat _ c hc]
    | negZero =>
      have hall : (sampleFloatRepr .negZero).toList.all isFloatChar = true := by decide
      exact List.all_eq_true.mp hall c hc
    | inf | negInf | nan => contradiction
  · rw [h]
    intro x h1 h2 h3
    cases x with
    | finite q => exact Or.inl (by simp [sampleFloatRepr_finite])
    | negZero => exact Or.inl (by decide)
    | inf | negInf | nan => contradiction

end EventServer.Python
