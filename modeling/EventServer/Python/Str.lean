import EventServer.Python.Json

/-! # Texts with surrogates

A `str` is a list of code points, and `json.loads` may return texts with surrogates that stand
alone. Such a text cannot be encoded: `Str.encode?` finds the characters of a text, or nothing if
there is a surrogate among its code points. `Value` is what `json.loads` returns, and `Value.json?`
what is left of a value that is written and read again. -/

namespace EventServer.Python

inductive CodePoint where
  | char (c : Char)
  /-- A surrogate, counted from U+D800. -/
  | surrogate (n : Fin 2048)
  deriving DecidableEq

abbrev Str := List CodePoint

/-- The text of a literal. -/
def Str.of (s : String) : Str := s.toList.map .char

def CodePoint.toNat : CodePoint → ℕ
  | .char c => c.toNat
  | .surrogate n => 0xD800 + n

/-! ### Characters -/

/-- `c.isspace()`. -/
def CodePoint.isSpace : CodePoint → Bool
  | .char c =>
    (9 ≤ c.toNat && c.toNat ≤ 13) || (28 ≤ c.toNat && c.toNat ≤ 32) || c.toNat = 0x85 ||
      c.toNat = 0xA0 || c.toNat = 0x1680 || (0x2000 ≤ c.toNat && c.toNat ≤ 0x200A) ||
      c.toNat = 0x2028 || c.toNat = 0x2029 || c.toNat = 0x202F || c.toNat = 0x205F ||
      c.toNat = 0x3000
  | .surrogate _ => false

/-- A letter from A to Z or a to z. -/
def CodePoint.isAlpha : CodePoint → Bool
  | .char c => c.isAlpha
  | .surrogate _ => false

def CodePoint.isAscii (c : CodePoint) : Bool := c.toNat < 128

theorem toNat_of_isDigit {c : Char} (h : c.isDigit = true) : 48 ≤ c.toNat ∧ c.toNat ≤ 57 := by
  simpa [Char.isDigit, UInt32.le_iff_toNat_le] using h

theorem toNat_of_isAlpha {c : Char} (h : c.isAlpha = true) :
    (65 ≤ c.toNat ∧ c.toNat ≤ 90) ∨ (97 ≤ c.toNat ∧ c.toNat ≤ 122) := by
  have hranges : (decide (c.val ≥ 65 ∧ c.val ≤ 90) ||
      (decide (c.val ≥ 97) && decide (c.val ≤ 122))) = true := h
  simpa [UInt32.le_iff_toNat_le] using hranges

theorem isSpace_eq_false {c : Char} (h : 33 ≤ c.toNat) (h' : c.toNat ≤ 126) :
    CodePoint.isSpace (.char c) = false := by
  unfold CodePoint.isSpace
  simp only [Bool.or_eq_false_iff, Bool.and_eq_false_iff, decide_eq_false_iff_not]
  omega

theorem isSpace_of_isAlpha {c : CodePoint} (h : c.isAlpha = true) : c.isSpace = false := by
  cases c with
  | surrogate n => rfl
  | char c =>
    have hrange := toNat_of_isAlpha h
    exact isSpace_eq_false (by omega) (by omega)

namespace Str

/-- `s.isascii()`. -/
def isAscii (s : Str) : Bool := s.all CodePoint.isAscii

/-- `s.lstrip()`. -/
def lstrip (s : Str) : Str := s.dropWhile CodePoint.isSpace

/-- `s.strip()`. -/
def strip (s : Str) : Str := (lstrip (lstrip s).reverse).reverse

/-- The characters of a text, or `none` if it cannot be encoded. -/
def chars? : Str → Option (List Char)
  | [] => some []
  | .char c :: s => (chars? s).map (c :: ·)
  | .surrogate _ :: _ => none

/-- `s.encode("utf-8")`, as the text that is read from the bytes. -/
def encode? (s : Str) : Option String := (chars? s).map String.ofList

/-- The text has no surrogates. -/
def Encodable (s : Str) : Prop := ∃ t, encode? s = some t

instance (s : Str) : Decidable s.Encodable :=
  decidable_of_iff ((encode? s).isSome = true) Option.isSome_iff_exists

theorem chars?_map_char (cs : List Char) : chars? (cs.map .char) = some cs := by
  induction cs with
  | nil => rfl
  | cons c cs ih => simp [chars?, ih]

@[simp] theorem encode?_of (s : String) : encode? (of s) = some s := by
  unfold encode? of
  rw [chars?_map_char, Option.map_some, String.ofList_toList]

theorem chars?_eq_some {s : Str} {cs : List Char} : chars? s = some cs ↔ s = cs.map .char := by
  refine ⟨fun h => ?_, fun h => h ▸ chars?_map_char cs⟩
  induction s generalizing cs with
  | nil =>
    cases h
    rfl
  | cons c s ih =>
    cases c with
    | surrogate n => cases h
    | char c =>
      obtain ⟨rest, hrest, rfl⟩ := Option.map_eq_some_iff.mp h
      rw [ih hrest, List.map_cons]

theorem encode?_eq_some {s : Str} {t : String} : encode? s = some t ↔ s = of t := by
  unfold encode? of
  rw [Option.map_eq_some_iff]
  constructor
  · rintro ⟨cs, hcs, rfl⟩
    rw [String.toList_ofList, chars?_eq_some.mp hcs]
  · rintro rfl
    exact ⟨t.toList, chars?_map_char _, String.ofList_toList⟩

theorem length_of (s : String) : (of s).length = s.length := by
  rw [of, List.length_map, String.length_toList]

theorem of_inj {s t : String} : of s = of t ↔ s = t := by
  refine ⟨fun h => ?_, congrArg of⟩
  have hencode := congrArg encode? h
  rwa [encode?_of, encode?_of, Option.some_inj] at hencode

theorem chars?_append {s s' : Str} : chars? (s ++ s') =
    (chars? s).bind fun cs => (chars? s').map (cs ++ ·) := by
  induction s with
  | nil => cases h : chars? s' <;> simp [chars?, h]
  | cons c s ih =>
    cases c with
    | char c => cases hs : chars? s <;> cases hs' : chars? s' <;> simp [chars?, ih, hs, hs']
    | surrogate n => rfl

theorem encode?_append {s s' : Str} : encode? (s ++ s') =
    (encode? s).bind fun t => (encode? s').map (t ++ ·) := by
  unfold encode?
  rw [chars?_append]
  cases chars? s <;> cases chars? s' <;> simp [String.ofList_append]

theorem encodable_append {s s' : Str} :
    (s ++ s').Encodable ↔ s.Encodable ∧ s'.Encodable := by
  unfold Encodable
  rw [encode?_append]
  cases encode? s <;> cases encode? s' <;> simp

theorem encodable_of (s : String) : (of s).Encodable := ⟨s, encode?_of s⟩

theorem length_chars? {s : Str} {cs : List Char}
    (h : chars? s = some cs) : cs.length = s.length := by
  induction s generalizing cs with
  | nil =>
    cases h
    rfl
  | cons c s ih =>
    cases c with
    | char c =>
      simp only [chars?, Option.map_eq_some_iff] at h
      obtain ⟨cs', hs, rfl⟩ := h
      simp [ih hs]
    | surrogate n => cases h

theorem length_encode? {s : Str} {t : String} (h : encode? s = some t) : t.length = s.length := by
  unfold encode? at h
  rw [Option.map_eq_some_iff] at h
  obtain ⟨cs, hs, rfl⟩ := h
  rw [String.length_ofList, length_chars? hs]

/-- **A text can be encoded** if all its code points are characters. -/
theorem encodable_iff {s : Str} : s.Encodable ↔ ∀ c ∈ s, ∃ ch, c = .char ch := by
  induction s with
  | nil => exact iff_of_true ⟨"", rfl⟩ (List.forall_mem_nil _)
  | cons c s ih =>
    have hcons : Encodable (c :: s) ↔ Encodable [c] ∧ Encodable s := encodable_append (s := [c])
    rw [hcons, ih, List.forall_mem_cons]
    refine and_congr_left fun _ => ?_
    cases c with
    | char ch => exact iff_of_true ⟨String.ofList [ch], rfl⟩ ⟨ch, rfl⟩
    | surrogate n => exact iff_of_false (fun ⟨t, h⟩ => by cases h) (fun ⟨ch, h⟩ => by cases h)

theorem encodable_lstrip {s : Str} : (lstrip s).Encodable ↔ s.Encodable := by
  induction s with
  | nil => rfl
  | cons c s ih =>
    unfold lstrip at ih ⊢
    rw [List.dropWhile_cons]
    split_ifs with hspace
    · rw [ih, encodable_iff, encodable_iff, List.forall_mem_cons]
      refine (and_iff_right ?_).symm
      cases c with
      | char ch => exact ⟨ch, rfl⟩
      | surrogate n => cases hspace
    · rfl

theorem encodable_reverse {s : Str} : Encodable s.reverse ↔ s.Encodable := by
  simp only [encodable_iff, List.mem_reverse]

theorem encodable_strip {s : Str} : s.strip.Encodable ↔ s.Encodable := by
  unfold strip
  rw [encodable_reverse, encodable_lstrip, encodable_reverse, encodable_lstrip]

/-- A text whose code points are all of a kind that surrogates are not of. -/
theorem encodable_of_all {s : Str} {p : CodePoint → Bool} (h : s.all p = true)
    (hp : ∀ n, p (.surrogate n) = false) : s.Encodable := by
  rw [encodable_iff]
  intro c hc
  cases c with
  | char ch => exact ⟨ch, rfl⟩
  | surrogate n =>
    have hall := List.all_eq_true.mp h _ hc
    rw [hp n] at hall
    cases hall

end Str

/-! ### Values -/

/-- What `json.loads` returns. -/
inductive Value where
  | null
  | bool (b : Bool)
  | int (n : ℤ)
  | float (x : Number)
  | str (s : Str)
  | arr (items : List Value)
  | obj (fields : List (Str × Value))

abbrev Fields := List (Str × Value)

namespace Value

/-- `bool(value)`. -/
def isTrue : Value → Bool
  | null => false
  | bool b => b
  | int n => n ≠ 0
  | float (.finite q) => q ≠ 0
  | float .negZero => false
  | float _ => true
  | str s => s ≠ []
  | arr items => items.isEmpty = false
  | obj fields => fields.isEmpty = false

def isNull : Value → Bool
  | null => true
  | _ => false

/-- The integer of an `int`; a `bool` is one too. -/
def int? : Value → Option ℤ
  | int n => some n
  | bool b => some (if b then 1 else 0)
  | _ => none

end Value

/-- `fields.get(key)`, where a field that is missing is `None`. -/
def Fields.get (fields : Fields) (key : String) : Value := (fields.lookup (.of key)).getD .null

mutual

/-- `json.dumps(value, ensure_ascii=False).encode("utf-8")`, as the value that is read from the
bytes. -/
def Value.json? : Value → Option Json
  | .null => some .null
  | .bool b => some (.bool b)
  | .int n => some (.int n)
  | .float x => some (.float x)
  | .str s => s.encode?.map .str
  | .arr items => (jsonItems? items).map .arr
  | .obj fields => (jsonFields? fields).map .obj

def jsonItems? : List Value → Option (List Json)
  | [] => some []
  | item :: items => item.json?.bind fun item => (jsonItems? items).map (item :: ·)

def jsonFields? : List (Str × Value) → Option JsonObject
  | [] => some []
  | (key, value) :: fields => key.encode?.bind fun key =>
    value.json?.bind fun value => (jsonFields? fields).map ((key, value) :: ·)

end

theorem json?_eq_str {value : Value} {s : String} :
    value.json? = some (.str s) ↔ value = .str (.of s) := by
  cases value with
  | str t => simp [Value.json?, Str.encode?_eq_some]
  | null | bool _ | int _ | float _ => simp [Value.json?]
  | arr items => cases h : jsonItems? items <;> simp [Value.json?, h]
  | obj fields => cases h : jsonFields? fields <;> simp [Value.json?, h]

theorem lookup_jsonFields? {fields : Fields} {json : JsonObject}
    (h : jsonFields? fields = some json)
    (key : String) : json.lookup key = (fields.lookup (.of key)).bind Value.json? := by
  induction fields generalizing json with
  | nil =>
    cases h
    rfl
  | cons field fields ih =>
    obtain ⟨name, value⟩ := field
    simp only [jsonFields?, Option.bind_eq_some_iff, Option.map_eq_some_iff] at h
    obtain ⟨name', hname, value', hvalue, rest, hrest, rfl⟩ := h
    rw [Str.encode?_eq_some] at hname
    subst hname
    rw [List.lookup_cons, List.lookup_cons]
    by_cases hkey : key = name'
    · subst hkey
      simp [hvalue]
    · have hne : Str.of key ≠ Str.of name' := fun he => hkey (Str.of_inj.mp he)
      rw [beq_false_of_ne hkey, beq_false_of_ne hne]
      exact ih hrest

/-- What `json.loads(data.decode("utf-8"))` raises; `valueError` is for an integer with too many
digits. -/
inductive LoadsError where
  | unicodeDecodeError
  | jsonDecodeError (msg : String)
  | valueError
  | recursionError

/-! ### Numbers -/

/-- `math.isfinite(x)`. -/
def Number.isFinite : Number → Bool
  | .finite _ | .negZero => true
  | .inf | .negInf | .nan => false

/-- What `int(x)` raises. -/
inductive IntError where
  | valueError
  | overflowError

/-- `int(x)` of a float. -/
def Number.toInt : Number → Except IntError ℤ
  | .finite q => .ok (q.num.tdiv q.den)
  | .negZero => .ok 0
  | .nan => .error .valueError
  | .inf | .negInf => .error .overflowError

end EventServer.Python
