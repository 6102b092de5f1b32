import Mathlib.Data.Rat.Defs
import Mathlib.Data.List.Infix
import Mathlib.Data.List.Sort
import Mathlib.Tactic.Common

/-! # JSON values as the interpreter holds them

What `json.loads` returns: `None`, booleans, integers, floats, strings, lists and dictionaries. A
dictionary is the list of its items in insertion order. `str` and `repr` are the texts that
f-strings and match keys are made of, `pyEq` is `==` and `Number.lt` is `<`: a boolean is the number
0 or 1 there, and dictionaries are compared without regard to order.

`Runtime` collects what is not part of the repository: the digest function, the regular expression
engine and the tables of Unicode and of float printing. -/

namespace EventServer.Python

/-- A float: the rational it stands for, or one of the values that are not rationals. -/
inductive Number where
  | finite (q : ℚ)
  | negZero
  | inf
  | negInf
  | nan
  deriving DecidableEq

inductive Json where
  | null
  | bool (b : Bool)
  | int (n : ℤ)
  | float (x : Number)
  | str (s : String)
  | arr (items : List Json)
  | obj (fields : List (String × Json))

/-- A dictionary with string keys. -/
abbrev JsonObject := List (String × Json)

/-- The interpreter and the libraries under it. -/
class Runtime where
  /-- `hashlib.sha256(s.encode()).hexdigest()`. -/
  sha256Hex : String → String
  /-- `re.search(pattern, s) is not None`, or `none` if the pattern does not compile. -/
  reSearch : String → String → Option Bool
  /-- `s.upper()`. -/
  strUpper : String → String
  /-- `s.strip()`. -/
  strStrip : String → String
  /-- `c.isprintable()`. -/
  isPrintable : Char → Bool
  /-- `repr(x)` of a float. -/
  floatRepr : Number → String

/-- The runtime on ASCII texts, for a given table of digests; patterns without special characters
are searched for, and the floats printed are whole numbers. -/
abbrev Runtime.ascii (digests : List (String × String)) : Runtime where
  sha256Hex s := (digests.lookup s).getD ""
  reSearch pattern s := if pattern.toList.all Char.isAlphanum then
    some (pattern.toList <:+: s.toList) else none
  strUpper s := String.ofList (s.toList.map Char.toUpper)
  strStrip s := String.ofList
    (((s.toList.dropWhile Char.isWhitespace).reverse.dropWhile Char.isWhitespace).reverse)
  isPrintable c := 32 ≤ c.toNat ∧ c.toNat < 127
  floatRepr
    | .finite q => toString q.num ++ ".0"
    | .negZero => "-0.0"
    | .inf => "inf"
    | .negInf => "-inf"
    | .nan => "nan"

/-- The runtime of the samples: the digests of two tokens and of two pairing codes. -/
abbrev Runtime.sample : Runtime := .ascii
  [("token-1", "3f08aace122ee2368432c1ca23a049bc640bafbf00fdf33a52429f38ba12dbf9"),
    ("token-2", "0f6bffa9661cb5dd2f3f7b2929f33061f58a7ba7fdd689530b1a306f8ed8f3ec"),
    ("ABCDEFGH", "9ac2197d9258257b1ae8463e4214e4cd0a578bc1517f2415928b91be4283fc48"),
    ("HGFEDCBA", "023b316f7e3ff40be7e87c1331fdd6ddea6f5831dd0f60ebb78d9c78946a2593")]

/-- A point in time: microseconds since the epoch, in UTC. -/
abbrev Time := ℤ

/-- `timedelta(seconds=n)`. -/
def seconds (n : ℤ) : ℤ := n * 1000000

/-- `timedelta(minutes=n)`. -/
def minutes (n : ℤ) : ℤ := seconds (n * 60)

/-! ### Numbers -/

namespace Number

/-- `x == y`. -/
def eq : Number → Number → Bool
  | .nan, _ | _, .nan => false
  | .finite a, .finite b => a = b
  | .finite a, .negZero | .negZero, .finite a => a = 0
  | .negZero, .negZero | .inf, .inf | .negInf, .negInf => true
  | _, _ => false

/-- `x < y`. -/
def lt : Number → Number → Bool
  | .nan, _ | _, .nan => false
  | .inf, _ | _, .negInf => false
  | .negInf, _ | _, .inf => true
  | .finite a, .finite b => a < b
  | .finite a, .negZero => a < 0
  | .negZero, .finite b => 0 < b
  | .negZero, .negZero => false

end Number

namespace Json

/-- The number a value is, as `isinstance(value, (int, float))` sees it: booleans included. -/
def number? : Json → Option Number
  | .bool b => some (.finite (if b then 1 else 0))
  | .int n => some (.finite n)
  | .float x => some x
  | _ => none

/-- The integer a value is, as `isinstance(value, int)` sees it: booleans included. -/
def int? : Json → Option ℤ
  | .bool b => some (if b then 1 else 0)
  | .int n => some n
  | _ => none

/-! ### Equality -/

/-- `x == b` for a number `x`. -/
def numEq (x : Number) (b : Json) : Bool :=
  match b.number? with
  | some y => x.eq y
  | none => false

mutual

/-- `a == b`. -/
def pyEq : Json → Json → Bool
  | .null, .null => true
  | .str a, .str b => a = b
  | .arr a, .arr b => pyEqItems a b
  | .obj a, .obj b => a.length = b.length && pyEqFields a b
  | .bool a, b => numEq (.finite (if a then 1 else 0)) b
  | .int a, b => numEq (.finite a) b
  | .float a, b => numEq a b
  | _, _ => false

def pyEqItems : List Json → List Json → Bool
  | [], [] => true
  | a :: as, b :: bs => pyEq a b && pyEqItems as bs
  | _, _ => false

/-- Every item of the first dictionary has an equal value under its key in the second. -/
def pyEqFields : List (String × Json) → List (String × Json) → Bool
  | [], _ => true
  | (k, a) :: as, bs =>
    (match bs.lookup k with
      | some b => pyEq a b
      | none => false) && pyEqFields as bs

end

end Json

/-! ### Texts -/

variable [Runtime]

/-- `n` in hexadecimal with at least `w` digits. -/
def hexPad (w n : ℕ) : String :=
  let digits := Nat.toDigits 16 n
  String.ofList (List.replicate (w - digits.length) '0' ++ digits)

/-- One character of `repr(s)` between the quotes `q`. -/
def reprChar (q c : Char) : String :=
  if c = q ∨ c = '\\' then String.ofList ['\\', c]
  else if c = '\t' then "\\t"
  else if c = '\n' then "\\n"
  else if c = '\r' then "\\r"
  else if c.toNat < 32 ∨ c.toNat = 127 then "\\x" ++ hexPad 2 c.toNat
  else if c.toNat < 127 ∨ Runtime.isPrintable c = true then String.ofList [c]
  else if c.toNat < 256 then "\\x" ++ hexPad 2 c.toNat
  else if c.toNat < 65536 then "\\u" ++ hexPad 4 c.toNat
  else "\\U" ++ hexPad 8 c.toNat

/-- `repr(s)` of a string: in double quotes if it holds a single quote and no double one. -/
def strRepr (s : String) : String :=
  let q := if '\'' ∈ s.toList ∧ '"' ∉ s.toList then '"' else '\''
  String.ofList [q] ++ String.join (s.toList.map (reprChar q)) ++ String.ofList [q]

namespace Json

mutual

/-- `repr(value)`. -/
def repr : Json → String
  | .null => "None"
  | .bool b => if b then "True" else "False"
  | .int n => toString n
  | .float x => Runtime.floatRepr x
  | .str s => strRepr s
  | .arr items => "[" ++ ", ".intercalate (reprItems items) ++ "]"
  | .obj fields => "\x7b" ++ ", ".intercalate (reprFields fields) ++ "\x7d"

def reprItems : List Json → List String
  | [] => []
  | a :: as => repr a :: reprItems as

def reprFields : List (String × Json) → List String
  | [] => []
  | (k, a) :: as => (strRepr k ++ ": " ++ repr a) :: reprFields as

end

/-- `str(value)`. -/
def toStr : Json → String
  | .str s => s
  | v => v.repr

end Json

/-- `sorted(values)` of a list of strings. -/
def sortedStr (values : List String) : List String := values.insertionSort (· ≤ ·)

/-- `sep.join(values)`. -/
def joinStr (sep : String) (values : List String) : String := sep.intercalate values

end EventServer.Python
