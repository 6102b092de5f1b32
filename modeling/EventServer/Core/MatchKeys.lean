import EventServer.Python.Json

/-! # Match keys

`core/match_keys.py`: match keys are validated for their shape, stored sorted and without
repetition, compared with the keys the catalog declares, and intersected with the keys an event
carries. -/

namespace EventServer.Core.MatchKeys

open EventServer.Python

def maxMatchKeys : ℕ := 32

/-- A character of the class `[A-Za-z0-9_.:-]`. -/
def isMatchKeyChar (c : Char) : Bool :=
  ('A' ≤ c && c ≤ 'Z') || ('a' ≤ c && c ≤ 'z') || ('0' ≤ c && c ≤ '9') ||
    c ∈ ['_', '.', ':', '-']

/-- `MATCH_KEY_PATTERN.match(value)`: the `$` of the pattern also matches before a newline at the
end of the text. -/
def matchKeyPattern (value : String) : Bool :=
  let body := if value.toList.getLast? = some '\n' then value.toList.dropLast else value.toList
  1 ≤ body.length && body.length ≤ 64 && body.all isMatchKeyChar

variable [Runtime]

/-- One pass of the loop of `normalize_match_keys` over the values that are left. -/
def collectMatchKeys : List Json → List String → Except String (List String)
  | [], normalized => .ok normalized
  | .str value :: values, normalized =>
    if matchKeyPattern value then
      collectMatchKeys values (if value ∈ normalized then normalized else normalized ++ [value])
    else .error ("invalid match key: " ++ strRepr value)
  | value :: _, _ => .error ("invalid match key: " ++ value.repr)

/-- `normalize_match_keys`; the error is the text of a `MatchKeyError`. -/
def normalizeMatchKeys (values : Option (List Json)) : Except String (List String) :=
  match values with
  | none => .ok []
  | some values =>
    match collectMatchKeys values [] with
    | .error e => .error e
    | .ok normalized =>
      if normalized.length > maxMatchKeys then
        .error ("at most " ++ toString maxMatchKeys ++ " match keys are allowed")
      else .ok (sortedStr normalized)

/-- The key an option declares: a non-empty string under `key`. -/
def optionKey? : Json → Option String
  | .obj fields =>
    match fields.lookup "key" with
    | some (.str key) => if key ≠ "" then some key else none
    | _ => none
  | _ => none

/-- `allowed_match_keys`, as the list of the members of the set. -/
def allowedMatchKeys (options : List Json) : List String := options.filterMap optionKey?

/-- `ensure_match_keys_allowed`: the error names the first value that is not declared. -/
def ensureMatchKeysAllowed (values allowed : List String) : Except String Unit :=
  match values.filter fun value => value ∉ allowed with
  | [] => .ok ()
  | unknown :: _ => .error ("match key is not available for this event: " ++ unknown)

/-- `recipient_matches`. -/
def recipientMatches (field : Option String) (eventData : JsonObject) (subscribed : List String) :
    Bool :=
  match field with
  | none => true
  | some field =>
    if field = "" then true
    else if subscribed = [] then true
    else
      match eventData.lookup field with
      | some (.arr present) => present.any fun item => item.toStr ∈ subscribed
      | _ => false

end EventServer.Core.MatchKeys
