import EventServer.Providers.Warframe
import EventServer.Python.Str

/-! # The adapter of the world state

`providers/warframe/worldstate_adapter.py`: what each provider is given as raw data is read from two
sections of the payload, the time of day and the missions or the goals. Dates are extended JSON; a
section that is malformed raises, for the providers that read it (`extract_congr`). -/

namespace EventServer.Providers.WorldState

open EventServer.Core EventServer.Python EventServer.Providers.Warframe

/-- What `datetime.fromtimestamp` raises. -/
inductive TimestampError where
  | valueError
  | overflowError
  | osError

/-- What the adapter raises. -/
inductive AdapterError where
  | worldStateSchemaError (message : String)
  | keyError (message : String)
  | timestamp (e : TimestampError)
  /-- A computed `datetime` lies outside the years 1 to 9999. -/
  | overflowError

/-- What the adapter calls of the standard library. -/
structure Library where
  /-- `int(s)`, or `none` if it raises. -/
  intOfStr : String → Option ℤ
  /-- `datetime.fromtimestamp(n / 1000, tz=UTC)`, or an exception of the division. -/
  fromMillis : ℤ → Except TimestampError Time
  /-- What `datetime.fromtimestamp(n, tz=UTC)` raises outside the years 1 to 9999. -/
  timestampError : ℤ → TimestampError
  fromMillis_range : ∀ {n t}, fromMillis n = .ok t → InRange t

/-- `datetime.fromtimestamp(n, tz=UTC)` of an integer. -/
def fromtimestamp (lib : Library) (n : ℤ) : Except AdapterError Time :=
  if InRange (seconds n) then .ok (seconds n) else .error (.timestamp (lib.timestampError n))

/-- A computed `datetime`. -/
def checked (t : Time) : Except AdapterError Time :=
  if InRange t then .ok t else .error .overflowError

/-- `int(t.timestamp())`; the float is near enough to a time that was read in milliseconds to have
its seconds. -/
def intTimestamp (t : Time) : ℤ := t.tdiv (seconds 1)

/-! ### Values of the payload -/

/-- `payload.get(key)` and the checks of `_epoch_seconds`. -/
def epochSeconds : Option Json → Except AdapterError ℤ
  | some value =>
    match value.int? with
    | some n => .ok n
    | none => .error (.worldStateSchemaError "WorldState Time must be integer epoch seconds")
  | none => .error (.worldStateSchemaError "WorldState Time must be integer epoch seconds")

/-- `int(raw)`, or `none` if it raises. -/
def intOf (lib : Library) : Json → Option ℤ
  | .bool b => some (if b then 1 else 0)
  | .int n => some n
  | .float x => x.toInt.toOption
  | .str s => lib.intOfStr s
  | .null | .arr _ | .obj _ => none

/-- `int(value["$date"]["$numberLong"])`, or `none` if it raises. -/
def numberLong (lib : Library) : Option Json → Option ℤ
  | some (.obj fields) =>
    match fields.lookup "$date" with
    | some (.obj date) => (date.lookup "$numberLong").bind (intOf lib)
    | _ => none
  | _ => none

/-- `_bson_date`: an `OSError` is not caught. -/
def bsonDate (lib : Library) (value : Option Json) : Except AdapterError Time :=
  match numberLong lib value with
  | none => .error (.worldStateSchemaError "invalid extended JSON date")
  | some n =>
    match lib.fromMillis n with
    | .ok t => .ok t
    | .error .osError => .error (.timestamp .osError)
    | .error .valueError | .error .overflowError =>
      .error (.worldStateSchemaError "invalid extended JSON date")

/-- `_bson_id`. -/
def bsonId : Option Json → Option String
  | some (.obj fields) =>
    match fields.lookup "$oid" with
    | some (.str oid) => if oid = "" then none else some oid
    | _ => none
  | _ => none

/-- The fields of a dictionary. -/
def fields? : Json → Option JsonObject
  | .obj fields => some fields
  | _ => none

/-- `_objects`. -/
def objects (section_ : String) : Option Json → Except AdapterError (List JsonObject)
  | some (.arr items) =>
    match items.mapM fields? with
    | some objects => .ok objects
    | none => .error (.worldStateSchemaError (section_ ++ " must be an array of objects"))
  | _ => .error (.worldStateSchemaError (section_ ++ " must be an array of objects"))

/-- `item.get("Tag") == tag`. -/
def hasTag (tag : String) (item : JsonObject) : Bool :=
  match item.lookup "Tag" with
  | some (.str s) => s = tag
  | _ => false

/-- `_cetus_mission`. -/
def cetusMission (payload : JsonObject) : Except AdapterError JsonObject := do
  let missions ← objects "SyndicateMissions" (payload.lookup "SyndicateMissions")
  match missions.find? (hasTag "CetusSyndicate") with
  | some mission => .ok mission
  | none => .error (.worldStateSchemaError "Cetus Syndicate mission is missing")

/-- A `datetime` in UTC as raw data. -/
def utc (t : Time) : RawValue := .datetime t (some 0)

/-! ### The providers -/

/-- `replace(second=0, microsecond=0)`. -/
def wholeMinute (t : Time) : Time := t - t % minutes 1

/-- The raw data of the night on Cetus. -/
structure CetusNight where
  identity : String
  isNight : Bool
  observedAt : Time
  effectiveAt : Time
  expiresAt : Time

def CetusNight.raw (c : CetusNight) : Raw :=
  [("identity", .json (.str c.identity)), ("is_night", .json (.bool c.isNight)),
    ("observed_at", utc c.observedAt), ("effective_at", utc c.effectiveAt),
    ("expires_at", utc c.expiresAt)]

/-- `CETUS_NIGHT_SECONDS`. -/
def cetusNightSeconds : ℤ := 3000

/-- `cetus_night` from the end of the bounties on. -/
def cetusPhase (observedAt bountyEnd : Time) : Except AdapterError CetusNight :=
  if bountyEnd - observedAt ≤ 0 then
    .error (.worldStateSchemaError "Cetus bounty expiry is not in the future")
  else do
    let isNight := bountyEnd - observedAt ≤ seconds cetusNightSeconds
    let nightStart ← checked (bountyEnd - seconds cetusNightSeconds)
    .ok
      { identity := "cetus:" ++ toString (intTimestamp bountyEnd) ++ ":" ++
          (if isNight then "night" else "day")
        isNight := isNight
        observedAt := observedAt
        effectiveAt := if isNight then nightStart else observedAt
        expiresAt := if isNight then bountyEnd else nightStart }

/-- `cetus_night`. -/
def cetusNight (lib : Library) (payload : JsonObject) : Except AdapterError CetusNight := do
  let observedAt ← fromtimestamp lib (← epochSeconds (payload.lookup "Time"))
  let mission ← cetusMission payload
  let bountyEnd ← bsonDate lib (mission.lookup "Expiry")
  cetusPhase observedAt (wholeMinute bountyEnd)

/-- `f"{seed}"` of an integer or a boolean. -/
def seedText : Option Json → Except AdapterError String
  | some (.int n) => .ok (toString n)
  | some (.bool b) => .ok (if b then "True" else "False")
  | _ => .error (.worldStateSchemaError "Cetus Syndicate Seed must be an integer")

/-- `konzu_rotation`. -/
def konzuRotation (lib : Library) (payload : JsonObject) : Except AdapterError Raw := do
  let observedAt ← fromtimestamp lib (← epochSeconds (payload.lookup "Time"))
  let mission ← cetusMission payload
  let seed ← seedText (mission.lookup "Seed")
  let activation ← bsonDate lib (mission.lookup "Activation")
  let expiry ← bsonDate lib (mission.lookup "Expiry")
  .ok
    [("rotation_id", .json (.str (seed ++ ":" ++ toString (intTimestamp expiry)))),
      ("observed_at", utc observedAt), ("effective_at", utc activation), ("expires_at", utc expiry),
      ("confirmed_summary", .json .null)]

/-- The loop over the candidates for the Ghoul event. -/
def ghoulCandidates (lib : Library) (observedAt : Time) :
    List JsonObject → Except AdapterError (Option Raw)
  | [] => .ok none
  | goal :: goals => do
    let activation ← bsonDate lib (goal.lookup "Activation")
    let expiry ← bsonDate lib (goal.lookup "Expiry")
    let success := ((goal.lookup "Success").map fun value =>
      (RawValue.json value).truthy).getD false
    if activation ≤ observedAt ∧ observedAt < expiry ∧ success = false then
      .ok (some
        [("identity", .json (.str ((bsonId (goal.lookup "_id")).getD
            ("ghoul:" ++ toString (intTimestamp activation) ++ ":" ++
              toString (intTimestamp expiry))))),
          ("active", .json (.bool true)), ("observed_at", utc observedAt),
          ("effective_at", utc activation), ("expires_at", utc expiry)])
    else ghoulCandidates lib observedAt goals

/-- `ghoul_event`. -/
def ghoulEvent (lib : Library) (payload : JsonObject) : Except AdapterError Raw := do
  let observedAt ← fromtimestamp lib (← epochSeconds (payload.lookup "Time"))
  let goals ← objects "Goals" (payload.lookup "Goals")
  match ← ghoulCandidates lib observedAt (goals.filter (hasTag "InfestedPlains")) with
  | some raw => .ok raw
  | none =>
    .ok
      [("identity", .json (.str "ghoul:inactive")), ("active", .json (.bool false)),
        ("observed_at", utc observedAt), ("effective_at", utc observedAt),
          ("expires_at", .json .null)]

/-- `extract`. -/
def extract (lib : Library) (providerKey : String)
    (payload : JsonObject) : Except AdapterError Raw :=
  if providerKey = "warframe.cetus_night" then (cetusNight lib payload).map CetusNight.raw
  else if providerKey = "warframe.konzu_rotation" then konzuRotation lib payload
  else if providerKey = "warframe.ghoul_event" then ghoulEvent lib payload
  else .error (.keyError ("unsupported WorldState provider: " ++ providerKey))

/-! ### Sections -/

/-- The sections of the payload that are read for a provider. -/
def sections (providerKey : String) : List String :=
  if providerKey = "warframe.cetus_night" ∨ providerKey = "warframe.konzu_rotation" then
    ["Time", "SyndicateMissions"]
  else if providerKey = "warframe.ghoul_event" then ["Time", "Goals"]
  else []

/-- **What is extracted for a provider depends on its sections only.** -/
theorem extract_congr (lib : Library) {providerKey : String} {payload payload' : JsonObject}
    (h : ∀ section_ ∈ sections providerKey, payload'.lookup section_ = payload.lookup section_) :
    extract lib providerKey payload' = extract lib providerKey payload := by
  have hmission : payload'.lookup "SyndicateMissions" = payload.lookup "SyndicateMissions" →
      cetusMission payload' = cetusMission payload := by
    intro hsame
    unfold cetusMission
    rw [hsame]
  unfold extract
  by_cases hcetus : providerKey = "warframe.cetus_night"
  · have hread : sections providerKey = ["Time", "SyndicateMissions"] := if_pos (Or.inl hcetus)
    rw [hread] at h
    rw [if_pos hcetus, if_pos hcetus]
    unfold cetusNight
    rw [h "Time" (by simp), hmission (h "SyndicateMissions" (by simp))]
  · rw [if_neg hcetus, if_neg hcetus]
    by_cases hkonzu : providerKey = "warframe.konzu_rotation"
    · have hread : sections providerKey = ["Time", "SyndicateMissions"] := if_pos (Or.inr hkonzu)
      rw [hread] at h
      rw [if_pos hkonzu, if_pos hkonzu]
      unfold konzuRotation
      rw [h "Time" (by simp), hmission (h "SyndicateMissions" (by simp))]
    · rw [if_neg hkonzu, if_neg hkonzu]
      by_cases hghoul : providerKey = "warframe.ghoul_event"
      · have hread : sections providerKey = ["Time", "Goals"] := by
          unfold sections
          rw [if_neg (not_or.2 ⟨hcetus, hkonzu⟩), if_pos hghoul]
        rw [hread] at h
        rw [if_pos hghoul, if_pos hghoul]
        unfold ghoulEvent
        rw [h "Time" (by simp), h "Goals" (by simp)]
      · rw [if_neg hghoul, if_neg hghoul]

end EventServer.Providers.WorldState
