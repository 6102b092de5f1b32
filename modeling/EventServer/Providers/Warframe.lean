import EventServer.Core.Provider
import EventServer.Lib.Except
import EventServer.Python.IsoFormat

/-! # The Warframe providers

`providers/warframe`: the night on Cetus, the rotation of the Konzu bounties and the Ghoul event.
The first and the last publish when their flag turns from not `True` to `True`, the second when the
identity changes; none publishes for its first observation. What they look at in the previous
observation is its identity and its state (`dependsOnState`). -/

namespace EventServer.Providers.Warframe

open EventServer.Core EventServer.Lib EventServer.Python

/-! ### Raw data -/

/-- A value of the raw data: JSON, or a `datetime` with its offset. -/
inductive RawValue where
  | json (value : Json)
  | datetime (wall : Time) (utcoffset : Option ℤ)

abbrev Raw := List (String × RawValue)

/-- Whether a value counts as true. -/
def RawValue.truthy : RawValue → Bool
  | .datetime _ _ => true
  | .json .null => false
  | .json (.bool b) => b
  | .json (.int n) => n ≠ 0
  | .json (.float x) => x ≠ .finite 0 && x ≠ .negZero
  | .json (.str s) => s ≠ ""
  | .json (.arr items) => !items.isEmpty
  | .json (.obj fields) => !fields.isEmpty

/-- The parsers and digests of the standard library. -/
structure Stdlib where
  /-- `datetime.fromisoformat(s)`: the wall clock and the offset, or `none` if it raises. -/
  fromisoformat : String → Option (Time × Option ℤ)
  /-- `str(uuid5(NAMESPACE_URL, name))`. -/
  uuid5 : String → String

/-- `parsed.astimezone(UTC)` of a time that must have an offset. -/
def aware (wall : Time) : Option ℤ → Except ProviderError Time
  | none => .error (.valueError "timestamp must include a timezone")
  | some offset => if InRange (wall - offset) then .ok (wall - offset) else .error .overflowError

/-- `value.replace("Z", "+00:00")`. -/
def replaceZulu (s : String) : String :=
  String.ofList (s.toList.flatMap fun c => if c = 'Z' then "+00:00".toList else [c])

def parseTime (lib : Stdlib) (fallback : Option Time) : Option RawValue → Except ProviderError Time
  | none | some (.json .null) =>
    match fallback with
    | some t => .ok t
    | none => .error (.valueError "timestamp is required")
  | some (.datetime wall utcoffset) => aware wall utcoffset
  | some (.json (.str s)) =>
    match lib.fromisoformat (replaceZulu s) with
    | some (wall, utcoffset) => aware wall utcoffset
    | none => .error (.valueError "Invalid isoformat string")
  | some (.json _) => .error .attributeError

/-- `observed_at`, `effective_at` and `expires_at` of the raw data. -/
def times (lib : Stdlib) (now : Time) (raw : Raw) :
    Except ProviderError (Time × Time × Option Time) := do
  let observedAt ← parseTime lib (some now) (raw.lookup "observed_at")
  let effectiveAt ← parseTime lib (some observedAt) (raw.lookup "effective_at")
  match raw.lookup "expires_at" with
  | none => .ok (observedAt, effectiveAt, none)
  | some value =>
    if value.truthy then do
      let expiresAt ← parseTime lib none (some value)
      .ok (observedAt, effectiveAt, some expiresAt)
    else .ok (observedAt, effectiveAt, none)

/-- `require(raw, key, str)`. -/
def requireStr (raw : Raw) (key : String) : Except ProviderError String :=
  match raw.lookup key with
  | some (.json (.str s)) => .ok s
  | _ => .error (.valueError (key ++ " must be str"))

/-- `require(raw, key, bool)`. -/
def requireBool (raw : Raw) (key : String) : Except ProviderError Bool :=
  match raw.lookup key with
  | some (.json (.bool b)) => .ok b
  | _ => .error (.valueError (key ++ " must be bool"))

def observation (providerKey identity : String) (observedAt effectiveAt : Time)
    (expiresAt : Option Time) (state : JsonObject) : Except ProviderError Observation :=
  Observation.of providerKey 1 identity observedAt effectiveAt expiresAt state
    [("source", .str "warframe-worldstate-adapter")]

/-! ### Events and messages -/

def eventId (lib : Stdlib) (eventKey dedupeKey : String) : String :=
  lib.uuid5 ("autoqq:" ++ eventKey ++ ":" ++ dedupeKey)

/-- `build_event`, with the lengths the model of an event checks. -/
def buildEvent (lib : Stdlib) (eventKey providerKey dedupeKey : String) (occurredAt : Time)
    (subject data : JsonObject) : Except ProviderError DomainEvent :=
  let id := eventId lib eventKey dedupeKey
  if id.length < 1 ∨ 36 < id.length ∨ dedupeKey.length < 1 ∨ 255 < dedupeKey.length then
    .error .validationError
  else
    .ok
      { eventId := id
        eventKey := eventKey
        schemaVersion := 1
        dedupeKey := dedupeKey
        occurredAt := occurredAt
        subject := subject
        data := data
        metadata := [("provider_key", .str providerKey)] }

/-- `expires_at.isoformat() if expires_at else None`. -/
def expiry (o : Observation) : Json :=
  match o.expiresAt with
  | some t => .str (isoformat t)
  | none => .null

/-- `locale.startswith("zh")`. -/
def isChinese (locale : String) : Bool := "zh".toList.isPrefixOf locale.toList

/-- `DeliveryMessage(...)`. -/
def message (title text templateKey : String) : Except ProviderError DeliveryMessage :=
  if title.length < 1 ∨ 200 < title.length ∨ text.length < 1 ∨ 4000 < text.length then
    .error .validationError
  else .ok
    { title := title, text := text, data := [], templateKey := templateKey, templateVersion := 1 }

def title (locale : String) : String := if isChinese locale then "事件提醒" else "Event alert"

/-! ### The two providers with a flag -/

/-- `normalize` of a provider whose state is the flag `flag`. -/
def normalizeFlag (lib : Stdlib) (providerKey flag : String) (now : Time) (raw : Raw) :
    Except ProviderError Observation := do
  let (observedAt, effectiveAt, expiresAt) ← times lib now raw
  let identity ← requireStr raw "identity"
  let value ← requireBool raw flag
  observation providerKey identity observedAt effectiveAt expiresAt [(flag, .bool value)]

/-- `value is True`. -/
def isTrue : Option Json → Bool
  | some (.bool b) => b
  | _ => false

/-- `evaluate` of such a provider: an event when the flag turns to `True`. -/
def evaluateFlag (lib : Stdlib) (eventKey providerKey flag : String) (subject : JsonObject)
    (previous : Option Observation) (current : Observation) :
    Except ProviderError (List DomainEvent) :=
  match previous with
  | none => .ok []
  | some previous =>
    if isTrue (previous.state.lookup flag) then .ok []
    else
      match current.state.lookup flag with
      | none => .error (.keyError flag)
      | some value =>
        if isTrue (some value) then
          (buildEvent lib eventKey providerKey current.identity current.effectiveAt subject
            [("expires_at", expiry current)]).map fun event => [event]
        else .ok []

def cetusNightProvider (lib : Stdlib) : Provider Raw where
  metadata := { providerKey := "warframe.cetus_night", eventKeys := ["warframe.cetus.night"] }
  normalize := normalizeFlag lib "warframe.cetus_night" "is_night"
  evaluate := evaluateFlag lib "warframe.cetus.night" "warframe.cetus_night" "is_night"
    [("type", .str "location"), ("id", .str "cetus")]
  render _ locale := message (title locale)
    (if isChinese locale then "希图斯已进入夜晚" else "Night has begun in Cetus")
    "warframe.cetus.night.default"

def ghoulEventProvider (lib : Stdlib) : Provider Raw where
  metadata := { providerKey := "warframe.ghoul_event", eventKeys := ["warframe.ghoul.started"] }
  normalize := normalizeFlag lib "warframe.ghoul_event" "active"
  evaluate := evaluateFlag lib "warframe.ghoul.started" "warframe.ghoul_event" "active"
    [("type", .str "world_event"), ("id", .str "ghouls")]
  render _ locale := message (title locale)
    (if isChinese locale then "尸鬼活动已出现" else "The Ghoul event has started")
    "warframe.ghoul.started.default"

/-! ### The rotation of the bounties -/

/-- `raw.get("confirmed_summary")`; a `datetime` has no JSON text. -/
def confirmedSummary (raw : Raw) : Except ProviderError Json :=
  match raw.lookup "confirmed_summary" with
  | none => .ok .null
  | some (.json value) => .ok value
  | some (.datetime _ _) => .error .typeError

def normalizeRotation (lib : Stdlib) (now : Time)
    (raw : Raw) : Except ProviderError Observation := do
  let (observedAt, effectiveAt, expiresAt) ← times lib now raw
  let rotationId ← requireStr raw "rotation_id"
  let summary ← confirmedSummary raw
  observation "warframe.konzu_rotation" rotationId observedAt effectiveAt expiresAt
    [("rotation_id", .str rotationId), ("confirmed_summary", summary)]

def evaluateRotation (lib : Stdlib) (previous : Option Observation) (current : Observation) :
    Except ProviderError (List DomainEvent) :=
  match previous with
  | none => .ok []
  | some previous =>
    if previous.identity = current.identity then .ok []
    else
      (buildEvent lib "warframe.konzu.rotation" "warframe.konzu_rotation" current.identity
        current.effectiveAt [("type", .str "bounty_board"), ("id", .str "konzu")]
        [("rotation_id", .str current.identity),
          ("confirmed_summary", (current.state.lookup "confirmed_summary").getD .null),
          ("expires_at", expiry current)]).map fun event => [event]

variable [Runtime]

/-- The text of a rotation. -/
def rotationText (event : DomainEvent) (locale : String) : String :=
  let summary := (event.data.lookup "confirmed_summary").getD .null
  if isChinese locale then
    "Konzu 赏金已轮换" ++
      if (RawValue.json summary).truthy then "\n" ++ summary.toStr
      else "\n当前任务详情暂不可可靠解析。"
  else "Konzu bounties have rotated"

def konzuRotationProvider (lib : Stdlib) : Provider Raw where
  metadata := { providerKey := "warframe.konzu_rotation", eventKeys := ["warframe.konzu.rotation"] }
  normalize := normalizeRotation lib
  evaluate := evaluateRotation lib
  render event locale :=
    message (title locale) (rotationText event locale) "warframe.konzu.rotation.default"

/-! ### The registry -/

/-- The three providers, in the order of registration. -/
def providers (lib : Stdlib) : List (Provider Raw) :=
  [cetusNightProvider lib, konzuRotationProvider lib, ghoulEventProvider lib]

def buildRegistry (lib : Stdlib) (enabled : Option (List String)) :
    Except ProviderError (ProviderRegistry Raw) :=
  ((providers lib).filter fun provider =>
    match enabled with
    | none => true
    | some allowed => provider.metadata.providerKey ∈ allowed).foldlM
      (fun registry provider => registry.register provider) {}

/-! ### What they look at -/

omit [Runtime] in
theorem isTrue_canon (value : Option Json) : isTrue (value.map Json.canon) = isTrue value := by
  cases value with
  | none => rfl
  | some value => cases value <;> rfl

omit [Runtime] in
theorem isTrue_of_same {p p' : Observation} (h : Same p p') (flag : String) :
    isTrue (p.state.lookup flag) = isTrue (p'.state.lookup flag) := by
  rw [← isTrue_canon, Json.lookup_of_canon h.2 flag, isTrue_canon]

/-- **Of the previous observation the providers look at the identity and the state.** -/
theorem dependsOnState (lib : Stdlib) {provider : Provider Raw} (h : provider ∈ providers lib) :
    DependsOnState provider := by
  have hflag : ∀ eventKey providerKey flag subject p p' current, Same p p' →
      evaluateFlag lib eventKey providerKey flag subject (some p) current =
        evaluateFlag lib eventKey providerKey flag subject (some p') current := by
    intro eventKey providerKey flag subject p p' current hs
    simp only [evaluateFlag, isTrue_of_same hs flag]
  intro p p' current hs
  simp only [providers, List.mem_cons, List.not_mem_nil, or_false] at h
  rcases h with rfl | rfl | rfl
  · exact hflag _ _ _ _ p p' current hs
  · show evaluateRotation lib (some p) current = evaluateRotation lib (some p') current
    simp only [evaluateRotation, hs.1]
  · exact hflag _ _ _ _ p p' current hs

/-! ### What they find -/

omit [Runtime] in
theorem buildEvent_ok {lib : Stdlib} {eventKey providerKey dedupeKey : String} {occurredAt : Time}
    {subject data : JsonObject} {event : DomainEvent}
    (h : buildEvent lib eventKey providerKey dedupeKey occurredAt subject data = .ok event) :
    event.eventKey = eventKey ∧ event.eventId = eventId lib eventKey dedupeKey := by
  unfold buildEvent at h
  simp only at h
  split_ifs at h
  cases h
  exact ⟨rfl, rfl⟩

omit [Runtime] in
/-- The events are of the key `eventKey`, with the identity of the observation in their
identifier. -/
def OfIdentity (lib : Stdlib) (eventKey : String) (current : Observation)
    (events : List DomainEvent) :
    Prop :=
  ∀ event ∈ events, event.eventKey = eventKey ∧
    event.eventId = eventId lib eventKey current.identity

omit [Runtime] in
theorem ofIdentity_nil {lib : Stdlib} {eventKey : String} {current : Observation} :
    OfIdentity lib eventKey current [] := fun _ hmem => absurd hmem List.not_mem_nil

omit [Runtime] in
theorem ofIdentity_map {lib : Stdlib} {eventKey providerKey : String} {current : Observation}
    {subject data : JsonObject} {events : List DomainEvent}
    (h : (buildEvent lib eventKey providerKey current.identity current.effectiveAt subject data).map
      (fun event => [event]) = .ok events) : OfIdentity lib eventKey current events := by
  obtain ⟨event, hevent, rfl⟩ := map_eq_ok.mp h
  intro event' hmem
  rw [List.mem_singleton.mp hmem]
  exact buildEvent_ok hevent

omit [Runtime] in
theorem evaluateFlag_ok {lib : Stdlib} {eventKey providerKey flag : String} {subject : JsonObject}
    {previous : Option Observation} {current : Observation} {events : List DomainEvent}
    (h : evaluateFlag lib eventKey providerKey flag subject previous current = .ok events) :
    OfIdentity lib eventKey current events := by
  unfold evaluateFlag at h
  cases previous with
  | none =>
    cases h
    exact ofIdentity_nil
  | some previous =>
    simp only at h
    split_ifs at h
    · cases h
      exact ofIdentity_nil
    · cases hvalue : current.state.lookup flag with
      | none => simp [hvalue] at h
      | some value =>
        simp only [hvalue] at h
        split_ifs at h
        · exact ofIdentity_map h
        · cases h
          exact ofIdentity_nil

omit [Runtime] in
theorem evaluateRotation_ok {lib : Stdlib} {previous : Option Observation} {current : Observation}
    {events : List DomainEvent} (h : evaluateRotation lib previous current = .ok events) :
    OfIdentity lib "warframe.konzu.rotation" current events := by
  unfold evaluateRotation at h
  cases previous with
  | none =>
    cases h
    exact ofIdentity_nil
  | some previous =>
    simp only at h
    split_ifs at h
    · cases h
      exact ofIdentity_nil
    · exact ofIdentity_map h

/-- **A provider finds events of its own keys only**, with identifiers made of the identity. -/
theorem evaluate_ok {lib : Stdlib} {provider : Provider Raw} (h : provider ∈ providers lib)
    {previous : Option Observation} {current : Observation} {events : List DomainEvent}
    (hok : provider.evaluate previous current = .ok events) :
    ∃ eventKey ∈ provider.metadata.eventKeys, OfIdentity lib eventKey current events := by
  simp only [providers, List.mem_cons, List.not_mem_nil, or_false] at h
  rcases h with rfl | rfl | rfl
  · exact ⟨_, List.mem_singleton_self _, evaluateFlag_ok hok⟩
  · exact ⟨_, List.mem_singleton_self _, evaluateRotation_ok hok⟩
  · exact ⟨_, List.mem_singleton_self _, evaluateFlag_ok hok⟩

/-- The event keys of the providers with the key `providerKey`. -/
def eventKeysOf (lib : Stdlib) (providerKey : String) : List String :=
  ((providers lib).filter fun provider => provider.metadata.providerKey = providerKey).flatMap
    fun provider => provider.metadata.eventKeys

theorem mem_eventKeysOf {lib : Stdlib} {providerKey eventKey : String} :
    eventKey ∈ eventKeysOf lib providerKey ↔ ∃ provider ∈ providers lib,
      provider.metadata.providerKey = providerKey ∧ eventKey ∈ provider.metadata.eventKeys := by
  unfold eventKeysOf
  simp only [List.mem_flatMap, List.mem_filter, decide_eq_true_eq, and_assoc]

theorem eventKeysOf_disjoint {lib : Stdlib} {providerKey providerKey' eventKey : String}
    (h : eventKey ∈ eventKeysOf lib providerKey) (h' : eventKey ∈ eventKeysOf lib providerKey') :
    providerKey = providerKey' := by
  have hone : ∀ provider ∈ providers lib, ∀ provider' ∈ providers lib,
      eventKey ∈ provider.metadata.eventKeys → eventKey ∈ provider'.metadata.eventKeys →
        provider.metadata.providerKey = provider'.metadata.providerKey := by
    intro provider hmem provider' hmem' hkey hkey'
    simp only [providers, List.mem_cons, List.not_mem_nil, or_false] at hmem hmem'
    rcases hmem with rfl | rfl | rfl <;> rcases hmem' with rfl | rfl | rfl <;>
      simp_all [cetusNightProvider, konzuRotationProvider, ghoulEventProvider]
  obtain ⟨provider, hmem, rfl, hkey⟩ := mem_eventKeysOf.mp h
  obtain ⟨provider', hmem', rfl, hkey'⟩ := mem_eventKeysOf.mp h'
  exact hone provider hmem provider' hmem' hkey hkey'

theorem buildRegistry_all (lib : Stdlib) : buildRegistry lib none = .ok
    { providers := (providers lib).map fun provider => (provider.metadata.providerKey, provider)
      events := (providers lib).flatMap fun provider =>
        provider.metadata.eventKeys.map fun eventKey => (eventKey, provider) } := rfl

theorem get_buildRegistry {lib : Stdlib} {registry : ProviderRegistry Raw}
    (h : buildRegistry lib none = .ok registry) {providerKey : String} {provider : Provider Raw}
    (hget : registry.get providerKey = .ok provider) :
    provider ∈ providers lib ∧ provider.metadata.providerKey = providerKey := by
  rw [buildRegistry_all] at h
  cases h
  unfold ProviderRegistry.get at hget
  cases hlookup : ((providers lib).map fun provider =>
      (provider.metadata.providerKey, provider)).lookup providerKey with
  | none => simp [hlookup] at hget
  | some found =>
    simp only [hlookup] at hget
    cases hget
    obtain ⟨pre, post, hsplit, -⟩ := List.lookup_eq_some_iff.mp hlookup
    have hmem : (providerKey, provider) ∈ (providers lib).map fun provider =>
        (provider.metadata.providerKey, provider) := by
      rw [hsplit]
      simp
    obtain ⟨provider', hmem', heq⟩ := List.mem_map.mp hmem
    obtain ⟨hkey, hprovider⟩ := Prod.mk.inj heq
    subst hprovider
    exact ⟨hmem', hkey⟩

end EventServer.Providers.Warframe
