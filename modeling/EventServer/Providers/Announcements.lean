import EventServer.Providers.Warframe

/-! # What the providers announce

A provider finds an event when an observation differs from the one before it in the way it watches
for: the night has come, the bounties have rotated, the Ghouls have come (`Announces`).
`evaluate_announces` says so of the events that `evaluate` returns; the first observation is a
baseline. -/

namespace EventServer.Providers.Warframe

open EventServer.Core EventServer.Lib EventServer.Python

/-- What is announced under the event key at an observation, given the one before it. -/
inductive Announces : String → Observation → Observation → Prop
  | night {p o : Observation} (hkey : o.providerKey = "warframe.cetus_night")
    (hday : isTrue (p.state.lookup "is_night") = false)
    (hnight : isTrue (o.state.lookup "is_night") = true) : Announces "warframe.cetus.night" p o
  | rotation {p o : Observation} (hkey : o.providerKey = "warframe.konzu_rotation")
    (hrotated : p.identity ≠ o.identity) : Announces "warframe.konzu.rotation" p o
  | ghouls {p o : Observation} (hkey : o.providerKey = "warframe.ghoul_event")
    (hgone : isTrue (p.state.lookup "active") = false)
    (hcome : isTrue (o.state.lookup "active") = true) : Announces "warframe.ghoul.started" p o

theorem Announces.not_same {eventKey : String} {p o : Observation} (h : Announces eventKey p o) :
    ¬ Same p o := by
  intro hs
  cases h with
  | night _ hday hnight =>
    rw [isTrue_of_same hs, hnight] at hday
    cases hday
  | rotation _ hrotated => exact hrotated hs.1
  | ghouls _ hgone hcome =>
    rw [isTrue_of_same hs, hcome] at hgone
    cases hgone

/-- The event says what was observed. -/
structure Reports (o : Observation) (event : DomainEvent) : Prop where
  dedupeKey : event.dedupeKey = o.identity
  occurredAt : event.occurredAt = o.effectiveAt

theorem buildEvent_reports {lib : Stdlib} {eventKey providerKey : String} {o : Observation}
    {subject data : JsonObject} {event : DomainEvent}
    (h : buildEvent lib eventKey providerKey o.identity o.effectiveAt subject data = .ok event) :
    Reports o event := by
  unfold buildEvent at h
  simp only at h
  split_ifs at h
  cases h
  exact ⟨rfl, rfl⟩

/-- The events found at `o` after `p`: those under the keys for which `announced` holds. -/
structure Finds (eventKey : String) (announced : Prop) (o : Observation)
    (events : List DomainEvent) :
    Prop where
  sound : ∀ event ∈ events, event.eventKey = eventKey ∧ announced ∧ Reports o event
  complete : announced → ∃ event ∈ events, event.eventKey = eventKey ∧ Reports o event

theorem finds_nil {eventKey : String} {announced : Prop} {o : Observation} (h : ¬ announced) :
    Finds eventKey announced o [] :=
  ⟨fun _ hmem => absurd hmem List.not_mem_nil, fun hann => absurd hann h⟩

theorem finds_map {lib : Stdlib} {eventKey providerKey : String} {announced : Prop}
    {o : Observation} {subject data : JsonObject} {events : List DomainEvent} (hann : announced)
    (h : (buildEvent lib eventKey providerKey o.identity o.effectiveAt subject data).map
      (fun event => [event]) = .ok events) : Finds eventKey announced o events := by
  obtain ⟨event, hevent, rfl⟩ := map_eq_ok.mp h
  have hkey := (buildEvent_ok hevent).1
  have hreports := buildEvent_reports hevent
  refine ⟨fun event' hmem => ?_, fun _ => ⟨event, List.mem_singleton_self _, hkey, hreports⟩⟩
  rw [List.mem_singleton.mp hmem]
  exact ⟨hkey, hann, hreports⟩

theorem evaluateFlag_finds {lib : Stdlib} {eventKey providerKey flag : String}
    {subject : JsonObject} {p o : Observation} {events : List DomainEvent}
    (h : evaluateFlag lib eventKey providerKey flag subject (some p) o = .ok events) :
    Finds eventKey (isTrue (p.state.lookup flag) = false ∧ isTrue (o.state.lookup flag) = true) o
      events := by
  unfold evaluateFlag at h
  simp only at h
  split_ifs at h with hup
  · cases h
    exact finds_nil fun hann => by rw [hann.1] at hup; cases hup
  · have hdown : isTrue (p.state.lookup flag) = false := by simpa using hup
    cases hvalue : o.state.lookup flag with
    | none => simp [hvalue] at h
    | some value =>
      simp only [hvalue] at h
      split_ifs at h with hraised
      · exact finds_map ⟨hdown, hraised⟩ h
      · cases h
        exact finds_nil fun hann => hraised hann.2

theorem evaluateRotation_finds {lib : Stdlib} {p o : Observation} {events : List DomainEvent}
    (h : evaluateRotation lib (some p) o = .ok events) :
    Finds "warframe.konzu.rotation" (p.identity ≠ o.identity) o events := by
  unfold evaluateRotation at h
  simp only at h
  split_ifs at h with hsame
  · cases h
    exact finds_nil fun hann => hann hsame
  · exact finds_map hsame h

variable [Runtime]

/-- The events of the providers. -/
def eventKeys (lib : Stdlib) : List String := (providers lib).flatMap fun p => p.metadata.eventKeys

theorem evaluate_none {lib : Stdlib} {provider : Provider Raw} (h : provider ∈ providers lib)
    {o : Observation} {events : List DomainEvent} (hok : provider.evaluate none o = .ok events) :
    events = [] := by
  simp only [providers, List.mem_cons, List.not_mem_nil, or_false] at h
  rcases h with rfl | rfl | rfl <;> exact (Except.ok.inj hok).symm

omit [Runtime] in
theorem finds_announces {eventKey : String} {announced : Prop} {p o : Observation}
    {events : List DomainEvent} (h : Finds eventKey announced o events)
    (hann : announced → Announces eventKey p o)
    (honly : ∀ key, Announces key p o → key = eventKey ∧ announced) :
    (∀ event ∈ events, Announces event.eventKey p o ∧ Reports o event) ∧
      ∀ key, Announces key p o → ∃ event ∈ events, event.eventKey = key ∧ Reports o event := by
  constructor
  · intro event hmem
    obtain ⟨hkey, hannounced, hreports⟩ := h.sound event hmem
    rw [hkey]
    exact ⟨hann hannounced, hreports⟩
  · intro key hkey
    obtain ⟨rfl, hannounced⟩ := honly key hkey
    exact h.complete hannounced

/-- **A provider finds what is announced at an observation of its own, and nothing else.** -/
theorem evaluate_announces {lib : Stdlib} {provider : Provider Raw} (h : provider ∈ providers lib)
    {p o : Observation} (hkey : o.providerKey = provider.metadata.providerKey)
    {events : List DomainEvent} (hok : provider.evaluate (some p) o = .ok events) :
    (∀ event ∈ events, Announces event.eventKey p o ∧ Reports o event) ∧
      ∀ key, Announces key p o → ∃ event ∈ events, event.eventKey = key ∧ Reports o event := by
  simp only [providers, List.mem_cons, List.not_mem_nil, or_false] at h
  rcases h with rfl | rfl | rfl
  · have hown : o.providerKey = "warframe.cetus_night" := hkey
    refine finds_announces (evaluateFlag_finds hok)
      (fun h => .night hown h.1 h.2) fun key hann => ?_
    cases hann with
    | night _ hday hnight => exact ⟨rfl, hday, hnight⟩
    | rotation hother => simp [hown] at hother
    | ghouls hother => simp [hown] at hother
  · have hown : o.providerKey = "warframe.konzu_rotation" := hkey
    refine finds_announces (evaluateRotation_finds hok)
      (fun h => .rotation hown h) fun key hann => ?_
    cases hann with
    | night hother => simp [hown] at hother
    | rotation _ hrotated => exact ⟨rfl, hrotated⟩
    | ghouls hother => simp [hown] at hother
  · have hown : o.providerKey = "warframe.ghoul_event" := hkey
    refine finds_announces (evaluateFlag_finds hok)
      (fun h => .ghouls hown h.1 h.2) fun key hann => ?_
    cases hann with
    | night hother => simp [hown] at hother
    | rotation hother => simp [hown] at hother
    | ghouls _ hgone hcome => exact ⟨rfl, hgone, hcome⟩

/-! ### What is observed -/

omit [Runtime] in
theorem observation_eq_ok {providerKey identity : String} {observedAt effectiveAt : Time}
    {expiresAt : Option Time} {state : JsonObject} {o : Observation}
    (h : observation providerKey identity observedAt effectiveAt expiresAt state = .ok o) :
    o.providerKey = providerKey ∧ o.identity = identity ∧ o.observedAt = observedAt ∧
      o.effectiveAt = effectiveAt ∧ o.expiresAt = expiresAt ∧ o.state = state := by
  unfold observation Observation.of at h
  split_ifs at h
  cases h
  exact ⟨rfl, rfl, rfl, rfl, rfl, rfl⟩

omit [Runtime] in
theorem normalizeFlag_eq_ok {lib : Stdlib} {providerKey flag : String} {now : Time} {raw : Raw}
    {o : Observation} (h : normalizeFlag lib providerKey flag now raw = .ok o) :
    ∃ value, times lib now raw = .ok (o.observedAt, o.effectiveAt, o.expiresAt) ∧
      requireStr raw "identity" = .ok o.identity ∧ requireBool raw flag = .ok value ∧
      o.providerKey = providerKey ∧ o.state = [(flag, .bool value)] := by
  unfold normalizeFlag at h
  simp only [bind_eq_ok] at h
  obtain ⟨⟨observedAt, effectiveAt, expiresAt⟩, htimes, identity, hidentity, value,
    hvalue, hobs⟩ := h
  obtain ⟨hkey, rfl, rfl, rfl, rfl, hstate⟩ := observation_eq_ok hobs
  exact ⟨value, htimes, hidentity, hvalue, hkey, hstate⟩

omit [Runtime] in
theorem normalizeRotation_eq_ok {lib : Stdlib} {now : Time} {raw : Raw} {o : Observation}
    (h : normalizeRotation lib now raw = .ok o) : o.providerKey = "warframe.konzu_rotation" := by
  unfold normalizeRotation at h
  simp only [bind_eq_ok] at h
  obtain ⟨_, -, _, -, _, -, hobs⟩ := h
  exact (observation_eq_ok hobs).1

/-- **The observations of a provider are its own.** -/
theorem normalize_providerKey {lib : Stdlib} {provider : Provider Raw}
    (h : provider ∈ providers lib) {now : Time} {raw : Raw} {o : Observation}
    (hok : provider.normalize now raw = .ok o) :
    o.providerKey = provider.metadata.providerKey := by
  simp only [providers, List.mem_cons, List.not_mem_nil, or_false] at h
  rcases h with rfl | rfl | rfl
  · obtain ⟨-, -, -, -, hkey, -⟩ := normalizeFlag_eq_ok hok
    exact hkey
  · exact normalizeRotation_eq_ok hok
  · obtain ⟨-, -, -, -, hkey, -⟩ := normalizeFlag_eq_ok hok
    exact hkey

end EventServer.Providers.Warframe
