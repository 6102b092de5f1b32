import EventServer.Scheduler.Polling

/-! # The nights on Cetus are announced once

From the payloads of the world state to the stored events, over any run of the poll runners. A night
is announced when a reading by day is followed by one in the night, under the end of its bounties
and with its beginning as the time of the event (`nights_announced`). Polls that fail do not count,
so a night is announced once if it is polled by day and again in the night; a night that follows a
day on which no poll succeeded is not announced. -/

namespace EventServer.Providers.WorldState

open EventServer.Core EventServer.Lib EventServer.Providers.Warframe EventServer.Python

/-! ### Readings -/

/-- The end of the bounties. -/
def CetusNight.bountyEnd (c : CetusNight) : Time :=
  if c.isNight then c.expiresAt else c.expiresAt + seconds cetusNightSeconds

/-- The identity of the night before the bounties end. -/
def nightOf (bountyEnd : Time) : String :=
  "cetus:" ++ toString (intTimestamp bountyEnd) ++ ":" ++ "night"

/-- Facts of a reading. -/
structure IsReading (c : CetusNight) : Prop where
  later : c.observedAt < c.bountyEnd
  isNight_iff : c.isNight = true ↔ c.bountyEnd - c.observedAt ≤ seconds cetusNightSeconds
  minute : ∃ n : ℤ, c.bountyEnd = minutes 1 * n
  identity : c.isNight = true → c.identity = nightOf c.bountyEnd
  effectiveAt : c.isNight = true → c.effectiveAt = c.bountyEnd - seconds cetusNightSeconds

theorem wholeMinute_mul (t : Time) : ∃ n : ℤ, wholeMinute t = minutes 1 * n := by
  refine ⟨t / minutes 1, ?_⟩
  have hsplit : minutes 1 * (t / minutes 1) + t % minutes 1 = t :=
    Int.mul_ediv_add_emod t (minutes 1)
  exact sub_eq_of_eq_add hsplit.symm

theorem phaseOf_bountyEnd (t e : Time) : (phaseOf t e).bountyEnd = e := by
  unfold CetusNight.bountyEnd phaseOf
  by_cases h : e - t ≤ seconds cetusNightSeconds
  · simp [h]
  · simp [h]

theorem isReading_phaseOf {t e : Time} (hlater : t < e) (hminute : ∃ n : ℤ, e = minutes 1 * n) :
    IsReading (phaseOf t e) := by
  have hend := phaseOf_bountyEnd t e
  constructor
  · rw [hend]
    exact hlater
  · rw [hend]
    exact decide_eq_true_iff
  · rw [hend]
    exact hminute
  · intro h
    have hnight : decide (e - t ≤ seconds cetusNightSeconds) = true := h
    rw [hend]
    simp only [phaseOf, hnight, if_true]
    rfl
  · intro h
    have hnight : decide (e - t ≤ seconds cetusNightSeconds) = true := h
    rw [hend]
    simp only [phaseOf, hnight, if_true]

theorem cetusNight_isReading {lib : Library} {payload : JsonObject} {c : CetusNight}
    (h : cetusNight lib payload = .ok c) : IsReading c := by
  unfold cetusNight at h
  simp only [bind_eq_ok] at h
  obtain ⟨v, -, observedAt, -, mission, -, bountyEnd, -, h⟩ := h
  obtain ⟨hlater, -, rfl⟩ := cetusPhase_ok_iff.mp h
  exact isReading_phaseOf hlater (wholeMinute_mul bountyEnd)

theorem nightOf_inj {e e' : Time} (he : ∃ n : ℤ, e = minutes 1 * n)
    (he' : ∃ n : ℤ, e' = minutes 1 * n) (h : nightOf e = nightOf e') : e = e' := by
  have htoString : toString (intTimestamp e) = toString (intTimestamp e') := by
    unfold nightOf at h
    simpa using h
  have hseconds : intTimestamp e = intTimestamp e' :=
    toString_int_inj (congrArg String.toList htoString)
  obtain ⟨n, rfl⟩ := he
  obtain ⟨n', rfl⟩ := he'
  have hwhole : ∀ n : ℤ, intTimestamp (minutes 1 * n) = 60 * n := by
    intro n
    have hsplit : minutes 1 * n = seconds 1 * (60 * n) := by
      show (1 * 60 * 1000000 : ℤ) * n = (1 * 1000000 : ℤ) * (60 * n)
      omega
    unfold intTimestamp
    rw [hsplit]
    exact Int.mul_tdiv_cancel_left _ (by decide)
  rw [hwhole, hwhole] at hseconds
  have hn : n = n' := by omega
  rw [hn]

end EventServer.Providers.WorldState

namespace EventServer.Scheduler.Nights

open EventServer.Core EventServer.Core.Processing EventServer.Db EventServer.Lib
open EventServer.Core.Observations (process_ok)
open EventServer.Providers EventServer.Providers.Warframe EventServer.Providers.WorldState
open EventServer.Python EventServer.Scheduler.Leases EventServer.Scheduler.PollRunner
open EventServer.Scheduler.Polling

/-! ### What is observed of a reading -/

/-- The observation of a reading. -/
structure Shows (o : Observation) (c : CetusNight) : Prop where
  providerKey : o.providerKey = "warframe.cetus_night"
  identity : o.identity = c.identity
  effectiveAt : o.effectiveAt = c.effectiveAt
  isNight : isTrue (o.state.lookup "is_night") = c.isNight

theorem lookup_ghoulCandidates {lib : Library} {observedAt : Time}
    {goals : List JsonObject} {raw : Raw}
    (h : ghoulCandidates lib observedAt goals = .ok (some raw)) : raw.lookup "is_night" = none := by
  induction goals with
  | nil => cases h
  | cons goal goals ih =>
    unfold ghoulCandidates at h
    simp only [bind_eq_ok] at h
    obtain ⟨activation, -, expiry, -, h⟩ := h
    split_ifs at h
    · rw [← Option.some.inj (Except.ok.inj h)]
      rfl
    · exact ih h

theorem lookup_ghoulEvent {lib : Library} {payload : JsonObject} {raw : Raw}
    (h : ghoulEvent lib payload = .ok raw) : raw.lookup "is_night" = none := by
  unfold ghoulEvent at h
  simp only [bind_eq_ok] at h
  obtain ⟨_, -, observedAt, -, goals, -, found, hfound, h⟩ := h
  cases found with
  | some raw' =>
    cases h
    exact lookup_ghoulCandidates hfound
  | none =>
    cases h
    rfl

/-- The provider of the nights makes an observation of its own raw data only. -/
theorem extracted_cetus {std : Stdlib} {lib : Library} {providerKey : String} {payload : JsonObject}
    {raw : Raw} {now : Time} {o : Observation} (hraw : extract lib providerKey payload = .ok raw)
    (ho : (cetusNightProvider std).normalize now raw = .ok o) :
    ∃ c, cetusNight lib payload = .ok c ∧ raw = c.raw := by
  obtain ⟨value, -, hidentity, hvalue, -⟩ := normalizeFlag_eq_ok ho
  unfold extract at hraw
  split_ifs at hraw
  · obtain ⟨c, hc, rfl⟩ := map_eq_ok.mp hraw
    exact ⟨c, hc, rfl⟩
  · unfold konzuRotation at hraw
    simp only [bind_eq_ok] at hraw
    obtain ⟨_, -, _, -, _, -, _, -, _, -, _, -, hraw⟩ := hraw
    rw [← Except.ok.inj hraw] at hidentity
    cases hidentity
  · exfalso
    have hflag : raw.lookup "is_night" = none := lookup_ghoulEvent hraw
    unfold requireBool at hvalue
    rw [hflag] at hvalue
    cases hvalue

theorem aware_utc {t t' : Time} (h : aware t (some 0) = .ok t') : t' = t := by
  unfold aware at h
  simp only [sub_zero] at h
  split_ifs at h
  exact (Except.ok.inj h).symm

theorem shows_raw {std : Stdlib} {c : CetusNight} {now : Time} {o : Observation}
    (ho : (cetusNightProvider std).normalize now c.raw = .ok o) : Shows o c := by
  obtain ⟨value, htimes, hidentity, hvalue, hkey, hstate⟩ := normalizeFlag_eq_ok ho
  have hflag : c.isNight = value := Except.ok.inj hvalue
  refine ⟨hkey, (Except.ok.inj hidentity).symm, ?_, ?_⟩
  · unfold times at htimes
    simp only [bind_eq_ok] at htimes
    obtain ⟨observedAt, -, effectiveAt, heffective, htimes⟩ := htimes
    have hexpires : (parseTime std none (some (utc c.expiresAt)) >>= fun expiresAt =>
        Except.ok (observedAt, effectiveAt, some expiresAt)) =
          .ok (o.observedAt, o.effectiveAt, o.expiresAt) := htimes
    obtain ⟨expiresAt, -, htriple⟩ := bind_eq_ok.mp hexpires
    have hsame : effectiveAt = o.effectiveAt := congrArg (fun x => x.2.1) (Except.ok.inj htriple)
    rw [← hsame]
    exact aware_utc heffective
  · rw [hstate, hflag]
    cases value <;> rfl

/-! ### The readings of an instance -/

/-- The readings of the payloads that were processed with success for an instance. -/
def readings (lib : Library) (w : World) (i : String) : List CetusNight :=
  (w.payloads.filter fun x => x.1 = i).filterMap fun x => (cetusNight lib x.2).toOption

/-- An instance of the provider of the nights. -/
def IsCetus (db : Db) (i : String) : Prop :=
  (db.instances.get i).map (·.providerKey) = some "warframe.cetus_night"

/-- What is kept over a run from the database `db₀`: the instances keep their providers, an instance
has observations of its provider only, and those of the nights are of the readings. -/
structure Mirrors (lib : Library) (db₀ : Db) (w : World) : Prop where
  providerKey : ∀ i, (w.base.db.instances.get i).map (·.providerKey) =
    (db₀.instances.get i).map (·.providerKey)
  own : ∀ i, ∀ o ∈ w.base.observed i, (db₀.instances.get i).map (·.providerKey) = some o.providerKey
  shown : ∀ i, IsCetus db₀ i → List.Forall₂ Shows (w.base.observed i) (readings lib w i)

theorem Mirrors.withDb {lib : Library} {db₀ db : Db} {w : World} (h : Mirrors lib db₀ w)
    (hkeys : ∀ i, (db.instances.get i).map (·.providerKey) =
      (w.base.db.instances.get i).map (·.providerKey)) : Mirrors lib db₀ (w.withDb db) :=
  ⟨fun i => (hkeys i).trans (h.providerKey i), h.own, h.shown⟩

theorem readings_append {lib : Library} {base : Observations.World}
    {payloads : List (String × JsonObject)} {j : String} {payload : JsonObject} (i : String) :
    readings lib ⟨base, payloads ++ [(j, payload)]⟩ i = readings lib ⟨base, payloads⟩ i ++
      if j = i then (cetusNight lib payload).toOption.toList else [] := by
  unfold readings
  rw [List.filter_append, List.filterMap_append]
  congr 1
  by_cases hj : j = i
  · rw [if_pos hj, List.filter_cons_of_pos (by simpa using hj)]
    cases hc : cetusNight lib payload <;> simp [hc, Except.toOption]
  · rw [if_neg hj, List.filter_cons_of_neg (by simpa using hj)]
    rfl

variable [Runtime] {std : Stdlib} {lib : Library} {maxAttempts : ℕ} {db₀ : Db} {w : World}

theorem eq_cetusNightProvider {provider : Provider Raw}
    (h : (registry std).get "warframe.cetus_night" = .ok provider) :
    provider = cetusNightProvider std := by
  obtain ⟨hmem, hkey⟩ := get_registry h
  simp only [providers, List.mem_cons, List.not_mem_nil, or_false] at hmem
  rcases hmem with rfl | rfl | rfl
  · rfl
  · exact absurd hkey (by simp [konzuRotationProvider])
  · exact absurd hkey (by simp [ghoulEventProvider])

theorem Mirrors.process {poll : Poll} {lease : ProviderLease} {payload : JsonObject} {w' : World}
    {raw : Raw} {done : Processed} (h : Mirrors lib db₀ w)
    (hp : Processes std lib w poll lease payload w' raw done) : Mirrors lib db₀ w' := by
  obtain ⟨hextract, hdone, db, htouches, rfl⟩ := hp
  obtain ⟨row, provider, hrow, -, hprovider, hnormalize, hobs⟩ := process_ok hdone
  obtain ⟨-, hinstances, -⟩ := Observations.processObservation_ok hobs
  have hrowkey : (db₀.instances.get lease.providerInstanceId).map (·.providerKey) =
      some row.providerKey := by
    rw [← h.providerKey, show w.base.db.instances.get lease.providerInstanceId = some row from hrow]
    rfl
  obtain ⟨hmem, hkey⟩ := get_registry hprovider
  have hcurrent : done.current.providerKey = row.providerKey :=
    (normalize_providerKey hmem hnormalize).trans hkey
  refine ⟨fun i => ?_, fun i o ho => ?_, fun i hi => ?_⟩
  · rw [htouches.providerKey, hinstances]
    exact h.providerKey i
  · rw [observed_append] at ho
    split_ifs at ho with hown
    · subst hown
      rcases List.mem_append.mp ho with hold | hnew
      · exact h.own _ o hold
      · rw [List.mem_singleton.mp hnew, hcurrent]
        exact hrowkey
    · exact h.own i o ho
  · rw [observed_append, readings_append]
    split_ifs with hown
    · have hown' : lease.providerInstanceId = i := hown
      subst hown'
      have hcetus : row.providerKey = "warframe.cetus_night" :=
        Option.some.inj (hrowkey.symm.trans hi)
      rw [hcetus] at hprovider
      rw [eq_cetusNightProvider hprovider] at hnormalize
      obtain ⟨c, hc, rfl⟩ := extracted_cetus hextract hnormalize
      rw [hc]
      exact List.rel_append (h.shown _ hi) (.cons (shows_raw hnormalize) .nil)
    · rw [List.append_nil]
      exact h.shown i hi

theorem mirrors_next (h : Mirrors lib db₀ w)
    (e : Event) : Mirrors lib db₀ (next std lib maxAttempts w e) := by
  cases e with
  | claim poll locked => exact h.withDb (touches_claim poll locked w.base.db).providerKey
  | process poll lease payload =>
    rcases next_process poll lease payload with hsame | ⟨raw, done, hp⟩
    · rw [hsame]
      exact h
    · exact h.process hp
  | recordFailure poll lease =>
    unfold next
    simp only
    cases hfail : recordLeaseFailure poll lease w.base.db with
    | error e => exact h
    | ok r => exact h.withDb (touches_recordLeaseFailure hfail).providerKey
  | request op => exact h.withDb fun _ => rfl

/-! ### The nights -/

theorem night_mem_eventKeys : "warframe.cetus.night" ∈ eventKeys std :=
  List.mem_flatMap.mpr ⟨cetusNightProvider std, List.mem_cons_self, List.mem_cons_self⟩

omit [Runtime] in
theorem announces_night {p o : Observation} (h : Announces "warframe.cetus.night" p o) :
    o.providerKey = "warframe.cetus_night" ∧ isTrue (p.state.lookup "is_night") = false ∧
      isTrue (o.state.lookup "is_night") = true := by
  generalize hkey : "warframe.cetus.night" = eventKey at h
  cases h with
  | night hown hday hnight => exact ⟨hown, hday, hnight⟩
  | rotation => simp at hkey
  | ghouls => simp at hkey

omit [Runtime] in
/-- The bounties are replaced only when they have ended. -/
def Orderly (cs : List CetusNight) : Prop :=
  cs.Pairwise fun c c' => c'.bountyEnd = c.bountyEnd ∨ c.bountyEnd ≤ c'.observedAt

omit [Runtime] in
/-- The event of the night before the bounties end. -/
structure NightEvent (s : EventOccurrence) (bountyEnd : Time) : Prop where
  eventKey : s.eventKey = "warframe.cetus.night"
  dedupeKey : s.dedupeKey = nightOf bountyEnd
  occurredAt : s.occurredAt = bountyEnd - seconds 3000

omit [Runtime] in
theorem mem_readings {c : CetusNight} {i : String} (h : c ∈ readings lib w i) : IsReading c := by
  obtain ⟨x, -, hx⟩ := List.mem_filterMap.mp h
  cases hc : cetusNight lib x.2 with
  | error e =>
    rw [hc] at hx
    cases hx
  | ok c' =>
    rw [hc] at hx
    cases hx
    exact cetusNight_isReading hc

omit [Runtime] in
theorem Orderly.bountyEnd {c c' : CetusNight} {pre mid post : List CetusNight}
    (h : Orderly (pre ++ (c :: mid ++ [c']) ++ post)) (hsame : c'.bountyEnd = c.bountyEnd)
    (hread : ∀ x ∈ c :: mid ++ [c'], IsReading x) :
    ∀ x ∈ c :: mid ++ [c'], x.bountyEnd = c'.bountyEnd := by
  have hinner : (c :: mid ++ [c']).Pairwise fun c c' =>
      c'.bountyEnd = c.bountyEnd ∨ c.bountyEnd ≤ c'.observedAt :=
    (List.pairwise_append.mp (List.pairwise_append.mp h).1).2.1
  obtain ⟨hfirst, -, hlast⟩ := List.pairwise_append.mp hinner
  intro x hx
  rcases List.mem_append.mp hx with hx' | hx'
  · rcases List.mem_cons.mp hx' with rfl | hmid
    · exact hsame.symm
    · have hbefore := (List.pairwise_cons.mp hfirst).1 x hmid
      have hafter := hlast x hx' c' (List.mem_singleton_self c')
      rcases hafter with heq | hle'
      · exact heq.symm
      · rcases hbefore with heq | hle
        · exact heq.trans hsame.symm
        · -- the mission of `x` would lie between two halves of that of `c`
          have hx₁ := (hread x hx).later
          have hc' := (hread c' (by simp)).later
          rw [hsame] at hc'
          exact absurd ((hx₁.trans_le hle').trans hc') (not_lt.mpr hle)
  · rw [List.mem_singleton.mp hx']

/-- What is said of the nights after a run. -/
structure NightsAnnounced (lib : Library) (db₀ : Db) (w : World) : Prop where
  /-- Every event that is stored is of a night that was seen to begin. -/
  seen : ∀ s ∈ w.base.db.store.eventOccurrences, s.eventKey = "warframe.cetus.night" →
    ∃ i c c', IsCetus db₀ i ∧ Neighbours (readings lib w i) c c' ∧ c.isNight = false ∧
      c'.isNight = true ∧ NightEvent s c'.bountyEnd
  /-- A night that was seen to begin has one event. -/
  begun : ∀ i c c', IsCetus db₀ i → Neighbours (readings lib w i) c c' → c.isNight = false →
    c'.isNight = true → ∃! s, s ∈ w.base.db.store.eventOccurrences ∧ NightEvent s c'.bountyEnd
  /-- So has one that was polled with success by day and later in the night. -/
  polled : ∀ i pre c mid c' post, IsCetus db₀ i →
    readings lib w i = pre ++ (c :: mid ++ [c']) ++ post → Orderly (readings lib w i) →
      c.isNight = false → c'.isNight = true → c'.bountyEnd = c.bountyEnd →
        ∃! s, s ∈ w.base.db.store.eventOccurrences ∧ NightEvent s c'.bountyEnd

theorem Mirrors.seen (hmirrors : Mirrors lib db₀ w) (hsound : Sound std w.base)
    {s : EventOccurrence} (hs : s ∈ w.base.db.store.eventOccurrences)
    (hkey : s.eventKey = "warframe.cetus.night") :
    ∃ i c c', IsCetus db₀ i ∧ Neighbours (readings lib w i) c c' ∧ c.isNight = false ∧
      c'.isNight = true ∧ NightEvent s c'.bountyEnd := by
  obtain ⟨o, ⟨i, p, hneighbours, hann⟩, hdedupe, hoccurred⟩ :=
    hsound.told s hs (by rw [hkey]; exact night_mem_eventKeys)
  rw [hkey] at hann
  obtain ⟨hown, hday, hnight⟩ := announces_night hann
  have hcetus : IsCetus db₀ i := (hmirrors.own i o hneighbours.mem.2).trans (by rw [hown])
  obtain ⟨c, c', hpair, hc, hc'⟩ := hneighbours.forall₂ (hmirrors.shown i hcetus)
  have hnight' : c'.isNight = true := hc'.isNight.symm.trans hnight
  have hreading := mem_readings hpair.mem.2
  refine ⟨i, c, c', hcetus, hpair, hc.isNight.symm.trans hday, hnight', hkey, ?_, ?_⟩
  · rw [hdedupe, hc'.identity, hreading.identity hnight']
  · rw [hoccurred, hc'.effectiveAt, hreading.effectiveAt hnight']
    rfl

theorem Mirrors.begun (hmirrors : Mirrors lib db₀ w) (hsound : Sound std w.base) {i : String}
    {c c' : CetusNight} (hcetus : IsCetus db₀ i) (hpair : Neighbours (readings lib w i) c c')
    (hday : c.isNight = false) (hnight : c'.isNight = true) :
    ∃! s, s ∈ w.base.db.store.eventOccurrences ∧ NightEvent s c'.bountyEnd := by
  have hreading := mem_readings hpair.mem.2
  obtain ⟨p, o, hneighbours, hp, ho⟩ := hpair.forall₂ (hmirrors.shown i hcetus).flip
  have hann : Announces "warframe.cetus.night" p o :=
    .night ho.providerKey (hp.isNight.trans hday) (ho.isNight.trans hnight)
  obtain ⟨s, hs, hkey, hdedupe⟩ := hsound.heard _ o ⟨i, p, hneighbours, hann⟩
  rw [ho.identity, hreading.identity hnight] at hdedupe
  obtain ⟨i', d, d', -, hpair', -, -, hevent⟩ := hmirrors.seen hsound hs hkey
  have hend : d'.bountyEnd = c'.bountyEnd := nightOf_inj (mem_readings hpair'.mem.2).minute
    hreading.minute (hevent.dedupeKey.symm.trans hdedupe)
  rw [hend] at hevent
  refine ⟨s, ⟨hs, hevent⟩, fun s' hs' => Table.alt_inj hs'.1 hs ?_⟩
  exact Prod.ext (hs'.2.eventKey.trans hkey.symm) (hs'.2.dedupeKey.trans hdedupe.symm)

omit [Runtime] in
/-- Between a reading by day and a later one in the same night the night was seen to begin. -/
theorem exists_begun {i : String} {pre mid post : List CetusNight} {c c' : CetusNight}
    (hsplit : readings lib w i = pre ++ (c :: mid ++ [c']) ++ post)
    (horderly : Orderly (readings lib w i)) (hday : c.isNight = false) (hnight : c'.isNight = true)
    (hsame : c'.bountyEnd = c.bountyEnd) :
    ∃ d d', Neighbours (readings lib w i) d d' ∧ d.isNight = false ∧ d'.isNight = true ∧
      d'.bountyEnd = c'.bountyEnd := by
  have hread : ∀ x ∈ c :: mid ++ [c'], IsReading x := by
    intro x hx
    have hmem : x ∈ readings lib w i := by
      rw [hsplit]
      exact List.mem_append_left post (List.mem_append_right pre hx)
    exact mem_readings hmem
  obtain ⟨d, d', hpair, hd, hd'⟩ := exists_raised (f := CetusNight.isNight) mid hday hnight
  rw [hsplit] at horderly ⊢
  exact ⟨d, d', hpair.append pre post, hd, hd', horderly.bountyEnd hsame hread d' hpair.mem.2⟩

/-- **The nights on Cetus are announced once**, whatever becomes of the polls, and whatever others
do in between. -/
theorem nights_announced (hinj : Function.Injective Runtime.sha256Hex) (htexts : FloatTexts)
    (hfresh : Fresh std db₀) (events : List Event) (hforeign : ∀ e ∈ events, e.Foreign std) :
    NightsAnnounced lib db₀ (run (next std lib maxAttempts) { base := { db := db₀ } } events) := by
  have hmirrors :
      Mirrors lib db₀ (run (next std lib maxAttempts) { base := { db := db₀ } } events) :=
    run_invariant_all (I := Mirrors lib db₀) (fun w e h => mirrors_next h e)
      ⟨fun _ => rfl, fun _ _ ho => absurd ho List.not_mem_nil, fun _ _ => .nil⟩ events
  have hsound := sound_run lib maxAttempts hinj htexts hfresh events hforeign
  refine ⟨fun s hs hkey => hmirrors.seen hsound hs hkey, ?_, ?_⟩
  · intro i c c' hcetus hpair hday hnight
    exact hmirrors.begun hsound hcetus hpair hday hnight
  · intro i pre c mid c' post hcetus hsplit horderly hday hnight hsame
    obtain ⟨d, d', hpair, hd, hd', hend⟩ := exists_begun hsplit horderly hday hnight hsame
    rw [← hend]
    exact hmirrors.begun hsound hcetus hpair hd hd'

/-! ### A sample -/

section Sample

omit [Runtime]

theorem sampleWorld_readings : (readings sampleLibrary sampleWorld "warframe-cetus-pc").map
    (fun c => (c.isNight, c.bountyEnd)) =
      [(false, seconds 1789400940), (true, seconds 1789400940), (true, seconds 1789400940)] := by
  decide +kernel

/-- The night has one event. -/
theorem nights_announced_sample :
    ∃! s, s ∈ sampleWorld.base.db.store.eventOccurrences ∧ NightEvent s (seconds 1789400940) := by
  have hnights : NightsAnnounced sampleLibrary sampleDb sampleWorld :=
    @nights_announced Observations.sampleRuntime sampleStd sampleLibrary 5 sampleDb
      Observations.sampleRuntime_injective (@floatTexts_sample Observations.sampleRuntime rfl)
      sampleDb_fresh sampleEvents sampleEvents_foreign
  have hreadings := sampleWorld_readings
  generalize hcs : readings sampleLibrary sampleWorld "warframe-cetus-pc" = cs at hreadings
  obtain ⟨c, cs, rfl, hc, hrest⟩ := List.map_eq_cons_iff.mp hreadings
  obtain ⟨c', cs', rfl, hc', -⟩ := List.map_eq_cons_iff.mp hrest
  obtain ⟨hnight, hend⟩ := Prod.mk.inj hc'
  rw [← hend]
  exact hnights.begun "warframe-cetus-pc" c c' rfl ⟨[], cs', hcs⟩ (congrArg Prod.fst hc) hnight

end Sample

end EventServer.Scheduler.Nights
