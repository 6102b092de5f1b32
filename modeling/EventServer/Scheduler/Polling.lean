import EventServer.Core.Recipients
import EventServer.Providers.Announcements
import EventServer.Scheduler.PollBatch

/-! # What the polls announce

The transactions of the poll runners, in any order, in between the requests to the server: claims,
the processing of an instance with the payload that was fetched, and recorded failures. A batch of a
runner is a run of them, whatever the database does (`runOnce_run`). After any run the stored events
of the providers are those announced between two successive observations of an instance that were
processed with success, each once (`announced_exactly`). -/

namespace EventServer.Scheduler.Polling

open EventServer.Core EventServer.Core.Processing EventServer.Core.Publication EventServer.Db
open EventServer.Core.Observations (Entry Keeps StandsFor checkpointOf_id checkpointOf_put
  evaluate_previous processObservation_ok process_ok recorded standsFor_of_recorded step_process_ok
  step_process_other step_process_own unchanged_iff)
open EventServer.Lib EventServer.Providers EventServer.Providers.Warframe EventServer.Python
open EventServer.Scheduler.Leases EventServer.Scheduler.PollBatch
  EventServer.Scheduler.PollIsolation
open EventServer.Scheduler.PollRunner

/-! ### The transactions -/

/-- The database with what has been processed, and the payloads that were. -/
structure World where
  base : Observations.World
  payloads : List (String × JsonObject) := []

inductive Event where
  /-- The transaction of `claim_due_providers`, while others hold locks. -/
  | claim (poll : Poll) (locked : String → Bool)
  /-- `extract`, and the transaction of `_process`. -/
  | process (poll : Poll) (lease : ProviderLease) (payload : JsonObject)
  /-- The transaction of `_record_failure`. -/
  | recordFailure (poll : Poll) (lease : ProviderLease)
  /-- A request to the server. -/
  | request (op : System.Op)

/-- The world with another database. -/
def World.withDb (w : World) (db : Db) : World := { w with base := { w.base with db := db } }

/-- A transaction; one that fails is rolled back. -/
def next [Runtime] (std : Stdlib) (lib : WorldState.Library) (maxAttempts : ℕ)
    (w : World) : Event → World
  | .claim poll locked =>
    let rows := dueProviderStatement (tables w.base.db) locked poll.now poll.limit
    w.withDb (withTables w.base.db (claimRows poll rows (tables w.base.db)).1)
  | .process poll lease payload =>
    match WorldState.extract lib lease.providerKey payload with
    | .error _ => w
    | .ok raw =>
      match process (registry std) w.base.db (processCall poll lease raw) with
      | .error _ => w
      | .ok done =>
        match release poll.owner done.db lease.providerInstanceId with
        | (_, false) => w
        | (db, true) =>
          { base := ⟨db, w.base.entries ++
              [⟨lease.providerInstanceId, done.current, done.published⟩]⟩
            payloads := w.payloads ++ [(lease.providerInstanceId, payload)] }
  | .recordFailure poll lease =>
    match recordLeaseFailure poll lease w.base.db with
    | .error _ => w
    | .ok ((), db) => w.withDb db
  | .request op => w.withDb { w.base.db with store := System.step maxAttempts w.base.db.store op }

/-! ### Bookkeeping -/

/-- Only leases, counters and times differ. -/
structure Touches (db db' : Db) : Prop where
  store : db'.store = db.store
  recorded : ∀ i, recorded db' i = recorded db i
  providerKey : ∀ i, (db'.instances.get i).map (·.providerKey) =
    (db.instances.get i).map (·.providerKey)

section Bookkeeping

variable {db db' : Db} {poll : Poll}

theorem Touches.refl (db : Db) : Touches db db := ⟨rfl, fun _ => rfl, fun _ => rfl⟩

theorem Touches.trans {db'' : Db} (h : Touches db db') (h' : Touches db' db'') : Touches db db'' :=
  ⟨h'.store.trans h.store, fun i => (h'.recorded i).trans (h.recorded i),
    fun i => (h'.providerKey i).trans (h.providerKey i)⟩

theorem touches_put {c : ProviderCheckpoint}
    (h : (c.lastIdentity, c.state, c.stateHash) = recorded db c.providerInstanceId) :
    Touches db { db with checkpoints := db.checkpoints.put c } := by
  refine ⟨rfl, fun i => ?_, fun _ => rfl⟩
  unfold recorded at h ⊢
  simp only [checkpointOf_put]
  by_cases hi : i = c.providerInstanceId
  · subst hi
    rw [if_pos rfl]
    exact h
  · rw [if_neg hi]

theorem recorded_of_get {checkpoint : ProviderCheckpoint} {i : String}
    (h : db.checkpoints.get i = some checkpoint) :
    recorded db checkpoint.providerInstanceId =
      (checkpoint.lastIdentity, checkpoint.state, checkpoint.stateHash) := by
  have hid : checkpoint.providerInstanceId = i := Table.key_of_get h
  unfold recorded checkpointOf
  rw [hid, h]
  rfl

theorem touches_release (owner : String) (db : Db) (i : String) :
    Touches db (release owner db i).1 := by
  rcases release_cases owner db i with ⟨checkpoint, hget, -, hrelease⟩ | ⟨-, hrelease⟩
  · rw [hrelease]
    exact touches_put (c := free checkpoint) (recorded_of_get hget).symm
  · rw [hrelease]
    exact .refl db

theorem touches_recordLeaseFailure {lease : ProviderLease}
    (h : recordLeaseFailure poll lease db = .ok ((), db')) : Touches db db' := by
  unfold recordLeaseFailure at h
  simp only [bind_eq_ok, mapError_eq_ok] at h
  obtain ⟨db₁, hfail, h⟩ := h
  cases h
  obtain ⟨checkpoint, hget, rfl⟩ := Observations.recordFailure_ok hfail
  have hcount :
      Touches db { db with checkpoints := db.checkpoints.put (countFailure checkpoint) } :=
    touches_put (recorded_of_get hget).symm
  exact hcount.trans (touches_release poll.owner _ lease.providerInstanceId)

/-- The rows are stored, as far as their providers go. -/
def KeysStored (db : Db) (rows : List ProviderInstance) : Prop :=
  ∀ row ∈ rows, (db.instances.get row.providerInstanceId).map (·.providerKey) = some row.providerKey

theorem touches_claimOne {row : ProviderInstance}
    (h : (db.instances.get row.providerInstanceId).map (·.providerKey) = some row.providerKey) :
    Touches db (claimOne poll db row) := by
  have hid :
      (poll.claim.lease (checkpointOf db.checkpoints row.providerInstanceId)).providerInstanceId =
      row.providerInstanceId := checkpointOf_id _ _
  have hput :=
    touches_put (c := poll.claim.lease (checkpointOf db.checkpoints row.providerInstanceId))
    (show _ = recorded db _ by rw [hid]; rfl)
  refine ⟨rfl, hput.recorded, fun i => ?_⟩
  show ((db.instances.put (poll.claim.schedule row)).get i).map (·.providerKey) = _
  rw [Table.get_put]
  split_ifs with hi
  · have hrow : i = row.providerInstanceId := hi
    rw [hrow, h]
    rfl
  · rfl

theorem touches_afterClaim {rows : List ProviderInstance} (h : KeysStored db rows) :
    Touches db (afterClaim poll db rows) := by
  induction rows generalizing db with
  | nil => exact .refl db
  | cons row rows ih =>
    have hone : Touches db (claimOne poll db row) := touches_claimOne (h row List.mem_cons_self)
    have hrest : KeysStored (claimOne poll db row) rows := fun row' hmem => by
      rw [hone.providerKey]
      exact h row' (List.mem_cons_of_mem row hmem)
    exact hone.trans (ih hrest)

theorem touches_claim (poll : Poll) (locked : String → Bool) (db : Db) :
    Touches db (withTables db (claimRows poll
      (dueProviderStatement (tables db) locked poll.now poll.limit) (tables db)).1) := by
  rw [afterClaim_eq]
  refine touches_afterClaim fun row hmem => ?_
  have hstored : db.instances.get row.providerInstanceId = some row :=
    (mem_dueProviderStatement hmem).1
  rw [hstored]
  rfl

end Bookkeeping

/-! ### Publishing -/

section Publishing

/-- An event is stored under its keys. -/
def Stored (s : Store) (eventKey dedupeKey : String) : Prop :=
  ∃ o ∈ s.eventOccurrences, o.eventKey = eventKey ∧ o.dedupeKey = dedupeKey

theorem Stored.mono {s s' : Store} {eventKey dedupeKey : String} (h : Stored s eventKey dedupeKey)
    (hs : ∀ o ∈ s.eventOccurrences, o ∈ s'.eventOccurrences) : Stored s' eventKey dedupeKey := by
  obtain ⟨o, ho, hkeys⟩ := h
  exact ⟨o, hs o ho, hkeys⟩

/-- What has been stored between two stores is of the events `events`, which are stored. -/
structure Stores (events : List DomainEvent) (s s' : Store) : Prop where
  kept : ∀ o ∈ s.eventOccurrences, o ∈ s'.eventOccurrences
  added : ∀ o ∈ s'.eventOccurrences, o ∈ s.eventOccurrences ∨ ∃ event ∈ events,
    o = occurrenceOf event
  stored : ∀ event ∈ events, Stored s' event.eventKey event.dedupeKey

variable [Runtime] {registry : ProviderRegistry Raw} {now : Time}
  {deliveryId : DomainEvent → String → String → String}

theorem stores_publish {s s' : Store} {a : Publish} {r : PublicationResult}
    (h : publish s now a = .ok (s', r)) : Stores [a.event] s s' := by
  cases System.publish_ok h with
  | existing o hfound =>
    have hmatch := List.find?_some hfound
    simp only [decide_eq_true_eq] at hmatch
    refine ⟨fun _ ho => ho, fun _ ho => Or.inl ho, fun event hmem => ?_⟩
    rw [List.mem_singleton.mp hmem]
    exact ⟨o, Table.mem_rows.mp (List.mem_of_find?_eq_some hfound), hmatch⟩
  | created _ _ _ _ ho =>
    have hrows := (Table.insert?_eq_some.mp ho).2.2
    have hmem : ∀ o, o ∈ s'.eventOccurrences ↔ o ∈ s.eventOccurrences ∨
        o = occurrenceOf a.event := by
      intro o
      rw [← Table.mem_rows, hrows, List.mem_append, List.mem_singleton, Table.mem_rows]
    refine ⟨fun o ho => (hmem o).mpr (Or.inl ho), fun o ho => ?_, fun event hevent => ?_⟩
    · exact ((hmem o).mp ho).imp_right fun h => ⟨a.event, List.mem_singleton_self _, h⟩
    · rw [List.mem_singleton.mp hevent]
      exact ⟨_, (hmem _).mpr (Or.inr rfl), rfl, rfl⟩

theorem stores_publishAll {events : List DomainEvent} {s s' : Store}
    {results : List PublicationResult}
    (h : publishAll registry now deliveryId s events = .ok (s', results)) : Stores events s s' := by
  induction events generalizing s results with
  | nil =>
    cases h
    exact ⟨fun _ ho => ho, fun _ ho => Or.inl ho, fun _ hmem => absurd hmem List.not_mem_nil⟩
  | cons event events ih =>
    unfold publishAll at h
    simp only [bind_eq_ok, mapError_eq_ok] at h
    obtain ⟨provider, -, message, -, ⟨s₁, result⟩, hpublish, ⟨s₂, rest⟩, hrest, h⟩ := h
    cases h
    have hone := stores_publish hpublish
    have hall := ih hrest
    refine ⟨fun o ho => hall.kept o (hone.kept o ho), fun o ho => ?_, fun event' hmem => ?_⟩
    · rcases hall.added o ho with hold | ⟨event', hmem, rfl⟩
      · refine (hone.added o hold).imp_right ?_
        rintro ⟨event', hmem, rfl⟩
        rw [List.mem_singleton.mp hmem]
        exact ⟨event, List.mem_cons_self, rfl⟩
      · exact Or.inr ⟨event', List.mem_cons_of_mem event hmem, rfl⟩
    · rcases List.mem_cons.mp hmem with rfl | hmem
      · exact (hone.stored event' (List.mem_singleton_self _)).mono hall.kept
      · exact hall.stored event' hmem

theorem stores_process {db : Db} {call : Process Raw} {done : Processed}
    (h : process registry db call = .ok done) : Stores done.published db.store done.db.store := by
  obtain ⟨row, provider, -, -, -, -, hobs⟩ := process_ok h
  unfold processObservation at hobs
  simp only at hobs
  split_ifs at hobs
  · rw [← Except.ok.inj hobs]
    exact ⟨fun _ ho => ho, fun _ ho => Or.inl ho, fun _ hmem => absurd hmem List.not_mem_nil⟩
  · simp only [bind_eq_ok, mapError_eq_ok] at hobs
    obtain ⟨prev, -, events, -, ⟨s, results⟩, hpublished, hdone⟩ := hobs
    rw [← Except.ok.inj hdone]
    exact stores_publishAll hpublished

end Publishing

/-! ### One transaction -/

variable [Runtime]

/-- The events of the providers, and the observations they are found at. -/
def Announced (w : Observations.World) (eventKey : String) (o : Observation) : Prop :=
  ∃ i p, Neighbours (w.observed i) p o ∧ Announces eventKey p o

/-- What is kept over a run: the checkpoints stand for the last observations, and the stored events
of the providers are those that have been announced. -/
structure Sound (std : Stdlib) (w : Observations.World) : Prop where
  standsFor : ∀ i row provider, w.db.instances.get i = some row →
    (registry std).get row.providerKey = .ok provider →
      StandsFor (checkpointOf w.db.checkpoints i) (w.last i)
  told : ∀ s ∈ w.db.store.eventOccurrences, s.eventKey ∈ eventKeys std →
    ∃ o, Announced w s.eventKey o ∧ s.dedupeKey = o.identity ∧ s.occurredAt = o.effectiveAt
  heard : ∀ eventKey o, Announced w eventKey o → Stored w.db.store eventKey o.identity

section Step

variable {std : Stdlib} {lib : WorldState.Library} {maxAttempts : ℕ}
  {w : Observations.World} {db : Db}

theorem Sound.touch (h : Sound std w) (ht : Touches w.db db) : Sound std { w with db := db } := by
  refine ⟨fun i row provider hrow hprovider => ?_, fun s hs hkey => ?_, fun eventKey o ho => ?_⟩
  · have hkey := ht.providerKey i
    rw [show db.instances.get i = some row from hrow, Option.map_some] at hkey
    obtain ⟨row', hrow', hsame⟩ := Option.map_eq_some_iff.mp hkey.symm
    have hstands := h.standsFor i row' provider hrow' (by rw [hsame]; exact hprovider)
    exact standsFor_of_recorded (w := w) rfl (ht.recorded i) hstands
  · rw [show ({ w with db := db } : Observations.World).db.store = w.db.store from ht.store] at hs
    exact h.told s hs hkey
  · rw [show ({ w with db := db } : Observations.World).db.store = w.db.store from ht.store]
    exact h.heard eventKey o ho

/-- A request that publishes no event of a provider. -/
def Foreign (std : Stdlib) (op : System.Op) : Prop :=
  ∀ now a, op = .publish now a → a.event.eventKey ∉ eventKeys std

theorem get_registry {providerKey : String} {provider : Provider Raw}
    (h : (registry std).get providerKey = .ok provider) :
    provider ∈ providers std ∧ provider.metadata.providerKey = providerKey := by
  have hbuild : buildRegistry std none = .ok (registry std) := rfl
  exact get_buildRegistry hbuild h

theorem Sound.request (h : Sound std w) {op : System.Op} (hop : Foreign std op) :
    Sound std { w with db := { w.db with store := System.step maxAttempts w.db.store op } } := by
  refine ⟨h.standsFor, fun s hs hkey => ?_, fun eventKey o ho => ?_⟩
  · refine h.told s ?_ hkey
    cases System.outbox_cases maxAttempts w.db.store op with
    | same hsame => rw [← hsame.eventOccurrences]; exact hs
    | call _ _ hsame => rw [← hsame]; exact hs
    | created now a eventType fallback hpublish _ _ ho =>
      have hmem : s ∈ w.db.store.eventOccurrences ∨ s = occurrenceOf a.event := by
        rw [← Table.mem_rows, (Table.insert?_eq_some.mp ho).2.2, List.mem_append,
          List.mem_singleton, Table.mem_rows] at hs
        exact hs
      rcases hmem with hold | rfl
      · exact hold
      · exact absurd hkey (hop now a hpublish)
  · exact (h.heard eventKey o ho).mono fun _ hmem => Recipients.eventOccurrences_mono hmem

omit [Runtime] in
theorem observed_append (e : Entry) (i : String) :
    Observations.World.observed ⟨db, w.entries ++ [e]⟩ i =
      if e.providerInstanceId = i then w.observed i ++ [e.current] else w.observed i := by
  unfold Observations.World.observed
  rw [Observations.entriesOf_append]
  split_ifs
  · rw [List.map_append, List.map_singleton]
  · rfl

omit [Runtime] in
/-- A new observation is announced if it differs from the last one in the way that is watched
for. -/
theorem announced_append {e : Entry} {eventKey : String} {o : Observation} :
    Announced ⟨db, w.entries ++ [e]⟩ eventKey o ↔ Announced w eventKey o ∨
      ∃ p ∈ w.last e.providerInstanceId, Announces eventKey p o ∧ o = e.current := by
  unfold Announced
  simp only [observed_append]
  constructor
  · rintro ⟨i, p, hneighbours, hann⟩
    split_ifs at hneighbours with hi
    · subst hi
      rcases neighbours_concat.mp hneighbours with hold | ⟨hlast, rfl⟩
      · exact Or.inl ⟨_, p, hold, hann⟩
      · exact Or.inr ⟨p, hlast, hann, rfl⟩
    · exact Or.inl ⟨i, p, hneighbours, hann⟩
  · rintro (⟨i, p, hneighbours, hann⟩ | ⟨p, hlast, hann, rfl⟩)
    · refine ⟨i, p, ?_, hann⟩
      split_ifs
      · exact neighbours_concat.mpr (Or.inl hneighbours)
      · exact hneighbours
    · refine ⟨e.providerInstanceId, p, ?_, hann⟩
      rw [if_pos rfl]
      exact neighbours_concat.mpr (Or.inr ⟨hlast, rfl⟩)

omit [Runtime] in
/-- The events `events` are those announced at `o` after the observation `last`. -/
structure Emits (last : Option Observation) (o : Observation)
    (events : List DomainEvent) : Prop where
  sound : ∀ event ∈ events, ∃ p ∈ last, Announces event.eventKey p o ∧ Reports o event
  complete : ∀ p ∈ last, ∀ key, Announces key p o → ∃ event ∈ events,
    event.eventKey = key ∧ Reports o event

theorem emits_process (hinj : Function.Injective Runtime.sha256Hex) (htexts : FloatTexts)
    {row : ProviderInstance} {provider : Provider Raw} {call : Process Raw} {done : Processed}
    (hrow : w.db.instances.get call.providerInstanceId = some row)
    (hprovider : (registry std).get row.providerKey = .ok provider)
    (hstands : StandsFor (checkpointOf w.db.checkpoints call.providerInstanceId)
      (w.last call.providerInstanceId))
    (hdone : process (registry std) w.db call = .ok done) :
    Emits (w.last call.providerInstanceId) done.current done.published := by
  obtain ⟨row', provider', hrow', -, hprovider', hnormalize, hobs⟩ := process_ok hdone
  rw [hrow, Option.some_inj] at hrow'
  subst hrow'
  rw [hprovider] at hprovider'
  cases hprovider'
  obtain ⟨hmem, -⟩ := get_registry hprovider
  obtain ⟨-, -, ⟨hu, hnone, -⟩ | ⟨-, -, ⟨prev, hprev, hevents⟩, -⟩⟩ :=
    processObservation_ok hobs
  · obtain ⟨p, hp, hs⟩ := (unchanged_iff hinj htexts hstands).mp hu
    rw [hnone]
    refine ⟨fun _ hevent => absurd hevent List.not_mem_nil, fun p' hp' key hann => ?_⟩
    rw [Option.mem_def.mp hp, Option.mem_some_iff] at hp'
    subst hp'
    exact absurd hs hann.not_same
  · rw [evaluate_previous (dependsOnState std hmem) hstands hprev] at hevents
    cases hlast : w.last call.providerInstanceId with
    | none =>
      rw [hlast] at hevents
      rw [evaluate_none hmem hevents]
      exact ⟨fun _ hevent => absurd hevent List.not_mem_nil,
        fun _ hp => absurd hp (Option.not_mem_none _)⟩
    | some p =>
      rw [hlast] at hevents
      obtain ⟨hsound, hcomplete⟩ := evaluate_announces hmem
        (normalize_providerKey hmem hnormalize) hevents
      refine ⟨fun event hevent => ⟨p, rfl, hsound event hevent⟩, fun p' hp' key hann => ?_⟩
      rw [Option.mem_some_iff] at hp'
      subst hp'
      exact hcomplete key hann

/-- **A successful `process` stores what is announced.** -/
theorem Sound.process (hinj : Function.Injective Runtime.sha256Hex) (htexts : FloatTexts)
    (h : Sound std w) {call : Process Raw} {done : Processed}
    (hdone : process (registry std) w.db call = .ok done) :
    Sound std ⟨done.db, w.entries ++ [⟨call.providerInstanceId, done.current,
      done.published⟩]⟩ := by
  obtain ⟨row, provider, hrow, -, hprovider, -, hobs⟩ := process_ok hdone
  obtain ⟨-, hinstances, -⟩ := processObservation_ok hobs
  have hmem := (get_registry hprovider).1
  have hemits := emits_process hinj htexts hrow hprovider
    (h.standsFor _ row provider hrow hprovider) hdone
  have hstores := stores_process hdone
  refine ⟨fun j row' provider' hrow' hprovider' => ?_, fun s hs hkey => ?_, fun eventKey o ho => ?_⟩
  · have hstored : w.db.instances.get j = some row' := by
      rw [← hinstances]
      exact hrow'
    have hkeeps : Keeps (registry std) provider' j w :=
      ⟨⟨row', hstored, hprovider'⟩, h.standsFor j row' provider' hstored hprovider'⟩
    rw [← step_process_ok hdone]
    by_cases hj : call.providerInstanceId = j
    · subst hj
      exact (step_process_own hinj htexts
        (dependsOnState std (get_registry hprovider').1) hdone hkeeps).1.standsFor
    · exact (step_process_other hdone hj hkeeps).1.standsFor
  · rcases hstores.added s hs with hold | ⟨event, hevent, rfl⟩
    · obtain ⟨o, ho, hsame⟩ := h.told s hold hkey
      exact ⟨o, announced_append.mpr (Or.inl ho), hsame⟩
    · obtain ⟨p, hp, hann, hreports⟩ := hemits.sound event hevent
      exact ⟨done.current, announced_append.mpr (Or.inr ⟨p, hp, hann, rfl⟩), hreports.dedupeKey,
        hreports.occurredAt⟩
  · rcases announced_append.mp ho with hold | ⟨p, hp, hann, rfl⟩
    · exact (h.heard eventKey o hold).mono hstores.kept
    · obtain ⟨event, hevent, rfl, hreports⟩ := hemits.complete p hp eventKey hann
      rw [← hreports.dedupeKey]
      exact hstores.stored event hevent

end Step

/-! ### The run -/

section Run

variable {std : Stdlib} {lib : WorldState.Library} {maxAttempts : ℕ} {w : World}

/-- Others publish no event of a provider. -/
def Event.Foreign (std : Stdlib) : Event → Prop
  | .request op => Polling.Foreign std op
  | _ => True

/-- A transaction that processes an instance with success. -/
structure Processes (std : Stdlib) (lib : WorldState.Library) (w : World) (poll : Poll)
    (lease : ProviderLease) (payload : JsonObject) (w' : World) (raw : Raw)
    (done : Processed) : Prop where
  extracted : WorldState.extract lib lease.providerKey payload = .ok raw
  processed : process (registry std) w.base.db (processCall poll lease raw) = .ok done
  world : ∃ db, Touches done.db db ∧ w' =
    { base := ⟨db, w.base.entries ++ [⟨lease.providerInstanceId, done.current, done.published⟩]⟩
      payloads := w.payloads ++ [(lease.providerInstanceId, payload)] }

theorem next_process (poll : Poll) (lease : ProviderLease) (payload : JsonObject) :
    next std lib maxAttempts w (.process poll lease payload) = w ∨
      ∃ raw done, Processes std lib w poll lease payload
        (next std lib maxAttempts w (.process poll lease payload)) raw done := by
  unfold next
  simp only
  cases hraw : WorldState.extract lib lease.providerKey payload with
  | error e => exact Or.inl rfl
  | ok raw =>
    simp only
    cases hdone : process (registry std) w.base.db (processCall poll lease raw) with
    | error e => exact Or.inl rfl
    | ok done =>
      simp only
      have htouches := touches_release poll.owner done.db lease.providerInstanceId
      cases hrelease : release poll.owner done.db lease.providerInstanceId with
      | mk db released =>
        cases released with
        | false => exact Or.inl rfl
        | true =>
          rw [hrelease] at htouches
          exact Or.inr ⟨raw, done, hraw, hdone, db, htouches, rfl⟩

/-- **A transaction keeps what is stored and what is announced together.** -/
theorem sound_next (hinj : Function.Injective Runtime.sha256Hex) (htexts : FloatTexts)
    (h : Sound std w.base) {e : Event} (he : e.Foreign std) :
    Sound std (next std lib maxAttempts w e).base := by
  cases e with
  | claim poll locked => exact h.touch (touches_claim poll locked w.base.db)
  | process poll lease payload =>
    rcases next_process poll lease payload with hsame | ⟨raw, done, -, hdone, db, htouches, hworld⟩
    · rw [hsame]
      exact h
    · rw [hworld]
      exact (h.process hinj htexts hdone).touch htouches
  | recordFailure poll lease =>
    unfold next
    simp only
    cases hfail : recordLeaseFailure poll lease w.base.db with
    | error e => exact h
    | ok r => exact h.touch (touches_recordLeaseFailure hfail)
  | request op => exact h.request he

/-- A database whose instances have not been polled with success, and that holds no event of
theirs. -/
structure Fresh (std : Stdlib) (db : Db) : Prop where
  checkpoints : ∀ i, (checkpointOf db.checkpoints i).lastIdentity = none
  events : ∀ s ∈ db.store.eventOccurrences, s.eventKey ∉ eventKeys std

theorem sound_fresh {db : Db} (h : Fresh std db) : Sound std { db := db } := by
  refine ⟨fun i _ _ _ _ => h.checkpoints i, fun s hs hkey => absurd hkey (h.events s hs), ?_⟩
  rintro eventKey o ⟨i, p, hneighbours, -⟩
  exact absurd hneighbours.mem.1 List.not_mem_nil

variable (lib maxAttempts) in
theorem sound_run (hinj : Function.Injective Runtime.sha256Hex) (htexts : FloatTexts) {db : Db}
    (hfresh : Fresh std db) (events : List Event) (hforeign : ∀ e ∈ events, e.Foreign std) :
    Sound std (run (next std lib maxAttempts) { base := { db := db } } events).base := by
  refine run_invariant (I := fun w : World => Sound std w.base) (C := fun _ e => e.Foreign std)
    (fun w e hw he => sound_next hinj htexts hw he) (sound_fresh hfresh) ?_
  intro pre e post hsplit
  exact hforeign e (by rw [hsplit]; simp)

/-- **What is announced is stored, exactly once, and nothing else is.** Any runners, any failures,
and any requests of others in between. -/
theorem announced_exactly (hinj : Function.Injective Runtime.sha256Hex)
    (htexts : FloatTexts) {db : Db} (hfresh : Fresh std db) (events : List Event)
    (hforeign : ∀ e ∈ events, e.Foreign std) :
    let w := (run (next std lib maxAttempts) { base := { db := db } } events).base
    (∀ s ∈ w.db.store.eventOccurrences, s.eventKey ∈ eventKeys std →
      ∃ o, Announced w s.eventKey o ∧ s.dedupeKey = o.identity ∧ s.occurredAt = o.effectiveAt) ∧
    ∀ eventKey o, Announced w eventKey o → ∃! s, s ∈ w.db.store.eventOccurrences ∧
      s.eventKey = eventKey ∧ s.dedupeKey = o.identity := by
  intro w
  have hsound : Sound std w := sound_run lib maxAttempts hinj htexts hfresh events hforeign
  refine ⟨hsound.told, fun eventKey o ho => ?_⟩
  obtain ⟨s, hs, hkey, hdedupe⟩ := hsound.heard eventKey o ho
  refine ⟨s, ⟨hs, hkey, hdedupe⟩, fun s' h' => ?_⟩
  refine Table.alt_inj h'.1 hs ?_
  exact Prod.ext (h'.2.1.trans hkey.symm) (h'.2.2.trans hdedupe.symm)

end Run

/-! ### Batches -/

section Batches

variable {std : Stdlib} {lib : WorldState.Library} {maxAttempts : ℕ} {poll : Poll}
  {w w' w'' : Transactions.World Db}

omit [Runtime] in
/-- A transaction returns and commits what its operation does, or raises and leaves the database
alone. -/
theorem inTransaction_cases {T : Type} (d : Database) (body : Db → Except RunError (T × Db))
    (w : Transactions.World Db) :
    (∃ r, (inTransaction d body w).1 = .ok r ∧ body w.db = .ok (r, (inTransaction d body w).2.db)) ∨
      (∃ e, (inTransaction d body w).1 = .error e) ∧ (inTransaction d body w).2.db = w.db := by
  have hpos : (1 : ℤ) ≤ 3 := by decide
  rcases Transactions.run_cases (operation d body) 3 (.finite (1 / 20)) w hpos with
    ⟨m, -, hend⟩ | ⟨hover, -⟩
  · have hvalue : (inTransaction d body w).1 = _ := hend.value
    have hdb : (inTransaction d body w).2.db = _ := hend.db
    rw [hvalue, hdb]
    cases hout : Transactions.outcome (operation d body) w m with
    | error e => exact Or.inr ⟨⟨_, rfl⟩, rfl⟩
    | ok r =>
      refine Or.inl ⟨r.1, rfl, ?_⟩
      unfold Transactions.outcome Transactions.Operation.outcome operation at hout
      cases hduring : d.duringSession (w.sessions + m) with
      | some exc => simp [hduring] at hout
      | none =>
        cases hbody : body w.db with
        | error e => simp [hduring, hbody, Except.mapError] at hout
        | ok x =>
          cases hcommit : d.atCommit (w.sessions + m) with
          | some exc => simp [hduring, hbody, Except.mapError, hcommit] at hout
          | none =>
            simp only [hduring, hbody, Except.mapError, hcommit, Option.map_none,
              Except.ok.injEq] at hout
            rw [← hout]
            rfl
  · exact absurd hover.1 (by decide)

omit [Runtime] in
/-- The transaction is one of the batch. -/
def Event.Of (poll : Poll) : Event → Prop
  | .claim poll' _ => poll' = poll
  | .process poll' _ payload => poll' = poll ∧ poll.fetched = some payload
  | .recordFailure poll' _ => poll' = poll
  | .request _ => False

/-- Transactions of the batch lead from one database to the other. -/
def Leads (std : Stdlib) (lib : WorldState.Library) (maxAttempts : ℕ) (poll : Poll)
    (w w' : Transactions.World Db) : Prop :=
  ∃ events, (∀ e ∈ events, e.Of poll) ∧ ∀ u : World, u.base.db = w.db →
    (run (next std lib maxAttempts) u events).base.db = w'.db

theorem leads_of_db (h : w'.db = w.db) : Leads std lib maxAttempts poll w w' :=
  ⟨[], fun _ hmem => absurd hmem List.not_mem_nil, fun _ hu => hu.trans h.symm⟩

theorem leads_of_event {e : Event} (he : e.Of poll)
    (h : ∀ u : World, u.base.db = w.db → (next std lib maxAttempts u e).base.db = w'.db) :
    Leads std lib maxAttempts poll w w' := by
  refine ⟨[e], fun e' hmem => ?_, h⟩
  rw [List.mem_singleton.mp hmem]
  exact he

theorem Leads.trans (h : Leads std lib maxAttempts poll w w')
    (h' : Leads std lib maxAttempts poll w' w'') :
    Leads std lib maxAttempts poll w w'' := by
  obtain ⟨events, hof, hrun⟩ := h
  obtain ⟨events', hof', hrun'⟩ := h'
  refine ⟨events ++ events', fun e hmem => ?_, fun u hu => ?_⟩
  · rcases List.mem_append.mp hmem with hmem | hmem
    · exact hof e hmem
    · exact hof' e hmem
  · rw [run_append]
    exact hrun' _ (hrun u hu)

variable (std lib maxAttempts poll) in
theorem leads_recordFailure (lease : ProviderLease) (w : Transactions.World Db) :
    Leads std lib maxAttempts poll w
      (inTransaction poll.database (recordLeaseFailure poll lease) w).2 := by
  rcases inTransaction_cases poll.database (recordLeaseFailure poll lease) w with
    ⟨⟨⟩, -, hbody⟩ | ⟨-, hsame⟩
  · refine leads_of_event (e := .recordFailure poll lease) rfl fun u hu => ?_
    simp only [next, hu, hbody]
    rfl
  · exact leads_of_db hsame

variable (std lib maxAttempts poll) in
theorem leads_recordFailures (leases : List ProviderLease) (w : Transactions.World Db) :
    Leads std lib maxAttempts poll w (recordFailures poll leases w).2 := by
  induction leases generalizing w with
  | nil => exact leads_of_db rfl
  | cons lease leases ih =>
    have hone := leads_recordFailure std lib maxAttempts poll lease w
    unfold recordFailures
    cases hrecord : inTransaction poll.database (recordLeaseFailure poll lease) w with
    | mk value w₁ =>
      rw [hrecord] at hone
      cases value with
      | error e => exact hone
      | ok => exact hone.trans (ih w₁)

variable (std lib maxAttempts) in
theorem leads_processInstance {payload : JsonObject} (hfetched : poll.fetched = some payload)
    (lease : ProviderLease) (w : Transactions.World Db) :
    Leads std lib maxAttempts poll w (processInstance std lib poll payload lease w).2 := by
  unfold processInstance
  cases hraw : WorldState.extract lib lease.providerKey payload with
  | error e => exact leads_of_db rfl
  | ok raw =>
    simp only
    have hcases := inTransaction_cases poll.database (processLease std poll lease raw) w
    cases htrans : inTransaction poll.database (processLease std poll lease raw) w with
    | mk value w₁ =>
      rw [htrans] at hcases
      rcases hcases with ⟨r, hvalue, hbody⟩ | ⟨⟨e, hvalue⟩, hsame⟩
      · cases hvalue
        refine leads_of_event (e := .process poll lease payload) ⟨rfl, hfetched⟩ fun u hu => ?_
        unfold processLease at hbody
        simp only [bind_eq_ok, mapError_eq_ok] at hbody
        obtain ⟨done, hdone, hbody⟩ := hbody
        cases hrelease : release poll.owner done.db lease.providerInstanceId with
        | mk db released =>
          rw [hrelease] at hbody
          cases released with
          | false => simp at hbody
          | true =>
            simp only [Bool.true_eq_false, if_false, Except.ok.injEq, Prod.mk.injEq] at hbody
            simp only [next, hraw, hu, hdone, hrelease]
            exact hbody.2
      · cases hvalue
        exact leads_of_db hsame

theorem leads_processAll {payload : JsonObject} (hfetched : poll.fetched = some payload)
    (counts : PollRunResult) (leases : List ProviderLease) (w : Transactions.World Db) :
    Leads std lib maxAttempts poll w (processAll std lib poll payload counts leases w).2 := by
  induction leases generalizing counts w with
  | nil => exact leads_of_db rfl
  | cons lease leases ih =>
    have hinstance := leads_processInstance std lib maxAttempts hfetched lease w
    unfold processAll
    cases hprocess : processInstance std lib poll payload lease w with
    | mk result w₁ =>
      rw [hprocess] at hinstance
      cases result with
      | some result => exact hinstance.trans (ih (counts.succeed result) w₁)
      | none =>
        have hfailure := hinstance.trans (leads_recordFailure std lib maxAttempts poll lease w₁)
        simp only
        cases hrecord : inTransaction poll.database (recordLeaseFailure poll lease) w₁ with
        | mk value w₂ =>
          rw [hrecord] at hfailure
          cases value with
          | error e => exact hfailure
          | ok => exact hfailure.trans (ih counts.fail w₂)

/-- **A batch of a runner is a run of its transactions**, whatever the database does. -/
theorem runOnce_run (w : Transactions.World Db) :
    Leads std lib maxAttempts poll w (runOnce std lib poll w).2 := by
  unfold runOnce runClaiming
  have hcases := inTransaction_cases poll.database (fun db => .ok
    ((claimDueProviders (tables db) poll.claim).2,
      withTables db (claimDueProviders (tables db) poll.claim).1)) w
  generalize inTransaction poll.database (fun db => .ok
    ((claimDueProviders (tables db) poll.claim).2,
      withTables db (claimDueProviders (tables db) poll.claim).1)) w = r at hcases ⊢
  obtain ⟨value, w₁⟩ := r
  rcases hcases with ⟨leases, hvalue, hbody⟩ | ⟨⟨e, hvalue⟩, hsame⟩
  · cases hvalue
    have hclaim : Leads std lib maxAttempts poll w w₁ := by
      refine leads_of_event (e := .claim poll fun _ => false) rfl fun u hu => ?_
      simp only [Except.ok.injEq, Prod.mk.injEq] at hbody
      rw [← hbody.2, ← hu]
      rfl
    simp only
    split_ifs
    · exact hclaim
    · cases hfetched : poll.fetched with
      | none =>
        have hall := hclaim.trans (leads_recordFailures std lib maxAttempts poll leases w₁)
        simp only
        cases hrecord : recordFailures poll leases w₁ with
        | mk value w₂ =>
          rw [hrecord] at hall
          cases value <;> exact hall
      | some payload => exact hclaim.trans (leads_processAll hfetched _ leases w₁)
  · cases hvalue
    exact leads_of_db hsame

end Batches

/-! ### A sample -/

section Sample

omit [Runtime]

def sampleStd : Stdlib where
  fromisoformat _ := none
  uuid5 name := if name = "autoqq:warframe.cetus.night:cetus:1789400940:night" then
    "7af0127a-2400-5944-99da-a567837694ab" else ""

def sampleRow : ProviderInstance where
  providerInstanceId := "warframe-cetus-pc"
  providerKey := "warframe.cetus_night"
  intervalSeconds := some 60

def sampleDb : Db where
  store := Observations.sampleStore
  instances := Table.empty.put sampleRow

/-- A poll of the payload at that time of day, five seconds later. -/
def samplePoll (time : ℤ) : Poll where
  owner := "runner-test"
  now := seconds (time + 5)
  fetched := some (WorldState.samplePayload time)
  clock _ := seconds (time + 6)
  deliveryId _ _ _ _ := "d-1"

/-- A claim and the processing of the instance. -/
def sampleBatch (time : ℤ) : List Event :=
  [.claim (samplePoll time) fun _ => false,
    .process (samplePoll time) ((samplePoll time).claim.leased sampleRow)
      (WorldState.samplePayload time)]

/-- A poll by day, one that fails, and two in the night. -/
def sampleEvents : List Event :=
  sampleBatch 1789396395 ++ [.claim (samplePoll 1789397000) fun _ => false,
    .recordFailure (samplePoll 1789397000) ((samplePoll 1789397000).claim.leased sampleRow)] ++
      sampleBatch 1789398000 ++ sampleBatch 1789398060

def sampleWorld : World :=
  run (@next Observations.sampleRuntime sampleStd WorldState.sampleLibrary 5)
    { base := { db := sampleDb } }
    sampleEvents

theorem sampleEvents_foreign : ∀ e ∈ sampleEvents,
    @Event.Foreign Observations.sampleRuntime sampleStd e := by
  simp [sampleEvents, sampleBatch, Event.Foreign]

theorem sampleDb_fresh : @Fresh Observations.sampleRuntime sampleStd sampleDb := by
  let _ := Observations.sampleRuntime
  exact ⟨fun _ => rfl, fun _ hs => absurd (Table.mem_rows.mpr hs) List.not_mem_nil⟩

/-- Four polls, one event. -/
theorem announced_exactly_sample :
    (∀ eventKey o, Announced sampleWorld.base eventKey o →
      ∃! s, s ∈ sampleWorld.base.db.store.eventOccurrences ∧ s.eventKey = eventKey ∧
        s.dedupeKey = o.identity) ∧
    sampleWorld.base.db.store.eventOccurrences.rows.map (fun s => (s.eventKey, s.dedupeKey)) =
      [("warframe.cetus.night", "cetus:1789400940:night")] := by
  have hall := @announced_exactly Observations.sampleRuntime sampleStd WorldState.sampleLibrary 5
    Observations.sampleRuntime_injective
      (@floatTexts_sample Observations.sampleRuntime rfl) sampleDb
    sampleDb_fresh sampleEvents sampleEvents_foreign
  exact ⟨hall.2, by decide +kernel⟩

end Sample

end EventServer.Scheduler.Polling
