import EventServer.Lib.Except
import EventServer.Lib.Runs
import EventServer.Lib.Transitions
import EventServer.Core.Processing
import EventServer.Providers.Warframe

/-! # The pipeline of observations is a fold

A run makes calls of `process` and `record_failure`, for any instances and in any order, and each
call may fail and is rolled back then. What the successful calls for an instance publish is what a
fold over their observations emits: nothing at an observation with the identity and the state of the
one before it, and what the provider finds otherwise (`pipeline_folds`). These are the calls of
`publish` that the loop makes, in order, from the tables before the call to those after it
(`PublishCalls`). The checkpoint keeps what the fold needs of the last successful observation. -/

namespace EventServer.Core.Observations

open EventServer.Db EventServer.Lib EventServer.Python EventServer.Core.Processing
  EventServer.Core.Publication

variable [Runtime] {ρ : Type}

/-! ### Runs -/

/-- A successful call of `process`. -/
structure Entry where
  providerInstanceId : String
  current : Observation
  published : List DomainEvent

/-- The tables, and the calls of `process` that have succeeded. -/
structure World where
  db : Db
  entries : List Entry := []

inductive Op (ρ : Type) where
  | process (call : Process ρ)
  | recordFailure (providerInstanceId : String) (statementFails : Bool)

/-- A call; one that fails is rolled back. -/
def step (registry : ProviderRegistry ρ) (w : World) : Op ρ → World
  | .process call =>
    match process registry w.db call with
    | .error _ => w
    | .ok done => ⟨done.db, w.entries ++ [⟨call.providerInstanceId, done.current, done.published⟩]⟩
  | .recordFailure providerInstanceId statementFails =>
    match recordFailure w.db providerInstanceId statementFails with
    | .error _ => w
    | .ok db => { w with db := db }

omit [Runtime] in
/-- The successful calls for the instance `i`. -/
def World.entriesOf (w : World) (i : String) : List Entry :=
  w.entries.filter fun e => e.providerInstanceId = i

omit [Runtime] in
/-- The columns of a checkpoint that stand for the last observation. -/
def recorded (db : Db) (i : String) : Option String × Option JsonObject × Option String :=
  let checkpoint := checkpointOf db.checkpoints i
  (checkpoint.lastIdentity, checkpoint.state, checkpoint.stateHash)

/-! ### One call -/

section Call

variable {registry : ProviderRegistry ρ} {provider : Provider ρ} {db : Db} {call : Process ρ}
  {current : Observation} {done : Processed}

/-- The calls of `publish` for a list of events, one after the other and each on the tables the one
before it has left, with the message the provider of its event renders. -/
inductive PublishCalls (registry : ProviderRegistry ρ) (now : Time)
    (deliveryId : DomainEvent → String → String → String) :
    List DomainEvent → Store → Store → Prop
  | done (s : Store) : PublishCalls registry now deliveryId [] s s
  | call {event : DomainEvent} {events : List DomainEvent} {s s' s'' : Store}
    {provider : Provider ρ} {message : DeliveryMessage} {result : PublicationResult}
    (hprovider : registry.providerForEvent event.eventKey = .ok provider)
    (hrender : provider.render event "zh-CN" = .ok message)
    (hpublish : publish s now
      { event := event, messages := [("default", message)], deliveryId := deliveryId event } =
        .ok (s', result))
    (hrest : PublishCalls registry now deliveryId events s' s'') :
    PublishCalls registry now deliveryId (event :: events) s s''

theorem publishCalls_of_publishAll {now : Time}
    {deliveryId : DomainEvent → String → String → String} {events : List DomainEvent} {s s' : Store}
    {results : List PublicationResult}
    (h : publishAll registry now deliveryId s events = .ok (s', results)) :
    PublishCalls registry now deliveryId events s s' := by
  induction events generalizing s results with
  | nil =>
    cases h
    exact .done _
  | cons event events ih =>
    unfold publishAll at h
    simp only [bind_eq_ok, mapError_eq_ok] at h
    obtain ⟨provider, hprovider, message, hrender, ⟨s₁, result⟩, hpublish,
      ⟨s₂, rest⟩, hrest, h⟩ := h
    cases h
    exact .call hprovider hrender hpublish (ih hrest)

theorem processObservation_ok
    (h : processObservation registry provider db call current = .ok done) :
    done.current = current ∧ done.db.instances = db.instances ∧
      let checkpoint := checkpointOf db.checkpoints call.providerInstanceId
      (unchanged checkpoint current = true ∧ done.published = [] ∧ done.db.store = db.store ∧
        done.db.checkpoints = db.checkpoints.put (touch checkpoint current)) ∨
      (unchanged checkpoint current = false ∧
        done.db.checkpoints = db.checkpoints.put (advance checkpoint current) ∧
        (∃ prev, previous checkpoint current = .ok prev ∧
          provider.evaluate prev current = .ok done.published) ∧
        PublishCalls registry call.now call.deliveryId done.published db.store done.db.store) := by
  unfold processObservation at h
  simp only at h
  split_ifs at h with hu
  · cases h
    exact ⟨rfl, rfl, Or.inl ⟨hu, rfl, rfl, rfl⟩⟩
  · simp only [bind_eq_ok, mapError_eq_ok] at h
    obtain ⟨prev, hprev, events, hevents, ⟨store, publications⟩, hpublished, h⟩ := h
    cases h
    exact ⟨rfl, rfl, Or.inr ⟨by simpa using hu, rfl, ⟨prev, hprev, hevents⟩,
      publishCalls_of_publishAll hpublished⟩⟩

theorem process_ok (h : process registry db call = .ok done) :
    ∃ row provider, db.instances.get call.providerInstanceId = some row ∧ row.enabled = true ∧
      registry.get row.providerKey = .ok provider ∧
      provider.normalize call.now call.raw = .ok done.current ∧
      processObservation registry provider db call done.current = .ok done := by
  unfold process at h
  cases hrow : db.instances.get call.providerInstanceId with
  | none => simp [hrow] at h
  | some row =>
    simp only [hrow] at h
    by_cases henabled : row.enabled = false
    · simp [henabled] at h
    rw [if_neg henabled] at h
    simp only [bind_eq_ok, mapError_eq_ok] at h
    obtain ⟨provider, hprovider, current, hcurrent, h⟩ := h
    by_cases hkey : current.providerKey ≠ row.providerKey
    · simp [hkey] at h
    rw [if_neg hkey] at h
    simp only [bind_eq_ok] at h
    obtain ⟨processed, hprocessed, h⟩ := h
    split_ifs at h
    cases h
    rw [(processObservation_ok hprocessed).1]
    exact ⟨row, provider, rfl, by simpa using henabled, hprovider, hcurrent, hprocessed⟩

omit [Runtime] in
theorem recordFailure_ok {db db' : Db} {i : String} {fails : Bool}
    (h : recordFailure db i fails = .ok db') :
    ∃ checkpoint, db.checkpoints.get i = some checkpoint ∧
      db' = { db with checkpoints := db.checkpoints.put (countFailure checkpoint) } := by
  unfold recordFailure at h
  cases hc : db.checkpoints.get i with
  | none => simp [hc] at h
  | some checkpoint =>
    simp only [hc] at h
    split_ifs at h
    cases h
    exact ⟨checkpoint, rfl, rfl⟩

omit [Runtime] in
theorem checkpointOf_id (checkpoints : ProviderCheckpoints) (i : String) :
    (checkpointOf checkpoints i).providerInstanceId = i := by
  unfold checkpointOf
  cases h : checkpoints.get i with
  | none => rfl
  | some checkpoint => exact Table.key_of_get h

omit [Runtime] in
theorem checkpointOf_put (checkpoints : ProviderCheckpoints) (checkpoint : ProviderCheckpoint)
    (i : String) : checkpointOf (checkpoints.put checkpoint) i =
      if i = checkpoint.providerInstanceId then checkpoint else checkpointOf checkpoints i := by
  unfold checkpointOf
  rw [Table.get_put]
  split_ifs <;> rfl

theorem stateHash_of_same {o o' : Observation} (h : Same o o') : stateHash o = stateHash o' := by
  unfold stateHash Json.dumps
  rw [h.2]

end Call

/-! ### What a checkpoint stands for -/

/-- The checkpoint stands for the last successful observation: it has its identity and its state. -/
def StandsFor (checkpoint : ProviderCheckpoint) : Option Observation → Prop
  | none => checkpoint.lastIdentity = none
  | some o => checkpoint.lastIdentity = some o.identity ∧
    checkpoint.stateHash = some (stateHash o) ∧
      ∃ state, checkpoint.state = some state ∧ (Json.obj state).canon = (Json.obj o.state).canon

section Checkpoint

variable {checkpoint : ProviderCheckpoint} {last : Option Observation} {current : Observation}
  {provider : Provider ρ}

/-- The condition of `process` on the checkpoint says that the observation has not changed. -/
theorem unchanged_iff (hinj : Function.Injective Runtime.sha256Hex) (htexts : FloatTexts)
    (h : StandsFor checkpoint last) :
    unchanged checkpoint current = true ↔ ∃ p ∈ last, Same p current := by
  unfold unchanged
  rw [Bool.and_eq_true, decide_eq_true_eq, decide_eq_true_eq]
  cases last with
  | none =>
    have hnone : checkpoint.lastIdentity = none := h
    simp [hnone]
  | some o =>
    obtain ⟨hid, hhash, -⟩ := h
    rw [hid, hhash, Option.some_inj, Option.some_inj]
    constructor
    · rintro ⟨hidentity, hdigest⟩
      exact ⟨o, rfl, hidentity, Json.dumps_inj htexts (hinj hdigest)⟩
    · rintro ⟨p, hp, hs⟩
      cases hp
      exact ⟨hs.1, stateHash_of_same hs⟩

omit [Runtime] in
/-- What `_previous` makes of the checkpoint is, for the provider, the last successful
observation. -/
theorem evaluate_previous [Runtime] (hdep : DependsOnState provider) (h : StandsFor checkpoint last)
    {prev : Option Observation} (hprev : previous checkpoint current = .ok prev) :
    provider.evaluate prev current = provider.evaluate last current := by
  unfold previous at hprev
  cases last with
  | none =>
    have hnone : checkpoint.lastIdentity = none := h
    rw [hnone] at hprev
    cases hprev
    rfl
  | some o =>
    obtain ⟨hid, -, state, hstate, hcanon⟩ := h
    rw [hid, hstate] at hprev
    simp only [map_eq_ok] at hprev
    obtain ⟨p, hp, rfl⟩ := hprev
    unfold Observation.of at hp
    split_ifs at hp
    cases hp
    exact hdep _ o current ⟨rfl, hcanon⟩

theorem standsFor_advance (checkpoint : ProviderCheckpoint) (current : Observation) :
    StandsFor (advance checkpoint current) (some current) := ⟨rfl, rfl, current.state, rfl, rfl⟩

theorem standsFor_touch (h : StandsFor checkpoint last) {p : Observation} (hp : p ∈ last)
    (hs : Same p current) : StandsFor (touch checkpoint current) (some current) := by
  cases hp
  obtain ⟨hid, hhash, state, hstate, hcanon⟩ := h
  refine ⟨?_, ?_, state, hstate, hcanon.trans hs.2⟩
  · rw [← hs.1]
    exact hid
  · rw [← stateHash_of_same hs]
    exact hhash

end Checkpoint

/-! ### Over a run -/

section Run

variable {registry : ProviderRegistry ρ} {provider : Provider ρ} {i : String}
  {w : World} {op : Op ρ}

omit [Runtime] in
/-- The successful observations of the instance `i`. -/
def World.observed (w : World) (i : String) : List Observation := (w.entriesOf i).map (·.current)

omit [Runtime] in
/-- The last successful observation of the instance `i`. -/
def World.last (w : World) (i : String) : Option Observation := latest none (w.observed i)

omit [Runtime] in
/-- The instance a call is for. -/
def Op.providerInstanceId : Op ρ → String
  | .process call => call.providerInstanceId
  | .recordFailure providerInstanceId _ => providerInstanceId

omit [Runtime] in
/-- The call has failed or found an observation of the instance `i` that has not changed, or is for
another instance: nothing is published for `i`, and its checkpoint stands for what it did. -/
structure Idles (i : String) (w : World) (op : Op ρ) (w' : World) : Prop where
  recorded : recorded w'.db i = recorded w.db i
  store : op.providerInstanceId = i → w'.db.store = w.db.store
  entries : w'.entriesOf i = w.entriesOf i ∨ ∃ p ∈ w.last i, ∃ e,
    w'.entriesOf i = w.entriesOf i ++ [e] ∧ Same p e.current ∧ e.published = []

/-- The call has found an observation of the instance `i` that has changed: it has made the calls of
`publish` for what the provider finds, and recorded the observation. -/
def Advances (registry : ProviderRegistry ρ) (provider : Provider ρ) (i : String) (w : World)
    (op : Op ρ) (w' : World) : Prop :=
  ∃ call e, op = .process call ∧ call.providerInstanceId = i ∧
    w'.entriesOf i = w.entriesOf i ++ [e] ∧ (∀ p ∈ w.last i, ¬ Same p e.current) ∧
    provider.evaluate (w.last i) e.current = .ok e.published ∧
    PublishCalls registry call.now call.deliveryId e.published w.db.store w'.db.store ∧
    recorded w'.db i = (some e.current.identity, some e.current.state, some (stateHash e.current))

/-- The row of the instance `i`, and what its checkpoint stands for. -/
structure Keeps (registry : ProviderRegistry ρ) (provider : Provider ρ) (i : String) (w : World) :
    Prop where
  row : ∃ row, w.db.instances.get i = some row ∧ registry.get row.providerKey = .ok provider
  standsFor : StandsFor (checkpointOf w.db.checkpoints i) (w.last i)

omit [Runtime] in
theorem last_concat {w' : World} {e : Entry} (h : w'.entriesOf i = w.entriesOf i ++ [e]) :
    w'.last i = some e.current := by
  unfold World.last World.observed
  rw [h, List.map_append, List.map_singleton, latest_concat]

omit [Runtime] in
theorem last_congr {w' : World} (h : w'.entriesOf i = w.entriesOf i) : w'.last i = w.last i := by
  unfold World.last World.observed
  rw [h]

theorem step_process_ok {call : Process ρ} {done : Processed}
    (h : process registry w.db call = .ok done) : step registry w (.process call) =
      ⟨done.db, w.entries ++ [⟨call.providerInstanceId, done.current, done.published⟩]⟩ := by
  simp only [step, h]

omit [Runtime] in
theorem entriesOf_append (db : Db) (e : Entry) : World.entriesOf ⟨db, w.entries ++ [e]⟩ i =
    if e.providerInstanceId = i then w.entriesOf i ++ [e] else w.entriesOf i := by
  unfold World.entriesOf
  rw [List.filter_append]
  split_ifs with h <;> simp [h]

theorem standsFor_of_recorded {w' : World} (hlast : w'.last i = w.last i)
    (hrec : recorded w'.db i = recorded w.db i)
    (h : StandsFor (checkpointOf w.db.checkpoints i) (w.last i)) :
    StandsFor (checkpointOf w'.db.checkpoints i) (w'.last i) := by
  simp only [recorded, Prod.mk.injEq] at hrec
  obtain ⟨hid, hstate, hhash⟩ := hrec
  rw [hlast]
  cases hl : w.last i with
  | none =>
    rw [hl] at h
    exact hid.trans h
  | some o =>
    rw [hl] at h
    obtain ⟨hid', hhash', state, hstate', hcanon⟩ := h
    exact ⟨hid.trans hid', hhash.trans hhash', state, hstate.trans hstate', hcanon⟩

theorem keeps_of_idle {w' : World} (h : Keeps registry provider i w)
    (hrow : w'.db.instances = w.db.instances) (hlast : w'.last i = w.last i)
    (hrec : recorded w'.db i = recorded w.db i) : Keeps registry provider i w' := by
  obtain ⟨row, hget, hprovider⟩ := h.row
  exact ⟨⟨row, by rw [hrow]; exact hget, hprovider⟩, standsFor_of_recorded hlast hrec h.standsFor⟩

theorem step_process_other {call : Process ρ} {done : Processed}
    (hdone : process registry w.db call = .ok done) (hi : call.providerInstanceId ≠ i)
    (h : Keeps registry provider i w) :
    Keeps registry provider i (step registry w (.process call)) ∧
      Idles i w (.process call) (step registry w (.process call)) := by
  obtain ⟨row, provider', -, -, -, -, hobs⟩ := process_ok hdone
  obtain ⟨-, hinstances, hcases⟩ := processObservation_ok hobs
  rw [step_process_ok hdone]
  have hentries : World.entriesOf ⟨done.db, w.entries ++
      [⟨call.providerInstanceId, done.current, done.published⟩]⟩ i = w.entriesOf i := by
    rw [entriesOf_append, if_neg hi]
  have hcheckpoint : checkpointOf done.db.checkpoints i = checkpointOf w.db.checkpoints i := by
    have hid := checkpointOf_id w.db.checkpoints call.providerInstanceId
    rcases hcases with ⟨-, -, -, hput⟩ | ⟨-, hput, -⟩
    · rw [hput, checkpointOf_put, if_neg]
      exact fun he => hi (hid.symm.trans he.symm)
    · rw [hput, checkpointOf_put, if_neg]
      exact fun he => hi (hid.symm.trans he.symm)
  have hrec : recorded done.db i = recorded w.db i := by
    unfold recorded
    rw [hcheckpoint]
  exact ⟨keeps_of_idle h hinstances (last_congr hentries) hrec, hrec, fun he => absurd he hi,
    Or.inl hentries⟩

theorem step_process_own (hinj : Function.Injective Runtime.sha256Hex) (htexts : FloatTexts)
    (hdep : DependsOnState provider) {call : Process ρ} {done : Processed}
    (hdone : process registry w.db call = .ok done)
    (h : Keeps registry provider call.providerInstanceId w) :
    Keeps registry provider call.providerInstanceId (step registry w (.process call)) ∧
      (Idles call.providerInstanceId w (.process call) (step registry w (.process call)) ∨
        Advances registry provider call.providerInstanceId w (.process call)
          (step registry w (.process call))) := by
  obtain ⟨row, hget, hprovider⟩ := h.row
  obtain ⟨row', provider', hget', -, hprovider', -, hobs⟩ := process_ok hdone
  rw [hget, Option.some_inj] at hget'
  subst hget'
  rw [hprovider] at hprovider'
  cases hprovider'
  obtain ⟨-, hinstances, hcases⟩ := processObservation_ok hobs
  rw [step_process_ok hdone]
  have hrow : ∃ row, done.db.instances.get call.providerInstanceId = some row ∧
      registry.get row.providerKey = .ok provider :=
        ⟨row, by rw [hinstances]; exact hget, hprovider⟩
  have hid := checkpointOf_id w.db.checkpoints call.providerInstanceId
  have hentries : World.entriesOf ⟨done.db, w.entries ++
      [⟨call.providerInstanceId, done.current, done.published⟩]⟩ call.providerInstanceId =
        w.entriesOf call.providerInstanceId ++
          [⟨call.providerInstanceId, done.current, done.published⟩] := by
    rw [entriesOf_append, if_pos rfl]
  have hlast := last_concat hentries
  rcases hcases with ⟨hu, hnone, hstore, hput⟩ | ⟨hu, hput, ⟨prev, hprev, heval⟩, hcalls⟩
  · obtain ⟨p, hp, hs⟩ := (unchanged_iff hinj htexts h.standsFor).mp hu
    have hcheckpoint : checkpointOf done.db.checkpoints call.providerInstanceId =
        touch (checkpointOf w.db.checkpoints call.providerInstanceId) done.current := by
      rw [hput, checkpointOf_put]
      exact if_pos hid.symm
    refine ⟨⟨hrow, ?_⟩, Or.inl ⟨?_, fun _ => hstore, Or.inr ⟨p, hp, _, hentries, hs, hnone⟩⟩⟩
    · rw [hlast, hcheckpoint]
      exact standsFor_touch h.standsFor hp hs
    · unfold recorded
      rw [hcheckpoint]
      rfl
  · have hcheckpoint : checkpointOf done.db.checkpoints call.providerInstanceId =
        advance (checkpointOf w.db.checkpoints call.providerInstanceId) done.current := by
      rw [hput, checkpointOf_put]
      exact if_pos hid.symm
    refine ⟨⟨hrow, ?_⟩, Or.inr ⟨call, _, rfl, rfl, hentries, ?_, ?_, hcalls, ?_⟩⟩
    · rw [hlast, hcheckpoint]
      exact standsFor_advance _ _
    · intro p hp hs
      have hsame := (unchanged_iff hinj htexts h.standsFor).mpr ⟨p, hp, hs⟩
      rw [hsame] at hu
      cases hu
    · rw [← evaluate_previous hdep h.standsFor hprev]
      exact heval
    · unfold recorded
      rw [hcheckpoint]
      rfl

theorem step_recordFailure (id : String) (fails : Bool) (h : Keeps registry provider i w) :
    Keeps registry provider i (step registry w (.recordFailure id fails)) ∧
      Idles i w (.recordFailure id fails : Op ρ) (step registry w (.recordFailure id fails)) := by
  cases hf : recordFailure w.db id fails with
  | error e =>
    have hstep : step registry w (.recordFailure id fails) = w := by simp only [step, hf]
    rw [hstep]
    exact ⟨h, rfl, fun _ => rfl, Or.inl rfl⟩
  | ok db =>
    have hstep : step registry w (.recordFailure id fails) = { w with db := db } := by
      simp only [step, hf]
    rw [hstep]
    obtain ⟨checkpoint, hget, rfl⟩ := recordFailure_ok hf
    have hid : checkpoint.providerInstanceId = id := Table.key_of_get hget
    have hrec : recorded { w.db with
        checkpoints := w.db.checkpoints.put (countFailure checkpoint) } i = recorded w.db i := by
      unfold recorded
      simp only [checkpointOf_put]
      split_ifs with hi
      · have hi' : i = id := hi.trans hid
        subst hi'
        unfold checkpointOf
        rw [hget]
        rfl
      · rfl
    exact ⟨keeps_of_idle h rfl rfl hrec, hrec, fun _ => rfl, Or.inl rfl⟩

/-- **A call either leaves the instance as it is or advances it to a changed observation.** -/
theorem step_cases (hinj : Function.Injective Runtime.sha256Hex) (htexts : FloatTexts)
    (hdep : DependsOnState provider) (op : Op ρ) (h : Keeps registry provider i w) :
    Keeps registry provider i (step registry w op) ∧
      (Idles i w op (step registry w op) ∨
        Advances registry provider i w op (step registry w op)) := by
  cases op with
  | recordFailure id fails =>
    obtain ⟨hkeeps, hidle⟩ := step_recordFailure id fails h
    exact ⟨hkeeps, Or.inl hidle⟩
  | process call =>
    cases hp : process registry w.db call with
    | error e =>
      have hstep : step registry w (.process call) = w := by simp only [step, hp]
      rw [hstep]
      exact ⟨h, Or.inl ⟨rfl, fun _ => rfl, Or.inl rfl⟩⟩
    | ok done =>
      by_cases hi : call.providerInstanceId = i
      · subst hi
        exact step_process_own hinj htexts hdep hp h
      · obtain ⟨hkeeps, hidle⟩ := step_process_other hp hi h
        exact ⟨hkeeps, Or.inl hidle⟩

/-- The entries of the instance `i` are what the fold emits. -/
def Folds (provider : Provider ρ) (i : String) (w : World) : Prop :=
  (w.entriesOf i).map (fun e => Except.ok e.published) =
    transitions (emit Same provider.evaluate) none (w.observed i)

omit [Runtime] in
theorem folds_concat {w' : World} {e : Entry} (h : Folds provider i w)
    (he : w'.entriesOf i = w.entriesOf i ++ [e])
    (hemit : emit Same provider.evaluate (w.last i) e.current = .ok e.published) :
    Folds provider i w' := by
  unfold Folds World.observed at h ⊢
  rw [he, List.map_append, List.map_append, h, List.map_singleton, List.map_singleton,
    transitions_concat]
  have hlast : latest none ((w.entriesOf i).map (·.current)) = w.last i := rfl
  rw [hlast, hemit]

theorem folds_step {w' : World} (h : Folds provider i w)
    (hstep : Idles i w op w' ∨ Advances registry provider i w op w') : Folds provider i w' := by
  rcases hstep with hidle | ⟨-, e, -, -, he, hnew, heval, -⟩
  · rcases hidle.entries with hsame | ⟨p, hp, e, he, hs, hnone⟩
    · unfold Folds World.observed at h ⊢
      rw [hsame]
      exact h
    · refine folds_concat h he ?_
      rw [Option.mem_def.mp hp, emit_same hs, hnone]
  · exact folds_concat h he ((emit_other hnew).trans heval)

end Run

/-- What can be said of the calls `ops` from `w₀` on. -/
structure PipelineFolds (registry : ProviderRegistry ρ) (provider : Provider ρ) (i : String)
    (w₀ : World) (ops : List (Op ρ)) : Prop where
  /-- The successful calls publish what a fold over their observations emits. -/
  published : ((run (step registry) w₀ ops).entriesOf i).map (fun e => Except.ok e.published) =
    transitions (emit Same provider.evaluate) none ((run (step registry) w₀ ops).observed i)
  /-- Each call either publishes nothing for the instance and leaves the three columns alone, or
  finds a changed observation, makes the calls of `publish` for what the provider finds, and records
  it. -/
  steps : ∀ pre op post, ops = pre ++ op :: post →
    Idles i (run (step registry) w₀ pre) op (step registry (run (step registry) w₀ pre) op) ∨
      Advances registry provider i (run (step registry) w₀ pre) op
        (step registry (run (step registry) w₀ pre) op)

/-- **The pipeline of observations is a fold.** For an instance that has not been polled with
success yet, a provider that looks at the identity and the state of the previous observation, and
any calls in which any step may fail. -/
theorem pipeline_folds (hinj : Function.Injective Runtime.sha256Hex) (htexts : FloatTexts)
    {registry : ProviderRegistry ρ} {provider : Provider ρ} (hdep : DependsOnState provider)
    {db : Db} {row : ProviderInstance} (hrow : db.instances.get row.providerInstanceId = some row)
    (hprovider : registry.get row.providerKey = .ok provider)
    (hnew : (checkpointOf db.checkpoints row.providerInstanceId).lastIdentity = none)
    (ops : List (Op ρ)) :
    PipelineFolds registry provider row.providerInstanceId { db := db } ops := by
  have hkeeps : Keeps registry provider row.providerInstanceId { db := db } :=
    ⟨⟨row, hrow, hprovider⟩, hnew⟩
  have hrun : ∀ ops, Keeps registry provider row.providerInstanceId
      (run (step registry) { db := db } ops) :=
    run_invariant_all (I := Keeps registry provider row.providerInstanceId)
      (fun w op h => (step_cases hinj htexts hdep op h).1) hkeeps
  constructor
  · have hstep : ∀ w op, Keeps registry provider row.providerInstanceId w ∧
          Folds provider row.providerInstanceId w →
        Keeps registry provider row.providerInstanceId (step registry w op) ∧
          Folds provider row.providerInstanceId (step registry w op) := by
      intro w op ⟨hk, hf⟩
      obtain ⟨hk', hcases⟩ := step_cases hinj htexts hdep op hk
      exact ⟨hk', folds_step hf hcases⟩
    exact (run_invariant_all hstep ⟨hkeeps, rfl⟩ ops).2
  · intro pre op post _
    exact (step_cases hinj htexts hdep op (hrun pre)).2

/-! ### A sample -/

section Sample

omit [Runtime]

/-- A runtime whose digest is injective and has the digests of two states, and whose floats have
texts of their own. -/
abbrev sampleRuntime : Runtime :=
  { Runtime.sample with
    sha256Hex := fun s =>
      Equiv.swap "\x7b\"is_night\":false\x7d"
        "d4a087c2521d757a9031ca7f3e3c93f623dea4a65854b4ff39a46fd1634deb54"
        (Equiv.swap "\x7b\"is_night\":true\x7d"
          "36a83ccc37b83d3e545d5a96001a49b1cd49b753e1a9b80147b2e0d9275942b9" s)
    floatRepr := sampleFloatRepr }

theorem sampleRuntime_injective : Function.Injective sampleRuntime.sha256Hex :=
  (Equiv.injective _).comp (Equiv.injective _)

def sampleLib : Providers.Warframe.Stdlib where
  fromisoformat _ := none
  uuid5 name := if name = "autoqq:warframe.cetus.night:night-cycle" then
    "ec0637f3-0299-554d-8d25-471d6a51a1d2" else ""

/-- The raw data of a poll on 2026-09-14 at noon. -/
def sampleRaw (identity : String) (isNight : Bool) : Providers.Warframe.Raw :=
  [("identity", .json (.str identity)), ("is_night", .json (.bool isNight)),
    ("observed_at", .datetime (seconds 1789387200) (some 0))]

def sampleProcess (identity : String) (isNight statementFails : Bool) :
    Process Providers.Warframe.Raw where
  providerInstanceId := "cetus-pc"
  raw := sampleRaw identity isNight
  now := seconds 1789387200
  deliveryId _ _ _ := "d-1"
  statementFails := statementFails

/-- A baseline, a poll that finds nothing new, one that fails at its end, a failure that is counted,
and a poll that finds the night. -/
def sampleOps : List (Op Providers.Warframe.Raw) :=
  [.process (sampleProcess "day-cycle" false false),
    .process (sampleProcess "day-cycle" false false),
    .process (sampleProcess "night-cycle" true true), .recordFailure "cetus-pc" false,
    .process (sampleProcess "night-cycle" true false)]

def sampleRow : ProviderInstance where
  providerInstanceId := "cetus-pc"
  providerKey := "warframe.cetus_night"
  intervalSeconds := some 60

def sampleStore : Store where
  eventTypes := Table.empty.put { eventKey := "warframe.cetus.night", displayName := "Cetus night" }
  users := Table.empty.put { platform := "qqbot", openid := "subscriber" }
  userPermissions := Table.empty.put
    { platform := "qqbot", openid := "subscriber", permissionKey := .command, granted := true }
  subscriptions := Table.empty.put
    { platform := "qqbot", openid := "subscriber", eventKey := "warframe.cetus.night" }

def sampleDb : Db where
  store := sampleStore
  instances := Table.empty.put sampleRow

def sampleRegistry : ProviderRegistry Providers.Warframe.Raw :=
  (@Providers.Warframe.buildRegistry sampleRuntime sampleLib none).toOption.getD {}

theorem pipeline_folds_sample :
    @PipelineFolds sampleRuntime _ sampleRegistry (Providers.Warframe.cetusNightProvider sampleLib)
      "cetus-pc" { db := sampleDb } sampleOps ∧
    ((run (@step sampleRuntime _ sampleRegistry) { db := sampleDb } sampleOps).entries.map
      fun e => e.published.map (·.eventId)) = [[], [],
        ["ec0637f3-0299-554d-8d25-471d6a51a1d2"]] := by
  let _ := sampleRuntime
  have hdep := Providers.Warframe.dependsOnState sampleLib (List.mem_cons_self ..)
  have hget : sampleRegistry.get sampleRow.providerKey =
      .ok (Providers.Warframe.cetusNightProvider sampleLib) := by rfl
  have hrow : sampleDb.instances.get sampleRow.providerInstanceId = some sampleRow := rfl
  have hnew : (checkpointOf sampleDb.checkpoints sampleRow.providerInstanceId).lastIdentity =
      none := rfl
  exact ⟨pipeline_folds sampleRuntime_injective (floatTexts_sample rfl) hdep hrow
    hget hnew sampleOps, by decide +kernel⟩

end Sample

end EventServer.Core.Observations
