import EventServer.Services.SubscriptionKeys

/-! # What a schema version stands for

An event is checked against the schema its type has when it is published. `register` does not let
the schema version of a type change, but it writes the new schema over the old one, so the events
that are stored under the version keep their meaning only if the new schema accepts them
(`schema_versions`). -/

namespace EventServer.Core.SchemaVersions

open EventServer.Db EventServer.Lib EventServer.Python EventServer.System
open EventServer.CatalogAdmin EventServer.Core.Publication EventServer.Core.SchemaValidation
open EventServer.Services.SubscriptionKeys (eventTypes_step)

variable [Runtime]

/-- The data of every stored event of the current version of its type fit the schema of the type. -/
def Meaningful (s : Store) : Prop :=
  ∀ o ∈ s.eventOccurrences, ∀ eventType, s.eventTypes.get o.eventKey = some eventType →
    eventType.schemaVersion = o.schemaVersion →
      validatePayload eventType.payloadSchema o.data = .ok ()

/-- The entry passes the checks of `register`: that of its schema, and that the version of a type
that is registered already stays. -/
def Registrable (s : Store) (entry : ValidEntry) : Prop :=
  checkSchema entry.val.payloadSchema = .ok () ∧
    ∀ existing, s.eventTypes.get entry.val.eventKey = some existing →
      existing.schemaVersion = entry.val.schemaVersion

/-- A registration writes no schema that refuses an event stored under the same key and version. -/
def Compatible (s : Store) (op : Op) : Prop :=
  ∀ entry, op = .register entry → Registrable s entry →
    ∀ o ∈ s.eventOccurrences, o.eventKey = entry.val.eventKey →
      o.schemaVersion = entry.val.schemaVersion →
        validatePayload entry.val.payloadSchema o.data = .ok ()

theorem registrable_of_ok {s s' : Store} {entry : ValidEntry} (h : register s entry = .ok s') :
    Registrable s entry := by
  unfold register at h
  cases hc : checkSchema entry.val.payloadSchema with
  | error e => rw [hc] at h; cases h
  | ok u =>
    refine ⟨hc, fun existing hg => ?_⟩
    simp only [hc, hg] at h
    split_ifs at h with hv
    exact not_not.mp hv

theorem get_register {n : ℕ} {s : Store} {entry : ValidEntry} (h : Registrable s entry) :
    ∃ eventType, (step n s (.register entry)).eventTypes.get entry.val.eventKey = some eventType ∧
      eventType.schemaVersion = entry.val.schemaVersion ∧
      eventType.payloadSchema = entry.val.payloadSchema := by
  obtain ⟨hc, hv⟩ := h
  have hok : ∃ s', register s entry = .ok s' := by
    unfold register
    rw [hc]
    cases hg : s.eventTypes.get entry.val.eventKey with
    | none => exact ⟨_, rfl⟩
    | some existing =>
      simp only
      rw [if_neg (not_not.mpr (hv existing hg))]
      exact ⟨_, rfl⟩
  obtain ⟨s', hs'⟩ := hok
  obtain ⟨existing, hk, rfl⟩ := register_ok hs'
  refine ⟨writeEntry existing entry.val, ?_, rfl, rfl⟩
  simp only [step, committed, hs', Except.map, Table.get_put]
  exact if_pos hk.symm

theorem meaningful_step {n : ℕ} {s : Store} {op : Op} (h : Meaningful s) (hc : Compatible s op) :
    Meaningful (step n s op) := by
  by_cases hsame : step n s op = s
  · rw [hsame]
    exact h
  intro o ho eventType hget hversion
  rcases eventTypes_step n s op with htypes | ⟨entry, existing, rfl, hk, hput⟩
  · rw [htypes] at hget
    cases outbox_cases n s op with
    | same hs => exact h o (hs.eventOccurrences ▸ ho) eventType hget hversion
    | call _ _ ho' => exact h o (ho' ▸ ho) eventType hget hversion
    | created now a found fallback _ _ hcheck hi =>
      have hrows := (Table.insert?_eq_some.mp hi).2.2
      rw [← Table.mem_rows, hrows, List.mem_append, List.mem_singleton] at ho
      rcases ho with ho | rfl
      · exact h o ho eventType hget hversion
      · -- the new event has just been checked
        obtain ⟨hfound, -, -, hvalid⟩ := checked_ok hcheck
        have heq : found = eventType := Option.some_inj.mp (hfound.symm.trans hget)
        exact heq ▸ hvalid
  · have ho' : o ∈ s.eventOccurrences := by
      have hsame' : SameOutbox s (step n s (.register entry)) := sameOutbox_step s rfl
      rw [← hsame'.eventOccurrences]
      exact ho
    have hwk : (writeEntry existing entry.val).eventKey = entry.val.eventKey := hk
    rw [hput, Table.get_put, hwk] at hget
    split_ifs at hget with hkey
    · rw [Option.some_inj] at hget
      rw [← hget] at hversion ⊢
      refine hc entry rfl ?_ o ho' hkey hversion.symm
      cases hr : register s entry with
      | ok s' => exact registrable_of_ok hr
      | error e => exact absurd (by simp only [step, committed, hr, Except.map]) hsame
    · exact h o ho' eventType hget hversion

theorem compatible_of_meaningful {n : ℕ} {s : Store} {op : Op} (h : Meaningful (step n s op)) :
    Compatible s op := by
  rintro entry rfl hreg o ho hkey hversion
  obtain ⟨eventType, hget, hv, hschema⟩ := get_register (n := n) hreg
  rw [← hschema]
  refine h o ?_ eventType (by rw [hkey]; exact hget) (hv.trans hversion.symm)
  have hsame : SameOutbox s (step n s (.register entry)) := sameOutbox_step s rfl
  rw [hsame.eventOccurrences]
  exact ho

/-- **Schema versions keep their meaning exactly if registrations are compatible.** Along every run
of requests from a store whose events fit the schemas of their versions, they fit in every state of
the run if and only if no registration that is carried out writes a schema that refuses an event
stored under the same key and version. -/
theorem schema_versions {n : ℕ} {s₀ : Store} (h₀ : Meaningful s₀) (ops : List Op) :
    (∀ pre post, ops = pre ++ post → Meaningful (run (step n) s₀ pre)) ↔
      Along (step n) Compatible s₀ ops := by
  constructor
  · intro h pre op post he
    refine compatible_of_meaningful (n := n) ?_
    have hnext := h (pre ++ [op]) post (by rw [he]; simp)
    rwa [run_concat] at hnext
  · rintro h pre post rfl
    exact run_invariant (I := Meaningful) (fun _ _ hm hc => meaningful_step hm hc) h₀ h.of_append

/-! ### Two samples -/

omit [Runtime] in
/-- The type of the sample again, now with a schema that describes the projects. -/
def sampleDescribed : ValidEntry where
  val :=
    { sampleEntry.val with
      payloadSchema := [("properties", .obj [("projects", .obj [("type", .str "array")])])] }
  property := by decide

omit [Runtime] in
/-- The type of the sample again, now with a field that the events of the version do not have. -/
def sampleStricter : ValidEntry where
  val := { sampleEntry.val with payloadSchema := [("required", .arr [.str "commit"])] }
  property := by decide

omit [Runtime] in
/-- A type is registered, an event is published, and the type is registered again. -/
def sampleOps (entry : ValidEntry) : List Op :=
  [.register sampleEntry, .publish (seconds 20) samplePublish, .register entry]

/-- The events that the schema of their version refuses. -/
def refused (s : Store) : List String :=
  (s.eventOccurrences.rows.filter fun o =>
    match s.eventTypes.get o.eventKey with
    | some eventType => eventType.schemaVersion = o.schemaVersion &&
        (validatePayload eventType.payloadSchema o.data).toOption.isNone
    | none => false).map (·.eventId)

theorem meaningful_iff {s : Store} : Meaningful s ↔ refused s = [] := by
  unfold refused
  rw [List.map_eq_nil_iff, List.filter_eq_nil_iff]
  refine forall₂_congr fun o _ => ?_
  cases s.eventTypes.get o.eventKey with
  | none => simp
  | some eventType =>
    cases hv : validatePayload eventType.payloadSchema o.data <;> simp [hv, Except.toOption]

omit [Runtime] in
/-- A registration that describes what the events have leaves them their meaning; so it was
compatible. -/
theorem schema_versions_sample :
    Along (@step .sample 5) (@Compatible .sample) {} (sampleOps sampleDescribed) := by
  let _ := Runtime.sample
  refine (schema_versions (n := 5) (fun o ho => by cases ho) (sampleOps sampleDescribed)).mp ?_
  have hall : ∀ pre ∈ (sampleOps sampleDescribed).inits, refused (run (step 5) {} pre) = [] := by
    decide
  intro pre post he
  exact meaningful_iff.mpr (hall pre ((List.mem_inits _ _).mpr ⟨post, he.symm⟩))

omit [Runtime] in
/-- **The schema of a version that has been published changes**: the event that was published under
version 1 does not fit the schema that is registered for version 1 now. -/
theorem schema_changes :
    ¬ @Meaningful .sample (run (@step .sample 5) {} (sampleOps sampleStricter)) := by
  let _ := Runtime.sample
  rw [meaningful_iff]
  decide

end EventServer.Core.SchemaVersions
