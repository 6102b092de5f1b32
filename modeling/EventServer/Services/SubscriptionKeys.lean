import Mathlib.Data.String.Basic
import EventServer.System

/-! # Match keys and the catalog

A subscription is checked against its event type when it is written and never again. So its match
keys are sorted and without repetition in every state, and within the catalog of the moment it was
last written (`subscriptions_within`); within the catalog of today they are as long as no
registration withdraws a key or turns the requirement on (`within_step`). -/

namespace EventServer.Services.SubscriptionKeys

open EventServer.Db EventServer.Lib EventServer.Python EventServer.System
open EventServer.Core.MatchKeys EventServer.Services.Subscriptions EventServer.CatalogAdmin

/-- Sorted and without repetition. -/
def Canonical (keys : List String) : Prop := keys.Pairwise (· ≤ ·) ∧ keys.Nodup

/-- Every key is declared by the event type, and there is one if it requires one. -/
def WithinCatalog (event : EventType) (keys : List String) : Prop :=
  (∀ k ∈ keys, k ∈ allowedMatchKeys event.matchKeyOptions) ∧
    (event.matchKeysRequired = true → keys ≠ [])

variable [Runtime]

/-! ### What a subscription is checked for -/

theorem nodup_collectMatchKeys {values : List Json} {normalized keys : List String}
    (h : collectMatchKeys values normalized = .ok keys) (hn : normalized.Nodup) : keys.Nodup := by
  induction values generalizing normalized with
  | nil =>
    cases h
    exact hn
  | cons value values ih =>
    cases value with
    | str value =>
      simp only [collectMatchKeys] at h
      split_ifs at h with hp hm
      · exact ih h hn
      · refine ih h (List.Nodup.append hn (List.nodup_singleton value) ?_)
        simpa using hm
    | null | bool | int | float | arr | obj => simp [collectMatchKeys] at h

theorem canonical_normalizeMatchKeys {values : Option (List Json)} {keys : List String}
    (h : normalizeMatchKeys values = .ok keys) : Canonical keys := by
  unfold normalizeMatchKeys at h
  cases values with
  | none =>
    cases h
    exact ⟨List.Pairwise.nil, List.nodup_nil⟩
  | some values =>
    cases hc : collectMatchKeys values [] with
    | error e => simp [hc] at h
    | ok normalized =>
      simp only [hc] at h
      split_ifs at h
      cases h
      refine ⟨List.pairwise_insertionSort _ _, ?_⟩
      exact (List.perm_insertionSort _ normalized).nodup_iff.mpr
        (nodup_collectMatchKeys hc List.nodup_nil)

omit [Runtime] in
theorem ensureMatchKeysAllowed_ok {values allowed : List String}
    (h : ensureMatchKeysAllowed values allowed = .ok ()) : ∀ k ∈ values, k ∈ allowed := by
  unfold ensureMatchKeysAllowed at h
  split at h
  · rename_i hf
    rw [List.filter_eq_nil_iff] at hf
    intro k hk
    simpa using hf k hk
  · cases h

/-- The keys of a request are normalized, allowed, and there if they are required. -/
theorem requestedMatchKeys_checked {event : EventType} {matchKeys : Option (List String)}
    {keys : List String} (h : requestedMatchKeys event matchKeys = .ok keys) :
    normalizeMatchKeys (matchKeys.map (·.map .str)) = .ok keys ∧
      ensureMatchKeysAllowed keys (allowedMatchKeys event.matchKeyOptions) = .ok () ∧
      ¬ (event.matchKeysRequired = true ∧ keys = []) := by
  unfold requestedMatchKeys at h
  cases hn : normalizeMatchKeys (matchKeys.map (·.map .str)) with
  | error e => simp [hn] at h
  | ok requested =>
    cases ha : ensureMatchKeysAllowed requested (allowedMatchKeys event.matchKeyOptions) with
    | error e => simp [hn, ha] at h
    | ok u =>
      simp only [hn, ha] at h
      split_ifs at h with hr
      cases h
      exact ⟨rfl, ha, hr⟩

theorem requestedMatchKeys_ok {event : EventType} {matchKeys : Option (List String)}
    {keys : List String} (h : requestedMatchKeys event matchKeys = .ok keys) :
    Canonical keys ∧ WithinCatalog event keys := by
  obtain ⟨hn, ha, hr⟩ := requestedMatchKeys_checked h
  exact ⟨canonical_normalizeMatchKeys hn, ensureMatchKeysAllowed_ok ha,
    fun hreq he => hr ⟨hreq, he⟩⟩

omit [Runtime] in
theorem get_of_resolveEvent {s : Store} {eventKey : String} {event : EventType}
    (h : resolveEvent s eventKey = .ok event) : s.eventTypes.get event.eventKey = some event := by
  have hmem : ∀ k e, s.eventTypes.get k = some e → s.eventTypes.get e.eventKey = some e := by
    intro k e he
    rwa [(Table.key_of_get he : e.eventKey = k)]
  simp only [resolveEvent] at h
  split at h
  · cases h
  · rename_i e he
    split_ifs at h
    cases h
    split at he
    · rename_i e' hg
      cases he
      exact hmem _ _ hg
    · split at he
      · exact hmem _ _ he
      · cases he

/-! ### What a request does to the subscriptions -/

/-- The request stores the subscription with the key `key`. -/
def Writes (s : Store) (op : Op) (key : String × String × String) : Prop :=
  ∃ a r, op = .subscribe a ∧ subscribe s a = .ok r ∧ Subscription.key r.2.item = key

/-- The ways a request can act on the subscriptions. -/
inductive SubscriptionStep (n : ℕ) (s : Store) (op : Op) : Prop
  | same (h : (step n s op).subscriptions = s.subscriptions) (hw : ∀ key, ¬ Writes s op key)
  | write (a : Subscribe) (r : Store × Subscribed) (he : op = .subscribe a)
    (hr : subscribe s a = .ok r)
    (h : (step n s op).subscriptions = s.subscriptions.put r.2.item)
  | erase (key : String × String × String)
    (h : (step n s op).subscriptions = s.subscriptions.erase key) (hw : ∀ key, ¬ Writes s op key)

theorem subscription_cases (n : ℕ) (s : Store) (op : Op) : SubscriptionStep n s op := by
  cases op with
  | subscribe a =>
    cases hr : subscribe s a with
    | error e =>
      refine .same (by simp only [step, committed, hr]) ?_
      rintro key ⟨a', r, he, hr', -⟩
      cases he
      rw [hr] at hr'
      cases hr'
    | ok r =>
      obtain ⟨_, _, -, -, -, h, -⟩ := subscribe_ok hr
      exact .write a r rfl hr (by simp only [step, committed, hr, h])
  | unsubscribe a =>
    have hw : ∀ key, ¬ Writes s (.unsubscribe a) key := by
      rintro key ⟨a', r, he, -⟩
      cases he
    cases hr : unsubscribe s a with
    | error e => exact .same (by simp only [step, committed, hr]) hw
    | ok r =>
      rcases unsubscribe_ok hr with h | ⟨eventKey, h⟩
      · exact .same (by simp only [step, committed, hr, h]) hw
      · exact .erase (a.platform, a.openid, eventKey) (by simp only [step, committed, hr, h]) hw
  | register entry =>
    refine .same ?_ (by rintro key ⟨a', r, he, -⟩; cases he)
    refine committed_cases (P := fun s' => s'.subscriptions = s.subscriptions) rfl fun r hr => ?_
    obtain ⟨_, -, h'⟩ := register_ok (registered_ok hr)
    rw [h']
  | publish | claim | ack | fail =>
    exact .same (sameCatalog_step s rfl).subscriptions (by rintro key ⟨a', r, he, -⟩; cases he)
  | setPermissions | changeRole | createPairingCode | approvePairingCode | bootstrapFirstAdmin
  | setAccountStatus =>
    exact .same (sameEvents_step s rfl).subscriptions (by rintro key ⟨a', r, he, -⟩; cases he)

/-! ### Since a subscription was written -/

/-- The last request of the run that stored the subscription with the key of `sub` stored `sub`,
with match keys within the catalog as it was then. -/
def WrittenWithin (n : ℕ) (s₀ : Store) (ops : List Op) (sub : Subscription) : Prop :=
  ∃ (pre : List Op) (a : Subscribe) (post : List Op) (r : Store × Subscribed) (event : EventType),
    ops = pre ++ .subscribe a :: post ∧ subscribe (run (step n) s₀ pre) a = .ok r ∧
    r.2.item = sub ∧ (run (step n) s₀ pre).eventTypes.get sub.eventKey = some event ∧
    WithinCatalog event sub.matchKeys ∧
    Along (step n) (fun s op => ¬ Writes s op (Subscription.key sub))
      (run (step n) s₀ (pre ++ [.subscribe a])) post

theorem WrittenWithin.concat {n : ℕ} {s₀ : Store} {ops : List Op} {sub : Subscription} {op : Op}
    (h : WrittenWithin n s₀ ops sub)
    (hw : ¬ Writes (run (step n) s₀ ops) op (Subscription.key sub)) :
    WrittenWithin n s₀ (ops ++ [op]) sub := by
  obtain ⟨pre, a, post, r, event, rfl, hr, hi, hg, hc, hal⟩ := h
  refine ⟨pre, a, post ++ [op], r, event, by simp, hr, hi, hg, hc, along_concat.mpr ⟨hal, ?_⟩⟩
  rw [← run_append]
  simpa using hw

theorem subscribe_within {s : Store} {a : Subscribe} {r : Store × Subscribed}
    (h : subscribe s a = .ok r) : Canonical r.2.item.matchKeys ∧
      ∃ event, s.eventTypes.get r.2.item.eventKey = some event ∧
        WithinCatalog event r.2.item.matchKeys := by
  obtain ⟨event, requested, -, he, hk, -, hkey, hm⟩ := subscribe_ok h
  obtain ⟨hcan, hin⟩ := requestedMatchKeys_ok hk
  have hek : r.2.item.eventKey = event.eventKey := by
    have := congrArg (fun k => k.2.2) hkey
    exact this
  rw [hm, hek]
  exact ⟨hcan, event, get_of_resolveEvent he, hin⟩

/-- **Every subscription** of a run was within the catalog when it was written. -/
theorem subscriptions_within {n : ℕ} {s₀ : Store} (h₀ : s₀.subscriptions.rows = []) {ops : List Op}
    {sub : Subscription} (h : sub ∈ (run (step n) s₀ ops).subscriptions) :
    Canonical sub.matchKeys ∧ WrittenWithin n s₀ ops sub := by
  induction ops using List.reverseRecOn with
  | nil =>
    rw [run_nil, ← Table.mem_rows, h₀] at h
    exact absurd h List.not_mem_nil
  | append_singleton ops op ih =>
    have old (hm : sub ∈ (run (step n) s₀ ops).subscriptions)
        (hw : ¬ Writes (run (step n) s₀ ops) op (Subscription.key sub)) :
        Canonical sub.matchKeys ∧ WrittenWithin n s₀ (ops ++ [op]) sub :=
      ⟨(ih hm).1, (ih hm).2.concat hw⟩
    rw [run_concat] at h
    cases subscription_cases n (run (step n) s₀ ops) op with
    | same hs hw => exact old (by rwa [hs] at h) (hw _)
    | erase key hs hw =>
      rw [hs, Table.mem_erase] at h
      exact old h.1 (hw _)
    | write a r he hr hs =>
      subst he
      rw [hs, Table.mem_put] at h
      rcases h with rfl | ⟨hm, hne⟩
      · obtain ⟨hcan, event, hg, hin⟩ := subscribe_within hr
        exact ⟨hcan, ops, a, [], r, event, rfl, hr, rfl, hg, hin, along_nil⟩
      · refine old hm ?_
        rintro ⟨a', r', he', hr', hk⟩
        cases he'
        rw [hr] at hr'
        cases hr'
        exact hne hk.symm

/-! ### Against the catalog of today -/

/-- The request does not withdraw a match key from a registered event type, or start to require
one. -/
def KeepsCatalog (s : Store) (op : Op) : Prop :=
  ∀ entry old, op = .register entry → s.eventTypes.get entry.val.eventKey = some old →
    (∀ k ∈ allowedMatchKeys old.matchKeyOptions, k ∈ entry.val.matchKeyOptions.map (·.key)) ∧
      (entry.val.matchKeysRequired = true → old.matchKeysRequired = true)

omit [Runtime] in
theorem mem_allowedMatchKeys (entry : ValidEntry) {k : String}
    (h : k ∈ entry.val.matchKeyOptions.map (·.key)) :
    k ∈ allowedMatchKeys (entry.val.matchKeyOptions.map MatchKeyOption.modelDump) := by
  obtain ⟨o, ho, rfl⟩ := List.mem_map.mp h
  have hlen : 1 ≤ o.key.length := by
    have hv := entry.property
    simp only [CatalogEntry.valid, CatalogEntry.fieldsValid, Bool.and_eq_true, List.all_eq_true,
      decide_eq_true_eq] at hv
    exact (hv.1.2 o ho).1.1.1.1
  have hne : o.key ≠ "" := by
    intro he
    rw [he] at hlen
    cases hlen
  unfold allowedMatchKeys
  rw [List.mem_filterMap]
  refine ⟨o.modelDump, List.mem_map_of_mem ho, ?_⟩
  simp [MatchKeyOption.modelDump, optionKey?, hne]

omit [Runtime] in
/-- Every subscription is within the catalog. -/
def Within (s : Store) : Prop :=
  ∀ sub ∈ s.subscriptions, ∃ event, s.eventTypes.get sub.eventKey = some event ∧
    WithinCatalog event sub.matchKeys

theorem eventTypes_step (n : ℕ) (s : Store) (op : Op) :
    (step n s op).eventTypes = s.eventTypes ∨
      ∃ entry existing, op = .register entry ∧ existing.eventKey = entry.val.eventKey ∧
        (step n s op).eventTypes = s.eventTypes.put (writeEntry existing entry.val) := by
  cases op with
  | register entry =>
    cases h : register s entry with
    | error e => left; simp only [step, committed, h, Except.map]
    | ok s' =>
      right
      obtain ⟨existing, hk, rfl⟩ := register_ok h
      exact ⟨entry, existing, rfl, hk, by simp only [step, committed, h, Except.map]⟩
  | subscribe a =>
    left
    refine committed_cases (P := fun s' => s'.eventTypes = s.eventTypes) rfl fun r hr => ?_
    obtain ⟨_, _, -, -, -, h, -⟩ := subscribe_ok hr
    rw [h]
  | unsubscribe a =>
    left
    refine committed_cases (P := fun s' => s'.eventTypes = s.eventTypes) rfl fun r hr => ?_
    rcases unsubscribe_ok hr with h | ⟨_, h⟩ <;> rw [h]
  | publish | claim | ack | fail => exact Or.inl (sameCatalog_step s rfl).eventTypes
  | setPermissions | changeRole | createPairingCode | approvePairingCode | bootstrapFirstAdmin
  | setAccountStatus => exact Or.inl (sameEvents_step s rfl).eventTypes

theorem within_step {n : ℕ} {s : Store} {op : Op} (h : Within s) (hk : KeepsCatalog s op) :
    Within (step n s op) := by
  have hevents : ∀ key keys, (∃ event, s.eventTypes.get key = some event ∧
      WithinCatalog event keys) →
      ∃ event, (step n s op).eventTypes.get key = some event ∧ WithinCatalog event keys := by
    rintro key keys ⟨event, hg, hin, hreq⟩
    rcases eventTypes_step n s op with he | ⟨entry, existing, he, hex, hput⟩
    · exact ⟨event, by rw [he]; exact hg, hin, hreq⟩
    · by_cases hkey : key = entry.val.eventKey
      · subst hkey
        obtain ⟨hkeep, hnot⟩ := hk entry event he hg
        have hwk : (writeEntry existing entry.val).eventKey = entry.val.eventKey := hex
        refine ⟨writeEntry existing entry.val, by rw [hput, Table.get_put, if_pos hwk.symm], ?_, ?_⟩
        · exact fun k hkm => mem_allowedMatchKeys entry (hkeep k (hin k hkm))
        · exact fun hr => hreq (hnot hr)
      · have hwk : (writeEntry existing entry.val).eventKey = entry.val.eventKey := hex
        exact ⟨event, by rw [hput, Table.get_put, if_neg (by rw [hwk]; exact hkey)]; exact hg,
          hin, hreq⟩
  intro sub hsub
  refine hevents _ _ ?_
  cases subscription_cases n s op with
  | same hs => exact h sub (by rwa [hs] at hsub)
  | erase key hs =>
    rw [hs, Table.mem_erase] at hsub
    exact h sub hsub.1
  | write a r he hr hs =>
    rw [hs, Table.mem_put] at hsub
    rcases hsub with rfl | ⟨hm, -⟩
    · exact (subscribe_within hr).2
    · exact h sub hm

/-- **Subscriptions stay within the catalog they were written under.** In every state of a run from
a store without subscriptions each has match keys that are sorted and without repetition and were
within the catalog at the request that wrote it last; if no registration of the run withdraws a key
or starts to require one, they are within the catalog of that state. -/
theorem match_keys_within_catalog {n : ℕ} {s₀ : Store} (h₀ : s₀.subscriptions.rows = [])
    (ops : List Op) :
    (∀ sub ∈ (run (step n) s₀ ops).subscriptions,
      Canonical sub.matchKeys ∧ WrittenWithin n s₀ ops sub) ∧
    (Along (step n) KeepsCatalog s₀ ops → Within (run (step n) s₀ ops)) := by
  refine ⟨fun sub h => subscriptions_within h₀ h, fun hk => ?_⟩
  refine run_invariant (fun s op => within_step) ?_ hk
  intro sub hsub
  rw [← Table.mem_rows, h₀] at hsub
  exact absurd hsub List.not_mem_nil

/-! ### A registration that withdraws a key -/

omit [Runtime] in
/-- The event type of the sample without the project `core`, and with a key required. -/
def sampleReentry : ValidEntry where
  val :=
    { eventKey := "build.pipeline.failed", displayName := "Build failed",
      matchKeyField := some "projects", matchKeyOptions := [⟨"docs", "Docs"⟩],
      matchKeysRequired := true }
  property := by decide

omit [Runtime] in
/-- `root` subscribes to everything, then the event type is registered again. -/
def sampleReregistration : List Op :=
  sampleSetup ++
    [.subscribe { platform := "qqbot", openid := "root", eventKey := "build.pipeline.failed" },
      .register sampleReentry]

omit [Runtime] in
theorem match_keys_within_catalog_sample :
    (∀ sub ∈ (run (@step .sample 5) {} sampleReregistration).subscriptions,
      Canonical sub.matchKeys ∧ @WrittenWithin .sample 5 {} sampleReregistration sub) ∧
    (Along (@step .sample 5) KeepsCatalog {} sampleReregistration →
      Within (run (@step .sample 5) {} sampleReregistration)) :=
  @match_keys_within_catalog .sample 5 {} rfl sampleReregistration

omit [Runtime] in
/-- Afterwards `alice` watches a key that is not declared, and `root` watches none although one is
required. -/
theorem subscribed_beyond_catalog :
    (∃ sub ∈ (run (@step .sample 5) {} sampleReregistration).subscriptions.rows, ∃ event,
      (run (@step .sample 5) {} sampleReregistration).eventTypes.get sub.eventKey = some event ∧
        ∃ k ∈ sub.matchKeys, k ∉ allowedMatchKeys event.matchKeyOptions) ∧
    ∃ sub ∈ (run (@step .sample 5) {} sampleReregistration).subscriptions.rows, ∃ event,
      (run (@step .sample 5) {} sampleReregistration).eventTypes.get sub.eventKey = some event ∧
        event.matchKeysRequired = true ∧ sub.matchKeys = [] := by
  decide

end EventServer.Services.SubscriptionKeys
