import EventServer.Services.SubscriptionKeys

/-! # The shape of match keys

What `normalize_match_keys` accepts it returns in increasing order and without repetition, so that
lists of values with the same members have the same result. It accepts lists of match keys, and
more: the `$` of `MATCH_KEY_PATTERN` also matches before a newline at the end of a text
(`canonicalizes_iff`). -/

namespace EventServer.Services.MatchKeyShape

open EventServer.Core.MatchKeys EventServer.Db EventServer.Lib EventServer.Python EventServer.System
open EventServer.Services.SubscriptionKeys EventServer.Services.Subscriptions

/-- A text of 1 to 64 characters of the class. -/
def IsMatchKey (key : String) : Prop :=
  (1 ≤ key.length ∧ key.length ≤ 64) ∧ ∀ c ∈ key.toList, isMatchKeyChar c = true

/-- A match key, perhaps with a newline after it. -/
def Loose (key : String) : Prop := ∃ body, IsMatchKey body ∧ (key = body ∨ key = body ++ "\n")

/-- There are no more texts among the values than the maximum. -/
def Few (values : List Json) : Prop :=
  ∀ keys : List String, keys.Nodup → (∀ k ∈ keys, Json.str k ∈ values) → keys.length ≤ maxMatchKeys

/-! ### The pattern -/

theorem not_mem_newline {key : String} (h : IsMatchKey key) : '\n' ∉ key.toList := by
  intro hmem
  exact absurd (h.2 _ hmem) (by decide)

theorem getLast?_ne_newline {key : String} (h : IsMatchKey key) : key.toList.getLast? ≠ some '\n' :=
  fun hlast => not_mem_newline h (List.mem_of_getLast? hlast)

theorem isMatchKey_ofList {body : List Char} : IsMatchKey (String.ofList body) ↔
    (1 ≤ body.length ∧ body.length ≤ 64) ∧ ∀ c ∈ body, isMatchKeyChar c = true := by
  unfold IsMatchKey
  rw [String.toList_ofList, String.length_ofList]

/-- **The pattern** matches a match key, and a match key with a newline after it. -/
theorem matchKeyPattern_iff {key : String} : matchKeyPattern key = true ↔ Loose key := by
  have hbody : ∀ body : List Char,
      (1 ≤ body.length && body.length ≤ 64 && body.all isMatchKeyChar) = true ↔
        IsMatchKey (String.ofList body) := by
    intro body
    rw [isMatchKey_ofList]
    simp
  unfold matchKeyPattern
  simp only [hbody]
  constructor
  · intro h
    split_ifs at h with hlast
    · refine ⟨_, h, Or.inr ?_⟩
      obtain ⟨init, hinit⟩ := List.getLast?_eq_some_iff.mp hlast
      rw [← String.toList_inj, String.toList_append, String.toList_ofList, hinit,
        List.dropLast_concat]
      rfl
    · exact ⟨_, h, Or.inl (String.ofList_toList).symm⟩
  · rintro ⟨body, h, rfl | rfl⟩
    · rw [if_neg (getLast?_ne_newline h), String.ofList_toList]
      exact h
    · have happend : (body ++ "\n").toList = body.toList ++ ['\n'] := String.toList_append
      rw [happend, List.getLast?_concat, if_pos rfl, List.dropLast_concat, String.ofList_toList]
      exact h

theorem loose_of_isMatchKey {key : String} (h : IsMatchKey key) : Loose key := ⟨key, h, Or.inl rfl⟩

variable [Runtime]

/-! ### The values that are collected -/

theorem collectMatchKeys_isOk {values : List Json} (normalized : List String) :
    (∃ keys, collectMatchKeys values normalized = .ok keys) ↔
      ∀ v ∈ values, ∃ key, v = .str key ∧ Loose key := by
  induction values generalizing normalized with
  | nil => simp [collectMatchKeys]
  | cons value values ih =>
    rw [List.forall_mem_cons]
    cases value with
    | str value =>
      simp only [collectMatchKeys, Json.str.injEq, exists_eq_left']
      by_cases hp : matchKeyPattern value = true
      · rw [if_pos hp, ih]
        simp [matchKeyPattern_iff.mp hp]
      · have hloose : ¬ Loose value := fun h => hp (matchKeyPattern_iff.mpr h)
        rw [if_neg hp]
        simp [hloose]
    | null | bool _ | int _ | float _ | arr _ | obj _ => simp [collectMatchKeys]

theorem mem_collectMatchKeys {values : List Json} {normalized keys : List String}
    (h : collectMatchKeys values normalized = .ok keys) (k : String) :
    k ∈ keys ↔ k ∈ normalized ∨ Json.str k ∈ values := by
  induction values generalizing normalized with
  | nil =>
    cases h
    simp
  | cons value values ih =>
    cases value with
    | str value =>
      simp only [collectMatchKeys] at h
      split_ifs at h with hp hm
      · rw [ih h, List.mem_cons, Json.str.injEq]
        constructor
        · rintro (hk | hk)
          · exact Or.inl hk
          · exact Or.inr (Or.inr hk)
        · rintro (hk | rfl | hk)
          · exact Or.inl hk
          · exact Or.inl hm
          · exact Or.inr hk
      · rw [ih h, List.mem_append, List.mem_singleton, List.mem_cons, Json.str.injEq, or_assoc]
    | null | bool _ | int _ | float _ | arr _ | obj _ => simp [collectMatchKeys] at h

theorem normalizeMatchKeys_ok {values : List Json} {keys : List String}
    (h : normalizeMatchKeys (some values) = .ok keys) :
    keys.Pairwise (· < ·) ∧ ∀ k, k ∈ keys ↔ Json.str k ∈ values := by
  obtain ⟨hsorted, hnodup⟩ := canonical_normalizeMatchKeys h
  refine ⟨(hsorted.and hnodup).imp fun ⟨hle, hne⟩ => lt_of_le_of_ne hle hne, fun k => ?_⟩
  unfold normalizeMatchKeys at h
  cases hc : collectMatchKeys values [] with
  | error e => simp [hc] at h
  | ok normalized =>
    simp only [hc] at h
    split_ifs at h
    cases h
    unfold sortedStr
    rw [List.mem_insertionSort, mem_collectMatchKeys hc]
    simp

theorem normalizeMatchKeys_isOk {values : List Json} :
    (∃ keys, normalizeMatchKeys (some values) = .ok keys) ↔
      (∀ v ∈ values, ∃ key, v = .str key ∧ Loose key) ∧ Few values := by
  rw [← collectMatchKeys_isOk []]
  unfold normalizeMatchKeys
  cases hc : collectMatchKeys values [] with
  | error e => simp [hc]
  | ok normalized =>
    have hnodup := nodup_collectMatchKeys hc List.nodup_nil
    have hmem : ∀ k, k ∈ normalized ↔ Json.str k ∈ values := fun k => by
      rw [mem_collectMatchKeys hc]
      simp
    have hfew : Few values ↔ normalized.length ≤ maxMatchKeys := by
      constructor
      · exact fun h => h normalized hnodup fun k hk => (hmem k).mp hk
      · intro hle keys hn hk
        have hsub : keys ⊆ normalized := fun k h => (hmem k).mpr (hk k h)
        exact (List.subperm_of_subset hn hsub).length_le.trans hle
    simp only [hc, hfew, Except.ok.injEq, exists_eq', true_and]
    by_cases hmax : normalized.length > maxMatchKeys
    · rw [if_pos hmax]
      exact iff_of_false (by simp) (not_le.mpr hmax)
    · rw [if_neg hmax]
      exact iff_of_true ⟨_, rfl⟩ (not_lt.mp hmax)

theorem normalizeMatchKeys_eq_iff {values values' : List Json} {keys keys' : List String}
    (h : normalizeMatchKeys (some values) = .ok keys)
    (h' : normalizeMatchKeys (some values') = .ok keys') :
    keys = keys' ↔ ∀ v, v ∈ values ↔ v ∈ values' := by
  obtain ⟨hlt, hmem⟩ := normalizeMatchKeys_ok h
  obtain ⟨hlt', hmem'⟩ := normalizeMatchKeys_ok h'
  have htexts := (normalizeMatchKeys_isOk.mp ⟨keys, h⟩).1
  have htexts' := (normalizeMatchKeys_isOk.mp ⟨keys', h'⟩).1
  constructor
  · rintro rfl v
    constructor
    · intro hv
      obtain ⟨key, rfl, -⟩ := htexts v hv
      exact (hmem' key).mp ((hmem key).mpr hv)
    · intro hv
      obtain ⟨key, rfl, -⟩ := htexts' v hv
      exact (hmem key).mp ((hmem' key).mpr hv)
  · intro hsame
    exact hlt.eq_of_mem_iff hlt' fun k => by rw [hmem, hmem', hsame]

theorem normalizeMatchKeys_congr {values values' : List Json}
    (hsame : ∀ v, v ∈ values ↔ v ∈ values') {keys : List String}
    (h : normalizeMatchKeys (some values) = .ok keys) :
    normalizeMatchKeys (some values') = .ok keys := by
  obtain ⟨htexts, hfew⟩ := normalizeMatchKeys_isOk.mp ⟨keys, h⟩
  have hok : ∃ keys', normalizeMatchKeys (some values') = .ok keys' :=
    normalizeMatchKeys_isOk.mpr ⟨fun v hv => htexts v ((hsame v).mpr hv),
      fun ks hn hks => hfew ks hn fun k hk => (hsame _).mpr (hks k hk)⟩
  obtain ⟨keys', h'⟩ := hok
  rw [h', (normalizeMatchKeys_eq_iff h h').mpr hsame]

theorem normalizeMatchKeys_idem {values : List Json} {keys : List String}
    (h : normalizeMatchKeys (some values) = .ok keys) :
    normalizeMatchKeys (some (keys.map .str)) = .ok keys := by
  refine normalizeMatchKeys_congr (fun v => ?_) h
  have hmem := (normalizeMatchKeys_ok h).2
  rw [List.mem_map]
  constructor
  · intro hv
    obtain ⟨key, rfl, -⟩ := (normalizeMatchKeys_isOk.mp ⟨keys, h⟩).1 v hv
    exact ⟨key, (hmem key).mpr hv, rfl⟩
  · rintro ⟨key, hk, rfl⟩
    exact (hmem key).mp hk

/-! ### The flag of a subscription -/

theorem updated_iff {s : Store} {a : Subscribe} {r : Store × Subscribed}
    (h : subscribe s a = .ok r) : r.2.updated = true ↔
      ∃ existing, s.subscriptions.get (Subscription.key r.2.item) = some existing ∧
        existing.matchKeys ≠ r.2.item.matchKeys := by
  obtain ⟨event, requested, -, he, -, -, hitem, hupdated⟩ := subscribe_stored h
  obtain ⟨event', -, -, he', -, -, hkey, -⟩ := subscribe_ok h
  cases he.symm.trans he'
  rw [hupdated, hkey, hitem]

/-- **The flag is exact** in every reachable state: it is set if the keys that were stored are
others than those of the request. -/
theorem updated_exact {n : ℕ} {s₀ : Store} (h₀ : s₀.subscriptions.rows = []) (ops : List Op)
    {a : Subscribe} {r : Store × Subscribed} {values : List Json}
    (ha : a.matchKeys.map (·.map .str) = some values)
    (h : subscribe (run (step n) s₀ ops) a = .ok r) : r.2.updated = true ↔
      ∃ existing, (run (step n) s₀ ops).subscriptions.get (Subscription.key r.2.item) =
        some existing ∧ ¬ ∀ k, k ∈ existing.matchKeys ↔ Json.str k ∈ values := by
  rw [updated_iff h]
  obtain ⟨event, requested, -, -, hr, -, -, hkeys⟩ := subscribe_ok h
  have hn := (requestedMatchKeys_checked hr).1
  rw [ha] at hn
  obtain ⟨hlt, hmem⟩ := normalizeMatchKeys_ok hn
  rw [hkeys]
  refine exists_congr fun existing => and_congr_right fun hg => not_congr ?_
  obtain ⟨hsorted, hnodup⟩ := (subscriptions_within h₀ (Table.mem_of_get hg)).1
  have hlt' : existing.matchKeys.Pairwise (· < ·) :=
    (hsorted.and hnodup).imp fun ⟨hle, hne⟩ => lt_of_le_of_ne hle hne
  constructor
  · rintro he k
    rw [he, hmem]
  · intro hall
    exact hlt'.eq_of_mem_iff hlt fun k => by rw [hall, hmem]

/-! ### The normal form -/

/-- The values are accepted if they are match keys and few, and their result is a normal form. -/
structure Canonicalizes (values : List Json) : Prop where
  accepts : (∃ keys, normalizeMatchKeys (some values) = .ok keys) ↔
    (∀ v ∈ values, ∃ key, v = .str key ∧ IsMatchKey key) ∧ Few values
  members : ∀ keys, normalizeMatchKeys (some values) = .ok keys →
    keys.Pairwise (· < ·) ∧ ∀ k, k ∈ keys ↔ Json.str k ∈ values
  invariant : ∀ values', (∀ v, v ∈ values ↔ v ∈ values') → ∀ keys,
    normalizeMatchKeys (some values) = .ok keys ↔ normalizeMatchKeys (some values') = .ok keys
  idempotent : ∀ keys, normalizeMatchKeys (some values) = .ok keys →
    normalizeMatchKeys (some (keys.map .str)) = .ok keys
  equal : ∀ values' keys keys', normalizeMatchKeys (some values) = .ok keys →
    normalizeMatchKeys (some values') = .ok keys' → (keys = keys' ↔ ∀ v, v ∈ values ↔ v ∈ values')
  updated : ∀ (n : ℕ) (s₀ : Store) (ops : List Op) (a : Subscribe) (r : Store × Subscribed),
    s₀.subscriptions.rows = [] → a.matchKeys.map (·.map .str) = some values →
    subscribe (run (step n) s₀ ops) a = .ok r → (r.2.updated = true ↔
      ∃ existing, (run (step n) s₀ ops).subscriptions.get (Subscription.key r.2.item) =
        some existing ∧ ¬ ∀ k, k ∈ existing.matchKeys ↔ Json.str k ∈ values)

/-- **Match keys are normalized canonically**, unless all values are match keys up to a newline at
the end and one of them has a newline. -/
theorem canonicalizes_iff (values : List Json) : Canonicalizes values ↔
    ¬ ((∀ v ∈ values, ∃ key, v = .str key ∧ Loose key) ∧ Few values ∧
      ∃ key, IsMatchKey key ∧ Json.str (key ++ "\n") ∈ values) := by
  constructor
  · rintro h ⟨hloose, hfew, key, -, hmem⟩
    obtain ⟨key', he, hkey'⟩ := (h.accepts.mp (normalizeMatchKeys_isOk.mpr ⟨hloose, hfew⟩)).1 _ hmem
    cases he
    refine not_mem_newline hkey' ?_
    rw [String.toList_append]
    exact List.mem_append_right _ List.mem_cons_self
  · intro h
    refine ⟨?_, fun _ => normalizeMatchKeys_ok, fun values' hsame keys => ?_,
      fun _ => normalizeMatchKeys_idem, fun _ _ _ => normalizeMatchKeys_eq_iff,
      fun _ _ ops _ _ h₀ ha hr => updated_exact h₀ ops ha hr⟩
    · rw [normalizeMatchKeys_isOk]
      constructor
      · rintro ⟨hloose, hfew⟩
        refine ⟨fun v hv => ?_, hfew⟩
        obtain ⟨key, rfl, body, hbody, rfl | rfl⟩ := hloose v hv
        · exact ⟨_, rfl, hbody⟩
        · exact absurd ⟨hloose, hfew, body, hbody, hv⟩ h
      · rintro ⟨hkeys, hfew⟩
        refine ⟨fun v hv => ?_, hfew⟩
        obtain ⟨key, rfl, hkey⟩ := hkeys v hv
        exact ⟨key, rfl, loose_of_isMatchKey hkey⟩
    · exact ⟨normalizeMatchKeys_congr hsame, normalizeMatchKeys_congr fun v => (hsame v).symm⟩

omit [Runtime] in
/-- **A key with a newline is accepted.** -/
theorem not_canonicalizes :
    let _ := Runtime.sample
    normalizeMatchKeys (some [.str "core\n"]) = .ok ["core\n"] ∧
      ¬ Canonicalizes [.str "core\n"] := by
  let _ := Runtime.sample
  have hok : normalizeMatchKeys (some [.str "core\n"]) = .ok ["core\n"] := by decide
  refine ⟨hok, fun h => ?_⟩
  obtain ⟨key, he, hkey⟩ := (h.accepts.mp ⟨_, hok⟩).1 _ List.mem_cons_self
  cases he
  exact not_mem_newline hkey (by decide)

end EventServer.Services.MatchKeyShape
