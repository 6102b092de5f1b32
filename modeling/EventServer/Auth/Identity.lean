import EventServer.PublisherAdmin
import EventServer.Lib.Runs
import Mathlib.Logic.Equiv.Basic

/-! # The identity behind a token

A token belongs to the publisher it was given to last (`last_of_mem`). The table of publishers does
not keep two publishers from having the same digest, though, and a request is answered for the first
row that has it. So a token identifies its publisher as long as no publisher is given a token that
another one has at that moment (`identity_unshared`). -/

namespace EventServer.Auth.Identity

open EventServer.Auth.Publisher EventServer.PublisherAdmin EventServer.Lib EventServer.Python

/-- The checks of `upsert`. -/
def accepted (a : Upsert) : Bool :=
  isPublisherKey a.publisherKey && 32 ≤ a.token.length && a.prefixes ≠ [] &&
    a.prefixes.all fun p => isNamespace p

/-- The last call of the tool for a publisher that was carried out. -/
def LastUpsert (key : String) (as : List Upsert) (a : Upsert) : Prop :=
  ∃ pre post, as = pre ++ a :: post ∧ a.publisherKey = key ∧ accepted a = true ∧
    ∀ a' ∈ post, a'.publisherKey = key → accepted a' = false

variable [Runtime]

theorem upsert_eq (publishers : EventPublishers) (a : Upsert) :
    (accepted a = true ∧ upsert publishers a = .ok (publishers.put a.row)) ∨
      accepted a = false ∧ ∃ e, upsert publishers a = .error e := by
  cases h : upsert publishers a with
  | ok publishers' =>
    obtain ⟨hkey, htoken, hne, hprefixes, rfl⟩ := upsert_ok h
    refine Or.inl ⟨?_, rfl⟩
    simp only [accepted, hkey, htoken, Bool.and_eq_true, decide_eq_true_eq, List.all_eq_true]
    exact ⟨⟨⟨trivial, trivial⟩, hne⟩, hprefixes⟩
  | error e =>
    refine Or.inr ⟨?_, e, rfl⟩
    by_contra hacc
    rw [Bool.not_eq_false] at hacc
    simp only [accepted, Bool.and_eq_true, decide_eq_true_eq, List.all_eq_true] at hacc
    obtain ⟨⟨⟨hkey, htoken⟩, hne⟩, hprefixes⟩ := hacc
    have hany : a.prefixes.any (fun p => !isNamespace p) = false := by
      rw [List.any_eq_false]
      intro p hp
      rw [hprefixes p hp]
      decide
    have hok : upsert publishers a = .ok (publishers.put a.row) := by
      unfold upsert
      rw [if_neg (by simp [hkey]), if_neg (not_lt.mpr htoken), if_neg (by simp [hne, hany])]
    rw [hok] at h
    cases h

/-- The publishers after a call of the tool. -/
def step (publishers : EventPublishers) (a : Upsert) : EventPublishers :=
  match upsert publishers a with
  | .ok publishers => publishers
  | .error _ => publishers

theorem mem_step {publishers : EventPublishers} {a : Upsert} {r : EventPublisher} :
    r ∈ step publishers a ↔ (accepted a = true ∧ r = a.row) ∨
      r ∈ publishers ∧ (accepted a = true → r.publisherKey ≠ a.publisherKey) := by
  rcases upsert_eq publishers a with ⟨hacc, h⟩ | ⟨hacc, e, h⟩
  · simp only [step, h, hacc, true_and, forall_const]
    exact Table.mem_put
  · simp [step, h, hacc]

/-- **Every row is that of the last call for its publisher.** -/
theorem last_of_mem {as : List Upsert} {r : EventPublisher} (h : r ∈ run step .empty as) :
    ∃ a, LastUpsert r.publisherKey as a ∧ r = a.row := by
  induction as using List.reverseRecOn with
  | nil => cases h
  | append_singleton as a ih =>
    rw [run_concat] at h
    rcases mem_step.mp h with ⟨hacc, rfl⟩ | ⟨hold, hne⟩
    · exact ⟨a, ⟨as, [], rfl, rfl, hacc, by simp⟩, rfl⟩
    · obtain ⟨a₀, ⟨pre, post, rfl, hkey, hacc, hlater⟩, hrow⟩ := ih hold
      refine ⟨a₀, ⟨pre, post ++ [a], by simp, hkey, hacc, fun a' ha' hk => ?_⟩, hrow⟩
      rcases List.mem_append.mp ha' with ha' | ha'
      · exact hlater a' ha' hk
      · rw [List.mem_singleton.mp ha'] at hk ⊢
        by_contra hacc'
        exact hne (Bool.not_eq_false _ ▸ hacc') hk.symm

theorem enabled_of_mem {as : List Upsert} {r : EventPublisher} (h : r ∈ run step .empty as) :
    r.enabled = true := by
  obtain ⟨a, -, rfl⟩ := last_of_mem h
  rfl

/-- The rows a request is compared with, in some order. -/
def ReadAs (publishers : EventPublishers) (rows : List EventPublisher) : Prop :=
  rows.Perm (publishers.rows.filter (·.enabled))

/-- After the calls `as` a token stands for one publisher, the one it was given to last. -/
structure Identifies (as : List Upsert) : Prop where
  /-- No two enabled publishers have the digest of one token. -/
  unique : ∀ token, ∀ r ∈ run step .empty as, ∀ r' ∈ run step .empty as, r.enabled = true →
    r'.enabled = true → r.tokenHash = tokenHash token → r'.tokenHash = tokenHash token → r = r'
  /-- The order in which the rows are read does not matter. -/
  order : ∀ rows rows', ReadAs (run step .empty as) rows → ReadAs (run step .empty as) rows' →
    ∀ credentials, requirePublisherAuth rows credentials = requirePublisherAuth rows' credentials
  /-- A token that is accepted for a publisher is that of its last call. -/
  last : ∀ rows credentials publisher, ReadAs (run step .empty as) rows →
    requirePublisherAuth rows (some credentials) = .ok publisher →
    ∃ a, LastUpsert publisher.publisherKey as a ∧ credentials.credentials = a.token

/-- No other publisher has the token that is given to this one. -/
def Unused (publishers : EventPublishers) (a : Upsert) : Prop :=
  accepted a = true →
    ∀ r ∈ publishers.rows, r.tokenHash = tokenHash a.token → r.publisherKey = a.publisherKey

instance (publishers : EventPublishers) (a : Upsert) : Decidable (Unused publishers a) := by
  unfold Unused; infer_instance

/-! ### Uniqueness -/

/-- No two enabled publishers have the digest of one token. -/
def Unique (publishers : EventPublishers) : Prop :=
  ∀ token, ∀ r ∈ publishers, ∀ r' ∈ publishers, r.enabled = true → r'.enabled = true →
    r.tokenHash = tokenHash token → r'.tokenHash = tokenHash token → r = r'

theorem unique_step {publishers : EventPublishers} {a : Upsert} (h : Unique publishers)
    (ha : Unused publishers a) : Unique (step publishers a) := by
  -- a row that stays does not have the digest of the new one
  have hother : accepted a = true → ∀ r ∈ publishers, r.publisherKey ≠ a.publisherKey →
      ∀ token, a.row.tokenHash = tokenHash token → r.tokenHash ≠ tokenHash token := by
    intro hacc r hr hne token htoken he
    exact hne (ha hacc r hr (he.trans htoken.symm))
  intro token r hr r' hr' hen hen' htoken htoken'
  rcases mem_step.mp hr with ⟨hacc, rfl⟩ | ⟨hold, hne⟩
  · rcases mem_step.mp hr' with ⟨-, rfl⟩ | ⟨hold', hne'⟩
    · rfl
    · exact absurd htoken' (hother hacc r' hold' (hne' hacc) token htoken)
  · rcases mem_step.mp hr' with ⟨hacc, rfl⟩ | ⟨hold', -⟩
    · exact absurd htoken (hother hacc r hold (hne hacc) token htoken')
    · exact h token r hold r' hold' hen hen' htoken htoken'

/-- A call that leaves every token with one publisher gives away a token nobody else has. -/
theorem unused_of_unique {as : List Upsert} {a : Upsert}
    (h : Unique (step (run step .empty as) a)) : Unused (run step .empty as) a := by
  intro hacc r hr htoken
  by_contra hne
  have hstay : r ∈ step (run step .empty as) a := mem_step.mpr (Or.inr ⟨hr, fun _ => hne⟩)
  have hnew : a.row ∈ step (run step .empty as) a := mem_step.mpr (Or.inl ⟨hacc, rfl⟩)
  have heq : r = a.row :=
    h a.token r hstay a.row hnew (enabled_of_mem hr) rfl htoken rfl
  exact hne (by rw [heq]; rfl)

omit [Runtime] in
theorem find?_perm {α : Type} {p : α → Bool} {rows rows' : List α} (h : rows.Perm rows')
    (hu : ∀ r ∈ rows, ∀ r' ∈ rows, p r = true → p r' = true → r = r') :
    rows.find? p = rows'.find? p := by
  cases hf : rows.find? p with
  | none =>
    rw [eq_comm, List.find?_eq_none]
    intro r hr
    exact List.find?_eq_none.mp hf r (h.mem_iff.mpr hr)
  | some r =>
    have hr := List.mem_of_find?_eq_some hf
    have hpr : p r = true := List.find?_some hf
    cases hf' : rows'.find? p with
    | none => exact absurd hpr (List.find?_eq_none.mp hf' r (h.mem_iff.mp hr))
    | some r' =>
      have hr' := h.mem_iff.mpr (List.mem_of_find?_eq_some hf')
      rw [hu r hr r' hr' hpr (List.find?_some hf')]

omit [Runtime] in
theorem ReadAs.mem {publishers : EventPublishers} {rows : List EventPublisher}
    (h : ReadAs publishers rows) {r : EventPublisher} (hr : r ∈ rows) :
    r ∈ publishers ∧ r.enabled = true := by
  have hm := h.mem_iff.mp hr
  rw [List.mem_filter] at hm
  exact hm

theorem identifies_of_unique (hinj : Function.Injective Runtime.sha256Hex) {as : List Upsert}
    (h : Unique (run step .empty as)) : Identifies as where
  unique := h
  order rows rows' hrows hrows' credentials := by
    cases credentials with
    | none => rfl
    | some c =>
      have hfind : (rows.find? fun r => tokenHash c.credentials = r.tokenHash) =
          rows'.find? fun r => tokenHash c.credentials = r.tokenHash := by
        refine find?_perm (hrows.trans hrows'.symm) fun r hr r' hr' hp hp' => ?_
        obtain ⟨hm, hen⟩ := hrows.mem hr
        obtain ⟨hm', hen'⟩ := hrows.mem hr'
        exact h c.credentials r hm r' hm' hen hen' (of_decide_eq_true hp).symm
          (of_decide_eq_true hp').symm
      simp only [requirePublisherAuth, hfind]
  last rows credentials publisher hrows hok := by
    obtain ⟨c, hc, -, hmem, hhash⟩ := requirePublisherAuth_ok hok
    cases hc
    obtain ⟨a, hlast, rfl⟩ := last_of_mem (hrows.mem hmem).1
    exact ⟨a, hlast, (hinj hhash).symm⟩

/-- **A token identifies its publisher exactly as long as no publisher is given the token of
another.** For every sequence of calls of the tool, with a digest that is injective: after each of
them every token stands for one publisher, the one it was given to last, if and only if every call
that was carried out has given a token that no other publisher had at that moment. -/
theorem identity_unshared (hinj : Function.Injective Runtime.sha256Hex) (as : List Upsert) :
    (∀ pre post, as = pre ++ post → Identifies pre) ↔ Along step Unused .empty as := by
  constructor
  · intro h pre a post he
    refine unused_of_unique ?_
    have hid := h (pre ++ [a]) post (by rw [he]; simp)
    rw [← run_concat step]
    exact hid.unique
  · rintro h pre post rfl
    refine identifies_of_unique hinj ?_
    exact run_invariant (I := Unique) (fun _ _ hu ha => unique_step hu ha)
      (fun _ _ hr => by cases hr) h.of_append

/-! ### Two samples -/

omit [Runtime] in
/-- A runtime whose digest is injective and has the digests of two tokens. -/
abbrev sampleRuntime : Runtime :=
  { Runtime.sample with
    sha256Hex := fun s =>
      Equiv.swap "fedcba9876543210fedcba9876543210"
        "4ba68aa8767bde72e8c798ee82d1275291cea73e72ad74d35ecf48e41386eb82"
        (Equiv.swap "0123456789abcdef0123456789abcdef"
          "3eb1bd439947eb762998e566ccc2e099c791118b2f40579cc4f7da2b5061b7f9" s) }

omit [Runtime] in
theorem sampleRuntime_injective : Function.Injective sampleRuntime.sha256Hex :=
  (Equiv.injective _).comp (Equiv.injective _)

omit [Runtime] in
/-- Two publishers with tokens of their own. -/
def sampleOwnTokens : List Upsert :=
  [{ publisherKey := "ci-builds", token := "0123456789abcdef0123456789abcdef",
     prefixes := ["build."] },
    { publisherKey := "releases", token := "fedcba9876543210fedcba9876543210",
      prefixes := ["release."] }]

omit [Runtime] in
theorem identity_unshared_sample : @Identifies sampleRuntime sampleOwnTokens := by
  have hunused : Along (@step sampleRuntime)
      (@Unused sampleRuntime) .empty sampleOwnTokens := by decide
  exact (@identity_unshared sampleRuntime sampleRuntime_injective sampleOwnTokens).mpr hunused
    sampleOwnTokens [] (List.append_nil _).symm

omit [Runtime] in
/-- The second publisher is given the token of the first. -/
def sampleSharedToken : List Upsert :=
  [{ publisherKey := "ci-builds", token := "0123456789abcdef0123456789abcdef",
     prefixes := ["build."] },
    { publisherKey := "releases", token := "0123456789abcdef0123456789abcdef",
      prefixes := ["release."] }]

omit [Runtime] in
/-- The publishers that the shared token stands for, in the order of the rows and the other way
round. -/
def sampleIdentities (reverse : Bool) : Option String :=
  let rows := (run (@step sampleRuntime) .empty sampleSharedToken).rows
  ((@requirePublisherAuth sampleRuntime (if reverse then rows.reverse else rows)
    (some ⟨"Bearer", "0123456789abcdef0123456789abcdef"⟩)).toOption).map (·.publisherKey)

omit [Runtime] in
/-- **A shared token stands for either publisher**, depending on which row is read first. -/
theorem shared_token : Function.Injective sampleRuntime.sha256Hex ∧
    sampleIdentities false = some "ci-builds" ∧ sampleIdentities true = some "releases" ∧
    ¬ @Identifies sampleRuntime sampleSharedToken := by
  let _ := sampleRuntime
  refine ⟨sampleRuntime_injective, by decide, by decide, fun h => ?_⟩
  have hrows : ∃ r ∈ (run (@step sampleRuntime) .empty sampleSharedToken).rows,
      ∃ r' ∈ (run (@step sampleRuntime) .empty sampleSharedToken).rows, r.enabled = true ∧
        r'.enabled = true ∧
        r.tokenHash = @tokenHash sampleRuntime "0123456789abcdef0123456789abcdef" ∧
        r'.tokenHash = @tokenHash sampleRuntime "0123456789abcdef0123456789abcdef" ∧ r ≠ r' := by
    decide
  obtain ⟨r, hr, r', hr', hen, hen', hh, hh', hne⟩ := hrows
  exact hne (h.unique _ r hr r' hr' hen hen' hh hh')

end EventServer.Auth.Identity
