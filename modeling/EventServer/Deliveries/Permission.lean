import EventServer.Core.Recipients

/-! # Whether a claim honours permissions

A publication selects recipients by their permission; a claim does not look at it again. So a claim
can hand out a delivery to a user without permission exactly if one is outstanding (`honours_iff`),
and that comes about exactly when a user with outstanding deliveries is blocked or loses `command`
(`permission_honoured`). -/

namespace EventServer.Deliveries.Permission

open EventServer.Db EventServer.Lib EventServer.Python EventServer.System
open EventServer.Services.Users EventServer.Services.Accounts EventServer.Core.Publication
open EventServer.Core.Recipients EventServer.Deliveries.Outbox
open EventServer.Deliveries.Steps (Call RowStep step_cases mem_returned mem_claimStatement_of_limit
  Outstanding outstanding_of_eligible origin)

variable [Runtime]

/-! ### Taking permission away -/

/-- The request blocks the user or takes `command` away, and is not refused. -/
def Withdraws (s : Store) (op : Op) (p o : String) : Prop :=
  match op with
  | .setPermissions a => (p = a.platform ∧ o = a.openid) ∧ a.granted = false ∧
      "command" ∈ a.permissions ∧ ∃ r, setPermissions s a = .ok r
  | .setAccountStatus platform openid status =>
    (p = platform ∧ o = openid) ∧ status = .blocked
  | _ => False

/-- **Permission is lost** only by a request that withdraws it. -/
theorem entitled_step {n : ℕ} {s : Store} {op : Op} {p o : String} (h : Entitled s p o)
    (hw : ¬ Withdraws s op p o) : Entitled (step n s op) p o := by
  obtain ⟨hact, hcom⟩ := h
  cases account_cases n s op with
  | same hs => exact hs.entitled.mpr ⟨hact, hcom⟩
  | permissions a r hr hop hs =>
    refine hs.entitled.mpr ⟨active_applyPermissions hact, hasCommand_applyPermissions.mpr ?_⟩
    split_ifs with hpo
    · rcases hop with rfl | hg
      · cases hg : a.granted with
        | true => rfl
        | false => exact absurd ⟨hpo.1, hg, hpo.2, r, hr⟩ hw
      · exact hg
    · exact hcom
  | role a role _ _ _ hs =>
    exact hs.entitled.mpr ⟨active_applyRole hact, hasCommand_applyRole.mpr hcom⟩
  | promote a openid hs =>
    exact hs.entitled.mpr ⟨active_promote hact, hasCommand_promote.mpr (Or.inr hcom)⟩
  | status platform openid status he =>
    subst he
    refine ⟨?_, hcom⟩
    obtain ⟨u, hu, ha⟩ := hact
    refine ⟨_, (get_writeAccountStatus s platform openid status (p, o)).trans (by rw [hu]; rfl), ?_⟩
    split_ifs with hpo
    · cases status with
      | active => rfl
      | blocked => exact absurd ⟨Prod.mk.inj hpo, rfl⟩ hw
    · exact ha

theorem not_entitled_of_withdraws {n : ℕ} {s : Store} {op : Op} {p o : String}
    (hw : Withdraws s op p o) : ¬ Entitled (step n s op) p o := by
  rintro ⟨hact, hcom⟩
  cases op with
  | setPermissions a =>
    obtain ⟨hpo, hg, hc, r, hr⟩ := hw
    obtain ⟨-, -, h'⟩ := setPermissions_ok hr
    have hs : step n s (.setPermissions a) = applyPermissions s a := by
      simp only [step, committed, hr, h']
    rw [hs, hasCommand_applyPermissions, if_pos ⟨hpo, hc⟩, hg] at hcom
    cases hcom
  | setAccountStatus platform openid status =>
    obtain ⟨⟨rfl, rfl⟩, rfl⟩ := hw
    obtain ⟨u, hu, ha⟩ := hact
    have hg := get_writeAccountStatus s p o .blocked (p, o)
    rw [show (writeAccountStatus s p o .blocked).users.get (p, o) = some u from hu] at hg
    simp only [if_true] at hg
    cases hgu : s.users.get (p, o) with
    | none => rw [hgu] at hg; cases hg
    | some v =>
      rw [hgu] at hg
      cases hg
      cases ha
  | changeRole | createPairingCode | approvePairingCode | bootstrapFirstAdmin | subscribe
  | unsubscribe | register | publish | claim | ack | fail => exact hw

theorem deliveries_of_withdraws {n : ℕ} {s : Store} {op : Op} {p o : String}
    (hw : Withdraws s op p o) : (step n s op).deliveries = s.deliveries := by
  cases op with
  | setPermissions | setAccountStatus => exact (sameEvents_step s rfl).deliveries
  | changeRole | createPairingCode | approvePairingCode | bootstrapFirstAdmin | subscribe
  | unsubscribe | register | publish | claim | ack | fail => exact hw.elim

/-! ### The claims of one state -/

/-- Every claim in the state `s` hands out deliveries to entitled users only. -/
def Honours (s : Store) : Prop :=
  ∀ a x, x ∈ (claim s.deliveries a).2 → Entitled s x.platform x.openid

omit [Runtime] in
/-- Whoever has a delivery outstanding is entitled to it. -/
def Served (s : Store) : Prop := ∀ d ∈ s.deliveries, Outstanding d → Entitled s d.platform d.openid

omit [Runtime] in
/-- Every lease ends some time. -/
def LeasesEnd (t : Deliveries) : Prop := ∀ d ∈ t, d.status = .leased → d.leaseUntil ≠ none

theorem leasesEnd_step {n : ℕ} {t : Deliveries} (h : LeasesEnd t) (c : Call) :
    LeasesEnd (Deliveries.Steps.step n t c) := by
  intro d hd hs
  have hg : (Deliveries.Steps.step n t c).get d.deliveryId = some d := Table.mem_iff_get.mp hd
  cases step_cases n t d.deliveryId c with
  | keep h' => rw [h'] at hg; exact h d (Table.mem_of_get hg) hs
  | enqueue d' _ _ h' =>
    rw [h'] at hg
    cases hg
    rw [d'.property.status] at hs
    cases hs
  | claim d₀ _ _ _ _ h' =>
    rw [h'] at hg
    rw [← Option.some_inj.mp hg]
    simp [Claim.lease]
  | @ack a d₀ _ _ _ h' =>
    rw [h'] at hg
    rw [← Option.some_inj.mp hg] at hs
    cases hs
  | @fail a d₀ _ _ _ h' =>
    rw [h'] at hg
    rw [← Option.some_inj.mp hg] at hs
    by_cases hr : a.retryable ∧ d₀.attempts < n <;> simp [Fail.apply, clearLease, hr] at hs

omit [Runtime] in
theorem exists_eligible {t : Deliveries} (ht : LeasesEnd t) {d : Delivery} (hd : d ∈ t)
    (ho : Outstanding d) : ∃ now, eligible now d = true := by
  rcases ho with hs | hs | hs
  · exact ⟨d.nextAttemptAt, by simp [eligible, hs]⟩
  · exact ⟨d.nextAttemptAt, by simp [eligible, hs]⟩
  · obtain ⟨u, hu⟩ := Option.ne_none_iff_exists'.mp (ht d hd hs)
    have hlt : u < u + 1 := Int.lt_succ u
    exact ⟨u + 1, by simp [eligible, hs, leaseOver, hu, hlt]⟩

/-- **The claims of a state honour permissions** exactly if no delivery is outstanding for a user
without permission. -/
theorem honours_iff {s : Store} (hs : LeasesEnd s.deliveries) : Honours s ↔ Served s := by
  constructor
  · intro h d hd ho
    obtain ⟨now, he⟩ := exists_eligible hs hd ho
    let a : Claim :=
      { workerId := "", platform := d.platform, limit := s.deliveries.rows.length,
        leaseSeconds := 0,
        now := now, token := fun _ => "" }
    have hm : d ∈ claimStatement a s.deliveries.rows :=
      mem_claimStatement_of_limit (le_refl _) hd rfl he
    exact h a (a.claimed d) (List.mem_map_of_mem hm)
  · intro h a x hx
    obtain ⟨d, hg, he, -, rfl, -⟩ := mem_returned hx
    exact h d (Table.mem_of_get hg) (outstanding_of_eligible he)

/-! ### Over a run -/

/-- The request does not withdraw permission from a user with an outstanding delivery. -/
def KeepsServed (s : Store) (op : Op) : Prop :=
  ∀ p o, Withdraws s op p o → ∀ d ∈ s.deliveries, d.platform = p → d.openid = o → ¬ Outstanding d

omit [Runtime] in
theorem user_of_target {d d' : Delivery} (h : d.target = d'.target) :
    d.platform = d'.platform ∧ d.openid = d'.openid := by
  simpa using (Prod.mk.inj h).2

theorem served_step {n : ℕ} {s : Store} {op : Op} (h : Served s) (hk : KeepsServed s op) :
    Served (step n s op) := by
  -- whoever has a delivery outstanding is still entitled afterwards
  have hold : ∀ d ∈ s.deliveries, Outstanding d → Entitled (step n s op) d.platform d.openid := by
    intro d hd ho
    exact entitled_step (h d hd ho) fun hw => hk _ _ hw d hd rfl rfl ho
  intro d hd ho
  cases outbox_cases n s op with
  | same hs => exact hold d (by rwa [hs.deliveries] at hd) ho
  | call c hc _ hds =>
    rw [hds] at hd
    rcases origin hd with ⟨d₀, hd₀, ht, ho'⟩ | ⟨now, ds, -, he, -⟩
    · obtain ⟨hp, ho₀⟩ := user_of_target ht
      rw [← hp, ← ho₀]
      exact hold d₀ hd₀ (ho' ho)
    · exact absurd he (hc now ds)
  | created now a eventType fallback he _ _ _ hds =>
    subst he
    rw [← Table.mem_rows, Table.rows_of_insertAll? hds] at hd
    rcases List.mem_append.mp hd with hd' | hnew
    · exact hold d hd' ho
    · obtain ⟨sub, hsub, rfl⟩ := List.mem_map.mp hnew
      exact (sameAccounts_step s rfl).entitled.mpr (mem_reached.mp hsub).entitled

theorem leasesEnd_run {n : ℕ} {s₀ : Store} (h : LeasesEnd s₀.deliveries) (ops : List Op) :
    LeasesEnd (run (step n) s₀ ops).deliveries := by
  rw [deliveries_run]
  exact run_invariant_all (I := LeasesEnd) (fun _ c h => leasesEnd_step h c) h _

/-- **When permission is honoured.** In a run from a store without deliveries every claim of every
state hands out deliveries to active users with `command` only, if and only if no request of the run
blocks a user who has a delivery outstanding or takes `command` away from one. -/
theorem permission_honoured {n : ℕ} {s₀ : Store} (h₀ : s₀.deliveries.rows = []) (ops : List Op) :
    (∀ pre post, ops = pre ++ post → Honours (run (step n) s₀ pre)) ↔
      Along (step n) KeepsServed s₀ ops := by
  have hempty : ∀ d, d ∉ s₀.deliveries := by
    intro d hd
    rw [← Table.mem_rows, h₀] at hd
    exact List.not_mem_nil hd
  have hle : LeasesEnd s₀.deliveries := fun d hd => absurd hd (hempty d)
  constructor
  · rintro h pre op post rfl p o hw d hd rfl rfl ho
    have hserved := (honours_iff (leasesEnd_run hle _)).mp (h (pre ++ [op]) post (by simp))
    rw [run_concat] at hserved
    refine not_entitled_of_withdraws hw (hserved d ?_ ho)
    rwa [deliveries_of_withdraws hw]
  · rintro h pre post rfl
    refine (honours_iff (leasesEnd_run hle pre)).mpr ?_
    exact run_invariant (fun s op => served_step) (fun d hd => absurd hd (hempty d)) h.of_append

/-! ### A delivery that outlives its permission -/

omit [Runtime] in
/-- `alice` loses `command` while a delivery waits for her. -/
def sampleRevocation : List Op :=
  sampleSetup ++
    [.publish (seconds 20) samplePublish,
      .setPermissions
        { platform := "qqbot", openid := "alice", permissions := ["command"], granted := false,
          operatorOpenid := "root" }]

omit [Runtime] in
theorem permission_honoured_sample :
    (∀ pre post, sampleRevocation = pre ++ post → @Honours .sample (run (@step .sample 5) {} pre)) ↔
      Along (@step .sample 5) (@KeepsServed .sample) {} sampleRevocation :=
  @permission_honoured .sample 5 {} rfl sampleRevocation

omit [Runtime] in
/-- The delivery is handed out to `alice` all the same. -/
theorem claimed_without_permission :
    (@claim .sample (run (@step .sample 5) {} sampleRevocation).deliveries
        { workerId := "w-1", platform := "qqbot", limit := 10, leaseSeconds := 60,
          now := seconds 30,
          token := fun _ => "token-1" }).2.map (fun x => (x.platform, x.openid)) =
        [("qqbot", "alice")] ∧
      ¬ Entitled (run (@step .sample 5) {} sampleRevocation) "qqbot" "alice" := by
  decide

end EventServer.Deliveries.Permission
