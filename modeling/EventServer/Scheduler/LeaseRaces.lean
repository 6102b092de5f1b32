import EventServer.Scheduler.Runners

/-! # Provider leases fence out stale runners

In every run, processing commits only while its runner holds the lease, and the claims of an
instance keep their distance (`Fenced`). Leases are exclusive as long as no failure is committed by
a runner that has read its own lease, when the checkpoint has been leased to another in the meantime
(`stale_runners_fenced`): a transaction that records a failure frees the lease it has read, and not
the one it writes to (`stale_failure`). -/

namespace EventServer.Scheduler.LeaseRaces

open EventServer.Db EventServer.Lib EventServer.Lib.Leases EventServer.Python
open EventServer.Core.Processing (checkpointOf)
open EventServer.Scheduler.Leases EventServer.Scheduler.Runners

variable {ι : Type} [DecidableEq ι]

/-! ### What a runner knows -/

/-- The row `row` as a claim at `now` has selected it: due, and locked with its checkpoint. -/
structure Ready (w : ι) (db : Db ι) (now : Time) (row : ProviderInstance) : Prop where
  stored : db.tables.instances.get row.providerInstanceId = some row
  due : dueAt now row = true
  instanceLock : db.instanceLocks row.providerInstanceId = some w
  checkpointLock : ∀ c, db.tables.checkpoints.get row.providerInstanceId = some c →
    db.checkpointLocks row.providerInstanceId = some w ∧ leaseOver now c = true

structure Selected (w : ι) (db : Db ι) (now : Time) (rows : List ProviderInstance) : Prop where
  past : now ≤ db.now
  nodup : (rows.map (·.providerInstanceId)).Nodup
  ready : ∀ row ∈ rows, Ready w db now row

/-- Processing relies on the lock of the instance: if the checkpoint it has loaded is leased to its
runner, then the runner holds the lease. -/
structure Processing (req : ι → Runner) (w : ι) (db : Db ι) (i : String)
    (loaded : ProviderCheckpoint) : Prop where
  instanceLock : db.instanceLocks i = some w
  holds : loaded.leaseOwner = some (req w).owner → ∃ t, holder i db.log = some (w, t)

def Knows (req : ι → Runner) (w : ι) (db : Db ι) : Local → Prop
  | .clock now => now ≤ db.now
  | .selected now rows => Selected w db now rows
  | .locked i _ => db.instanceLocks i = some w
  | .loaded i _ loaded => Processing req w db i loaded
  | .flushed i _ loaded _ => Processing req w db i loaded ∧ db.checkpointLocks i = some w
  | .counted i _ _ => db.checkpointLocks i = some w
  | _ => True

theorem knows_outside {req : ι → Runner} {w : ι} {db : Db ι} {l : Local} (h : Outside l) :
    Knows req w db l := by
  cases l with
  | idle | working | failing | stopped => trivial
  | clock | selected | locked | loaded | flushed | read | counted => exact h.elim

/-- What holds of the committed rows and the history. -/
structure Consistent (req : ι → Runner) (db : Db ι) : Prop where
  /-- A lease in the table is that of the holder. -/
  owned : ∀ i c o, db.tables.checkpoints.get i = some c → c.leaseOwner = some o →
    ∃ w t, holder i db.log = some (w, t) ∧ o = (req w).owner ∧
      c.leaseUntil = some t.claim.leaseUntil
  /-- An instance is due when its last claim has said. -/
  scheduled : ∀ i w t, lastGrant i db.log = some (w, t) → ∃ row,
    db.tables.instances.get i = some row ∧
      row.nextRunAt = some (t.claim.now + seconds (t.claim.interval t.row))

/-- An instance is claimed when it is due, and processed by who holds its lease. -/
def Proper (before : List (Event String ι Terms Way)) : Event String ι Terms Way → Prop
  | .grant i _ t => ∀ w' t', lastGrant i before = some (w', t') →
    t'.claim.now + seconds (t'.claim.interval t'.row) ≤ t.claim.now
  | .release i w .processed => ∃ t, holder i before = some (w, t)
  | .release _ _ .failed => True

/-! ### Who is left alone -/

/-- What runner `j` has locked and holds stays. -/
structure Frame (j : ι) (db db' : Db ι) : Prop where
  now : db.now ≤ db'.now
  instanceLock : ∀ k, db.instanceLocks k = some j → db'.instanceLocks k = some j
  instances : ∀ k, db.instanceLocks k = some j →
    db'.tables.instances.get k = db.tables.instances.get k
  missing : ∀ k, db.instanceLocks k = some j → db.tables.checkpoints.get k = none →
    db'.tables.checkpoints.get k = none
  holder : ∀ k t, db.instanceLocks k = some j → holder k db.log = some (j, t) →
    holder k db'.log = some (j, t)
  checkpointLock : ∀ k, db.checkpointLocks k = some j → db'.checkpointLocks k = some j
  checkpoints : ∀ k c, db.checkpointLocks k = some j → db.tables.checkpoints.get k = some c →
    db'.tables.checkpoints.get k = some c

section Frame

variable {req : ι → Runner} {w j : ι} {db db' db'' : Db ι} {now : Time}

theorem Frame.refl (j : ι) (db : Db ι) : Frame j db db :=
  ⟨le_rfl, fun _ h => h, fun _ _ => rfl, fun _ _ h => h, fun _ _ _ h => h, fun _ h => h,
    fun _ _ _ h => h⟩

theorem Frame.trans (h : Frame j db db') (h' : Frame j db' db'') : Frame j db db'' where
  now := h.now.trans h'.now
  instanceLock k hk := h'.instanceLock k (h.instanceLock k hk)
  instances k hk := (h'.instances k (h.instanceLock k hk)).trans (h.instances k hk)
  missing k hk hm := h'.missing k (h.instanceLock k hk) (h.missing k hk hm)
  holder k t hk ht := h'.holder k t (h.instanceLock k hk) (h.holder k t hk ht)
  checkpointLock k hk := h'.checkpointLock k (h.checkpointLock k hk)
  checkpoints k c hk hc := h'.checkpoints k c (h.checkpointLock k hk) (h.checkpoints k c hk hc)

theorem Frame.of_locks (htables : db'.tables = db.tables) (hnow : db'.now = db.now)
    (hlog : db'.log = db.log)
    (hinstance : ∀ k, db.instanceLocks k = some j → db'.instanceLocks k = some j)
    (hcheckpoint : ∀ k, db.checkpointLocks k = some j → db'.checkpointLocks k = some j) :
    Frame j db db' where
  now := hnow.ge
  instanceLock := hinstance
  instances _ _ := by rw [htables]
  missing _ _ h := by rw [htables]; exact h
  holder _ _ _ h := by rw [hlog]; exact h
  checkpointLock := hcheckpoint
  checkpoints _ _ _ h := by rw [htables]; exact h

theorem frame_release (hj : j ≠ w) (db : Db ι) : Frame j db (db.release w) :=
  .of_locks rfl rfl rfl (fun _ h => releaseRows_other h hj) fun _ h => releaseRows_other h hj

theorem frame_lockInstance {i : String} (h : db.instanceLocks i = none) :
    Frame j db (db.lockInstance w i) := by
  refine .of_locks rfl rfl rfl (fun k hk => lockRows_other ?_ hk) fun _ hk => hk
  intro k' hk'
  rw [List.mem_singleton.mp hk']
  exact h

theorem frame_lockCheckpoint {i : String} (h : db.checkpointLocks i = none) :
    Frame j db (db.lockCheckpoint w i) := by
  refine .of_locks rfl rfl rfl (fun _ hk => hk) fun k hk => lockRows_other ?_ hk
  intro k' hk'
  rw [List.mem_singleton.mp hk']
  exact h

omit [DecidableEq ι] in
theorem free_of_selected {limit : ℕ} {row : ProviderInstance}
    (h : row ∈ dueProviderStatement db.tables db.locked now limit) :
    db.instanceLocks row.providerInstanceId = none ∧
      db.checkpointLocks row.providerInstanceId = none := by
  have hfree := (mem_dueProviderStatement h).2.1
  simpa [Db.locked] using hfree

theorem frame_lockSelected (limit : ℕ) : Frame j db
    (db.lockSelected w (dueProviderStatement db.tables db.locked now limit)) := by
  refine .of_locks rfl rfl rfl (fun k hk => lockRows_other ?_ hk) fun k hk => lockRows_other ?_ hk
  · intro k' hk'
    obtain ⟨row, hrow, rfl⟩ := List.mem_map.mp hk'
    exact (free_of_selected hrow).1
  · intro k' hk'
    obtain ⟨row, hrow, rfl⟩ := List.mem_map.mp (List.mem_filter.mp hk').1
    exact (free_of_selected hrow).2

theorem frame_claimRow (hj : j ≠ w) {a : ClaimDue} {row : ProviderInstance}
    (h : Ready w db now row) :
    Frame j db (db.claimRow w a row) := by
  have hother : ∀ k, db.instanceLocks k = some j → k ≠ row.providerInstanceId := by
    rintro k hk rfl
    rw [h.instanceLock, Option.some_inj] at hk
    exact hj hk.symm
  constructor
  · exact le_rfl
  · exact fun _ hk => hk
  · intro k hk
    exact get_instances_claimRow.trans (if_neg (hother k hk))
  · intro k hk hm
    exact get_checkpoints_claimRow.trans ((if_neg (hother k hk)).trans hm)
  · intro k t hk ht
    show Leases.holder k (db.log ++ [_]) = _
    rw [holder_concat, ht]
    exact if_neg (hother k hk).symm
  · exact fun _ hk => hk
  · intro k c hk hc
    refine get_checkpoints_claimRow.trans ((if_neg ?_).trans hc)
    rintro rfl
    have hlock := (h.checkpointLock c hc).1
    rw [hk, Option.some_inj] at hlock
    exact hj hlock

/-- A write to the checkpoint of `i`, with its release by `w`. -/
theorem frame_update (hj : j ≠ w) {i : String} {f : ProviderCheckpoint → ProviderCheckpoint}
    (hf : ∀ c, (f c).providerInstanceId = c.providerInstanceId)
    (hlock : db.checkpointLocks i = some w) (htables : db'.tables = updateCheckpoint db.tables i f)
    (hnow : db'.now = db.now) (hinstance : db'.instanceLocks = db.instanceLocks)
    (hcheckpoint : db'.checkpointLocks = db.checkpointLocks)
    (hlog : db'.log = db.log ∨ ∃ r, db'.log = db.log ++ [.release i w r]) : Frame j db db' where
  now := hnow.ge
  instanceLock _ hk := by rw [hinstance]; exact hk
  instances _ _ := by rw [htables, instances_updateCheckpoint]
  missing k _ hm := by
    rw [htables, get_updateCheckpoint hf, hm]
    exact ite_self _
  holder k t _ ht := by
    rcases hlog with hlog | ⟨r, hlog⟩
    · rw [hlog]
      exact ht
    · rw [hlog, holder_concat, ht]
      exact if_neg fun h => hj (Option.some_inj.mp h.2)
  checkpointLock _ hk := by rw [hcheckpoint]; exact hk
  checkpoints k c hk hc := by
    rw [htables, get_updateCheckpoint hf, if_neg]
    · exact hc
    · rintro rfl
      rw [hk, Option.some_inj] at hlock
      exact hj hlock

omit [DecidableEq ι] in
theorem ready_claimRow {a : ClaimDue} {row row' : ProviderInstance}
    (hne : row'.providerInstanceId ≠ row.providerInstanceId) (h : Ready w db now row') :
    Ready w (db.claimRow w a row) now row' where
  stored := get_instances_claimRow.trans ((if_neg hne).trans h.stored)
  due := h.due
  instanceLock := h.instanceLock
  checkpointLock c hc := h.checkpointLock c (by
    rw [← hc]
    exact (get_checkpoints_claimRow.trans (if_neg hne)).symm)

omit [DecidableEq ι] in
/-- **What the write of each row keeps, a claim keeps.** -/
theorem foldl_claimRow {I : Db ι → Prop} {a : ClaimDue} {rows : List ProviderInstance}
    (hnodup : (rows.map (·.providerInstanceId)).Nodup) (hready : ∀ row ∈ rows, Ready w db now row)
    (hI : ∀ db row, I db → Ready w db now row → I (db.claimRow w a row)) (h0 : I db) :
    I (rows.foldl (fun db row => db.claimRow w a row) db) := by
  induction rows generalizing db with
  | nil => exact h0
  | cons row rows ih =>
    rw [List.map_cons, List.nodup_cons] at hnodup
    refine ih hnodup.2 (fun row' hrow' => ?_) (hI db row h0 (hready row List.mem_cons_self))
    refine ready_claimRow ?_ (hready row' (List.mem_cons_of_mem _ hrow'))
    intro he
    exact hnodup.1 (he ▸ List.mem_map_of_mem hrow')

theorem frame_of_moved (hj : j ≠ w) {ch : Choice} {l l' : Local} (h : Moved req w db ch l db' l')
    (hl : Knows req w db l) : Frame j db db' := by
  cases h with
  | clock | load | read | turn => exact .refl j db
  | select now => exact frame_lockSelected _
  | claim now rows =>
    refine Frame.trans ?_ (frame_release hj _)
    exact foldl_claimRow hl.nodup hl.ready (fun db' row h hr => h.trans (frame_claimRow hj hr))
      (.refl j db)
  | lock i ids hfree => exact frame_lockInstance hfree
  | flush i ids loaded p hfree => exact frame_lockCheckpoint hfree
  | process i ids loaded p =>
    refine Frame.trans ?_ (frame_release hj _)
    exact frame_update (f := fun current => p.apply (flushLease loaded current)) hj
      (fun c => p.key _) hl.2 rfl rfl rfl rfl (Or.inr ⟨_, rfl⟩)
  | count i ids loaded hfree => exact frame_lockCheckpoint hfree
  | fail i ids loaded =>
    refine Frame.trans ?_ (frame_release hj _)
    refine frame_update hj (recordFailure_key _ loaded) hl rfl rfl rfl rfl ?_
    unfold Db.writeFailed
    split_ifs
    · exact Or.inr ⟨_, rfl⟩
    · exact Or.inl rfl
  | release => exact frame_release hj db

theorem knows_others {l : Local} (h : Frame j db db')
    (hl : Knows req j db l) : Knows req j db' l := by
  have hprocessing : ∀ i loaded, Processing req j db i loaded → Processing req j db' i loaded := by
    intro i loaded hp
    refine ⟨h.instanceLock i hp.instanceLock, fun howner => ?_⟩
    obtain ⟨t, ht⟩ := hp.holds howner
    exact ⟨t, h.holder i t hp.instanceLock ht⟩
  cases l with
  | clock now => exact hl.trans h.now
  | selected now rows =>
    refine ⟨hl.past.trans h.now, hl.nodup, fun row hrow => ?_⟩
    have hr := hl.ready row hrow
    refine ⟨?_, hr.due, h.instanceLock _ hr.instanceLock, fun c hc => ?_⟩
    · rw [h.instances _ hr.instanceLock]
      exact hr.stored
    · cases hold : db.tables.checkpoints.get row.providerInstanceId with
      | none =>
        rw [h.missing _ hr.instanceLock hold] at hc
        cases hc
      | some c' =>
        obtain ⟨hlock, hover⟩ := hr.checkpointLock c' hold
        rw [h.checkpoints _ c' hlock hold, Option.some_inj] at hc
        subst hc
        exact ⟨h.checkpointLock _ hlock, hover⟩
  | locked i ids => exact h.instanceLock i hl
  | loaded i ids loaded => exact hprocessing i loaded hl
  | flushed i ids loaded p => exact ⟨hprocessing i loaded hl.1, h.checkpointLock i hl.2⟩
  | counted i ids loaded => exact h.checkpointLock i hl
  | idle | working | failing | read | stopped => trivial

/-- A move establishes what its runner relies on. -/
theorem knows_own (hinj : Function.Injective fun w => (req w).owner) (hc : Consistent req db)
    {ch : Choice} {l l' : Local} (h : Moved req w db ch l db' l') (hl : Knows req w db l) :
    Knows req w db' l' := by
  cases h with
  | clock => exact le_refl db.now
  | select now =>
    refine ⟨hl, nodup_dueProviderStatement, fun row hrow => ?_⟩
    obtain ⟨hstored, -, hdue⟩ := mem_dueProviderStatement hrow
    simp only [due, Bool.and_eq_true] at hdue
    have hmem := List.mem_map_of_mem (f := (·.providerInstanceId)) hrow
    refine ⟨hstored, hdue.1.2, lockRows_of_mem hmem, fun c hc => ?_⟩
    have hget : db.tables.checkpoints.get row.providerInstanceId = some c := hc
    refine ⟨lockRows_of_mem (List.mem_filter.mpr ⟨hmem, ?_⟩), ?_⟩
    · rw [hget]
      rfl
    · have hover := hdue.2
      rw [hget] at hover
      simpa using hover
  | lock i ids => exact lockRows_of_mem List.mem_cons_self
  | load i ids =>
    refine ⟨hl, fun howner => ?_⟩
    cases hget : db.tables.checkpoints.get i with
    | none => simp [checkpointOf, hget] at howner
    | some c =>
      have howner' : c.leaseOwner = some (req w).owner := by simpa [checkpointOf, hget] using howner
      obtain ⟨w', t, ht, ho, -⟩ := hc.owned i c _ hget howner'
      rw [hinj ho]
      exact ⟨t, ht⟩
  | flush i ids loaded p =>
    exact ⟨⟨hl.instanceLock, hl.holds⟩, lockRows_of_mem List.mem_cons_self⟩
  | count i ids loaded => exact lockRows_of_mem List.mem_cons_self
  | claim | process | fail | read => trivial
  | turn ch l l' hl' => exact knows_outside hl'
  | release ch l l' hl' => exact knows_outside hl'

/-! ### What is consistent -/

theorem consistent_congr (h : Consistent req db) (htables : db'.tables = db.tables)
    (hlog : db'.log = db.log) : Consistent req db' where
  owned := by rw [htables, hlog]; exact h.owned
  scheduled := by rw [htables, hlog]; exact h.scheduled

theorem consistent_claimRow (h : Consistent req db) (row : ProviderInstance) :
    Consistent req (db.claimRow w ((req w).claim now) row) where
  owned i c o hget ho := by
    have hget' := get_checkpoints_claimRow.symm.trans hget
    show ∃ w' t, holder i (db.log ++ [_]) = some (w', t) ∧ _
    rw [holder_concat]
    by_cases hi : i = row.providerInstanceId
    · rw [if_pos hi, Option.some_inj] at hget'
      subst hget'
      refine ⟨w, ⟨(req w).claim now, row, db.now⟩, if_pos hi.symm, ?_, rfl⟩
      exact (Option.some_inj.mp ho).symm
    · rw [if_neg hi] at hget'
      obtain ⟨w', t, ht, hrest⟩ := h.owned i c o hget' ho
      exact ⟨w', t, (if_neg (Ne.symm hi)).trans ht, hrest⟩
  scheduled i w' t ht := by
    have ht' : lastGrant i (db.log ++ [_]) = some (w', t) := ht
    rw [lastGrant_concat] at ht'
    by_cases hi : i = row.providerInstanceId
    · simp only [grantStep, if_pos hi.symm, Option.some_inj, Prod.mk.injEq] at ht'
      obtain ⟨rfl, rfl⟩ := ht'
      exact ⟨_, get_instances_claimRow.trans (if_pos hi), rfl⟩
    · simp only [grantStep, if_neg (Ne.symm hi)] at ht'
      obtain ⟨row', hrow', hnext⟩ := h.scheduled i w' t ht'
      exact ⟨row', get_instances_claimRow.trans ((if_neg hi).trans hrow'), hnext⟩

/-- A write to a checkpoint that frees its lease, with a release, or leaves the lease as it was. -/
theorem consistent_update (h : Consistent req db) {i : String}
    {f : ProviderCheckpoint → ProviderCheckpoint}
    (hf : ∀ c, (f c).providerInstanceId = c.providerInstanceId)
    (htables : db'.tables = updateCheckpoint db.tables i f)
    (hlog : ((∀ c, (f c).leaseOwner = none) ∧ ∃ r, db'.log = db.log ++ [.release i w r]) ∨
      ((∀ c, (f c).leaseOwner = c.leaseOwner ∧ (f c).leaseUntil = c.leaseUntil) ∧
        db'.log = db.log)) : Consistent req db' where
  owned k c o hget ho := by
    rw [htables, get_updateCheckpoint hf] at hget
    by_cases hk : k = i
    · rw [if_pos hk, Option.map_eq_some_iff] at hget
      obtain ⟨c', hget', rfl⟩ := hget
      rcases hlog with ⟨hnone, -⟩ | ⟨hsame, hlog⟩
      · rw [hnone] at ho
        cases ho
      · rw [hlog, (hsame c').2]
        rw [(hsame c').1] at ho
        exact h.owned k c' o hget' ho
    · rw [if_neg hk] at hget
      obtain ⟨w', t, ht, hrest⟩ := h.owned k c o hget ho
      refine ⟨w', t, ?_, hrest⟩
      rcases hlog with ⟨-, r, hlog⟩ | ⟨-, hlog⟩
      · rw [hlog, holder_concat, ht]
        exact if_neg fun hki => hk hki.1.symm
      · rw [hlog]
        exact ht
  scheduled k w' t ht := by
    rw [htables, instances_updateCheckpoint]
    refine h.scheduled k w' t ?_
    rcases hlog with ⟨-, r, hlog⟩ | ⟨-, hlog⟩
    · rw [hlog, lastGrant_concat] at ht
      exact ht
    · rw [hlog] at ht
      exact ht

/-- What a transaction writes when it commits is consistent, and what it adds to the history
proper. -/
theorem consistent_of_moved {ch : Choice} {l l' : Local} (h : Moved req w db ch l db' l')
    (hl : Knows req w db l) (hc : Consistent req db) (hlog : Each Proper db.log) :
    Consistent req db' ∧ Each Proper db'.log := by
  cases h with
  | clock | load | read | turn => exact ⟨hc, hlog⟩
  | select | lock | flush | count | release => exact ⟨consistent_congr hc rfl rfl, hlog⟩
  | claim now rows =>
    have hboth := foldl_claimRow (I := fun db => Consistent req db ∧ Each Proper db.log)
      (a := (req w).claim now) hl.nodup hl.ready (fun db row h hr => by
        refine ⟨consistent_claimRow h.1 row, h.2.concat fun w' t ht => ?_⟩
        obtain ⟨row', hrow', hnext⟩ := h.1.scheduled _ w' t ht
        have hdue := hr.due
        rw [hr.stored, Option.some_inj] at hrow'
        subst hrow'
        show _ ≤ now
        simpa [dueAt, hnext] using hdue) ⟨hc, hlog⟩
    exact ⟨consistent_congr hboth.1 rfl rfl, hboth.2⟩
  | process i ids loaded p howner =>
    have hwritten : Consistent req (db.writeProcessed w i loaded p) :=
      consistent_update (f := fun current => p.apply (flushLease loaded current)) hc
        (fun c => p.key _) rfl (Or.inl ⟨fun c => leaseOwner_processed p howner, _, rfl⟩)
    exact ⟨consistent_congr hwritten rfl rfl, hlog.concat (hl.1.holds howner)⟩
  | fail i ids loaded =>
    have hwritten : Consistent req (db.writeFailed w (req w).owner i loaded) := by
      refine consistent_update (w := w) hc (recordFailure_key (req w).owner loaded) rfl ?_
      unfold Db.writeFailed
      by_cases howner : loaded.leaseOwner = some (req w).owner
      · refine Or.inl ⟨fun c => ?_, .failed, if_pos howner⟩
        rcases recordFailure_lease (req w).owner loaded c with ⟨-, hnone⟩ | ⟨hne, -⟩
        · exact hnone
        · exact absurd howner hne
      · refine Or.inr ⟨fun c => ?_, if_neg howner⟩
        rcases recordFailure_lease (req w).owner loaded c with ⟨ho, -⟩ | ⟨-, hsame⟩
        · exact absurd ho howner
        · exact hsame
    refine ⟨consistent_congr hwritten rfl rfl, ?_⟩
    show Each Proper (if _ then _ else _)
    split_ifs
    · exact hlog.concat trivial
    · exact hlog

omit [DecidableEq ι] in
theorem env_cases {e : Env} (h : env e db = some db') : db.now ≤ db'.now ∧ db'.log = db.log ∧
    db'.tables.checkpoints = db.tables.checkpoints ∧ db'.instanceLocks = db.instanceLocks ∧
    db'.checkpointLocks = db.checkpointLocks ∧
    ∀ k row, db.tables.instances.get k = some row → ∃ row', db'.tables.instances.get k = some row' ∧
      row'.nextRunAt = row.nextRunAt ∧ (db.instanceLocks k ≠ none → row' = row) := by
  cases e with
  | tick d =>
    cases h
    have hle : db.now ≤ db.now + (d : ℤ) := by unfold Time at *; omega
    exact ⟨hle, rfl, rfl, rfl, rfl, fun k row hrow => ⟨row, hrow, rfl, fun _ => rfl⟩⟩
  | enable i enabled =>
    simp only [env] at h
    by_cases hfree : db.instanceLocks i = none
    · rw [if_pos hfree] at h
      cases hget : db.tables.instances.get i with
      | none =>
        rw [hget] at h
        cases h
        exact ⟨le_rfl, rfl, rfl, rfl, rfl, fun k row hrow => ⟨row, hrow, rfl, fun _ => rfl⟩⟩
      | some row₀ =>
        rw [hget] at h
        cases h
        refine ⟨le_rfl, rfl, rfl, rfl, rfl, fun k row hrow => ?_⟩
        have hkey : row₀.providerInstanceId = i := Table.key_of_get hget
        simp only [Table.get_put, hkey]
        by_cases hk : k = i
        · subst hk
          rw [hget, Option.some_inj] at hrow
          subst hrow
          exact ⟨_, if_pos rfl, rfl, fun hlocked => absurd hfree hlocked⟩
        · exact ⟨row, (if_neg hk).trans hrow, rfl, fun _ => rfl⟩
    · rw [if_neg hfree] at h
      cases h
  | add row₀ =>
    simp only [env, Option.map_eq_some_iff] at h
    obtain ⟨instances, hinsert, rfl⟩ := h
    refine ⟨le_rfl, rfl, rfl, rfl, rfl, fun k row hrow => ⟨row, ?_, rfl, fun _ => rfl⟩⟩
    show instances.get k = some row
    rw [Table.get_of_insert? hinsert k, if_neg]
    · exact hrow
    · rintro rfl
      rw [Table.get_eq_none_of_insert? hinsert] at hrow
      cases hrow

theorem consistent_env {e : Env} (h : env e db = some db') (hc : Consistent req db) :
    Consistent req db' := by
  obtain ⟨-, hlog, hcheckpoints, -, -, hrows⟩ := env_cases h
  constructor
  · rw [hlog, hcheckpoints]
    exact hc.owned
  · intro i w t ht
    rw [hlog] at ht
    obtain ⟨row, hrow, hnext⟩ := hc.scheduled i w t ht
    obtain ⟨row', hrow', hsame, -⟩ := hrows i row hrow
    exact ⟨row', hrow', hsame.trans hnext⟩

theorem frame_env {e : Env} (h : env e db = some db') (j : ι) (l : Local) (hl : Knows req j db l) :
    Knows req j db' l := by
  obtain ⟨hnow, hlog, hcheckpoints, hinstance, hcheckpoint, hrows⟩ := env_cases h
  have hprocessing : ∀ i loaded, Processing req j db i loaded → Processing req j db' i loaded := by
    intro i loaded hp
    refine ⟨by rw [hinstance]; exact hp.instanceLock, ?_⟩
    rw [hlog]
    exact hp.holds
  cases l with
  | clock now => exact hl.trans hnow
  | selected now rows =>
    refine ⟨hl.past.trans hnow, hl.nodup, fun row hrow => ?_⟩
    have hr := hl.ready row hrow
    obtain ⟨row', hrow', -, hsame⟩ := hrows _ row hr.stored
    refine ⟨?_, hr.due, by rw [hinstance]; exact hr.instanceLock, ?_⟩
    · rw [hrow', hsame (by rw [hr.instanceLock]; simp)]
    · rw [hcheckpoints, hcheckpoint]
      exact hr.checkpointLock
  | locked i ids =>
    show db'.instanceLocks i = some j
    rw [hinstance]
    exact hl
  | loaded i ids loaded => exact hprocessing i loaded hl
  | flushed i ids loaded p => exact ⟨hprocessing i loaded hl.1, by rw [hcheckpoint]; exact hl.2⟩
  | counted i ids loaded =>
    show db'.checkpointLocks i = some j
    rw [hcheckpoint]
    exact hl
  | idle | working | failing | read | stopped => trivial

end Frame

/-! ### Every run -/

/-- Nobody has a lease, and every runner is idle. -/
structure Start (c : Config ι (Db ι) Local) : Prop where
  unleased : ∀ i k, c.db.tables.checkpoints.get i = some k → k.leaseOwner = none
  log : c.db.log = []
  idle : ∀ w, c.loc w = .idle

section Runs

variable {req : ι → Runner} {c₀ c : Config ι (Db ι) Local}
  {C : Config ι (Db ι) Local → Label ι Choice Env → Prop}

/-- **In every run** the rows and the history are consistent, and every runner can rely on what it
knows. -/
theorem reach_consistent (hinj : Function.Injective fun w => (req w).owner) (h0 : Start c₀)
    (h : (system req).Reach C c₀ c) :
    (Consistent req c.db ∧ Each Proper c.db.log) ∧ ∀ w, Knows req w c.db (c.loc w) := by
  refine h.interference_free (G := fun db => Consistent req db ∧ Each Proper db.log)
    (A := fun w db l => Knows req w db l) ⟨⟨?_, ?_⟩, ?_⟩ ?_ ?_ ?_ ?_
  · intro i k o hget ho
    rw [h0.unleased i k hget] at ho
    cases ho
  · intro i w t ht
    rw [h0.log] at ht
    cases ht
  · rw [h0.log]
    exact each_nil
  · intro w
    rw [h0.idle w]
    trivial
  · intro c w ch db l _ hG hA _ hm
    have hmoved := move_cases hm
    exact ⟨consistent_of_moved hmoved (hA w) hG.1 hG.2, knows_own hinj hG.1 hmoved (hA w)⟩
  · intro c w ch db l _ _ hA _ hm j hj
    exact knows_others (frame_of_moved hj (move_cases hm) (hA w)) (hA j)
  · intro c e db _ hG hA _ he
    have hlog : db.log = c.db.log := (env_cases he).2.1
    refine ⟨⟨consistent_env he hG.1, by rw [hlog]; exact hG.2⟩, fun j => frame_env he j _ (hA j)⟩

/-! ### Exclusive leases -/

/-- The checkpoint of `i` holds the lease of `w`. -/
def Holds (req : ι → Runner) (db : Db ι) (i : String) (w : ι) (t : Terms) : Prop :=
  ∃ k, db.tables.checkpoints.get i = some k ∧ k.leaseOwner = some (req w).owner ∧
    k.leaseUntil = some t.claim.leaseUntil

/-- A lease that is not over is in the table. -/
def Stands (req : ι → Runner) (db : Db ι) : Prop :=
  ∀ i w t, holder i db.log = some (w, t) → db.now ≤ t.claim.leaseUntil → Holds req db i w t

/-- A claim finds the lease of the holder over. -/
def Exclusive (before : List (Event String ι Terms Way)) : Event String ι Terms Way → Prop
  | .grant i _ t => ∀ w' t', holder i before = some (w', t') → t'.claim.leaseUntil < t.committedAt
  | .release _ _ _ => True

/-- When a failure is committed by a runner that has read its own lease, the checkpoint is not
leased to another, or that lease is over. -/
def Current (req : ι → Runner) (c : Config ι (Db ι) Local) : Label ι Choice Env → Prop
  | .proc w .go =>
    match c.loc w with
    | .counted i _ loaded => loaded.leaseOwner = some (req w).owner →
      ∀ k ∈ c.db.tables.checkpoints.get i,
        k.leaseOwner = none ∨ k.leaseOwner = some (req w).owner ∨ leaseOver c.db.now k = true
    | _ => True
  | _ => True

section Exclusive

variable {w : ι} {db db' : Db ι} {now : Time}

omit [DecidableEq ι] in
theorem leaseOver_iff {k : ProviderCheckpoint} {u : Time} (h : k.leaseUntil = some u) :
    leaseOver now k = true ↔ u < now := by
  simp [leaseOver, h]

theorem stands_congr (h : Stands req db) (htables : db'.tables = db.tables)
    (hnow : db'.now = db.now) (hlog : db'.log = db.log) : Stands req db' := by
  intro i v t
  unfold Holds
  rw [htables, hnow, hlog]
  exact h i v t

theorem over_of_ready (h : Stands req db) {row : ProviderInstance} (hr : Ready w db now row)
    (hpast : now ≤ db.now) {v : ι} {t : Terms}
    (ht : holder row.providerInstanceId db.log = some (v, t)) : t.claim.leaseUntil < db.now := by
  by_contra hnot
  obtain ⟨k, hget, -, huntil⟩ := h _ v t ht (not_lt.mp hnot)
  have hlt := (leaseOver_iff huntil).mp (hr.checkpointLock k hget).2
  exact hnot (hlt.trans_le hpast)

theorem stands_claimRow (h : Stands req db) (row : ProviderInstance) :
    Stands req (db.claimRow w ((req w).claim now) row) := by
  intro i v t ht hnow
  have ht' : holder i (db.log ++ [_]) = some (v, t) := ht
  rw [holder_concat] at ht'
  by_cases hi : i = row.providerInstanceId
  · simp only [holderStep, if_pos hi.symm, Option.some_inj, Prod.mk.injEq] at ht'
    obtain ⟨rfl, rfl⟩ := ht'
    exact ⟨_, get_checkpoints_claimRow.trans (if_pos hi), rfl, rfl⟩
  · simp only [holderStep, if_neg (Ne.symm hi)] at ht'
    obtain ⟨k, hget, hk⟩ := h i v t ht' hnow
    exact ⟨k, get_checkpoints_claimRow.trans ((if_neg hi).trans hget), hk⟩

/-- A write to the checkpoint of `i` by its holder, or when no lease of another is running. -/
theorem stands_release (h : Stands req db) {i : String}
    {f : ProviderCheckpoint → ProviderCheckpoint}
    (hf : ∀ c, (f c).providerInstanceId = c.providerInstanceId)
    (hfree : ∀ v t, v ≠ w → holder i db.log = some (v, t) → t.claim.leaseUntil < db.now)
    (htables : db'.tables = updateCheckpoint db.tables i f) (hnow : db'.now = db.now) {r : Way}
    (hlog : db'.log = db.log ++ [.release i w r]) : Stands req db' := by
  intro k v t ht hle
  rw [hlog, holder_concat] at ht
  simp only [holderStep] at ht
  split_ifs at ht with hk
  rw [hnow] at hle
  by_cases hki : k = i
  · subst hki
    -- another holds the lease of `i`, and it is over
    have hv : v ≠ w := by
      rintro rfl
      exact hk ⟨rfl, by rw [ht]; rfl⟩
    exact absurd (hfree v t hv ht) (not_lt.mpr hle)
  · obtain ⟨c, hget, hc⟩ := h k v t ht hle
    refine ⟨c, ?_, hc⟩
    rw [htables, get_updateCheckpoint hf, if_neg hki]
    exact hget

/-- What is written to the checkpoint of `i` is not its lease. -/
theorem stands_update (h : Stands req db) {i : String}
    {f : ProviderCheckpoint → ProviderCheckpoint}
    (hf : ∀ c, (f c).providerInstanceId = c.providerInstanceId)
    (hsame : ∀ c, (f c).leaseOwner = c.leaseOwner ∧ (f c).leaseUntil = c.leaseUntil)
    (htables : db'.tables = updateCheckpoint db.tables i f) (hnow : db'.now = db.now)
    (hlog : db'.log = db.log) : Stands req db' := by
  intro k v t ht hle
  rw [hlog] at ht
  rw [hnow] at hle
  obtain ⟨c, hget, howner, huntil⟩ := h k v t ht hle
  unfold Holds
  rw [htables, get_updateCheckpoint hf, hget]
  by_cases hki : k = i
  · exact ⟨f c, if_pos hki, (hsame c).1.trans howner, (hsame c).2.trans huntil⟩
  · exact ⟨c, if_neg hki, howner, huntil⟩

theorem exclusive_of_moved (hinj : Function.Injective fun w => (req w).owner) {ch : Choice}
    {l l' : Local} (h : Moved req w db ch l db' l') (hl : Knows req w db l)
    (hcurrent : ∀ i ids loaded, ch = .go → l = .counted i ids loaded →
      loaded.leaseOwner = some (req w).owner → ∀ k ∈ db.tables.checkpoints.get i,
        k.leaseOwner = none ∨ k.leaseOwner = some (req w).owner ∨ leaseOver db.now k = true)
    (hs : Stands req db) (hlog : Each Exclusive db.log) :
    Stands req db' ∧ Each Exclusive db'.log := by
  cases h with
  | clock | load | read | turn => exact ⟨hs, hlog⟩
  | select | lock | flush | count | release => exact ⟨stands_congr hs rfl rfl rfl, hlog⟩
  | claim now rows =>
    have hboth := foldl_claimRow
      (I := fun db => (Stands req db ∧ now ≤ db.now) ∧ Each Exclusive db.log)
      (a := (req w).claim now) hl.nodup hl.ready (fun db row h hr => by
        refine ⟨⟨stands_claimRow h.1.1 row, h.1.2⟩, h.2.concat fun v t ht => ?_⟩
        exact over_of_ready h.1.1 hr h.1.2 ht) ⟨⟨hs, hl.past⟩, hlog⟩
    exact ⟨stands_congr hboth.1.1 rfl rfl rfl, hboth.2⟩
  | process i ids loaded p howner =>
    obtain ⟨t, ht⟩ := hl.1.holds howner
    have hwritten : Stands req (db.writeProcessed w i loaded p) := by
      refine stands_release (f := fun current => p.apply (flushLease loaded current)) hs
        (fun c => p.key _) (fun v t' hv ht' => ?_) rfl rfl rfl
      rw [ht, Option.some_inj, Prod.mk.injEq] at ht'
      exact absurd ht'.1.symm hv
    exact ⟨stands_congr hwritten rfl rfl rfl, hlog.concat trivial⟩
  | fail i ids loaded =>
    by_cases howner : loaded.leaseOwner = some (req w).owner
    · have hwritten : Stands req (db.writeFailed w (req w).owner i loaded) := by
        refine stands_release (w := w) (r := .failed) hs (recordFailure_key (req w).owner loaded)
          (fun v t hv ht => ?_) rfl rfl (if_pos howner)
        by_contra hnot
        obtain ⟨k, hget, hv', huntil⟩ := hs i v t ht (not_lt.mp hnot)
        rcases hcurrent i ids loaded rfl rfl howner k hget with hnone | hown | hover
        · rw [hv'] at hnone
          cases hnone
        · rw [hv', Option.some_inj] at hown
          exact hv (hinj hown)
        · exact hnot ((leaseOver_iff huntil).mp hover)
      refine ⟨stands_congr hwritten rfl rfl rfl, ?_⟩
      show Each Exclusive (if _ then _ else _)
      rw [if_pos howner]
      exact hlog.concat trivial
    · have hwritten : Stands req (db.writeFailed w (req w).owner i loaded) := by
        refine stands_update hs (recordFailure_key (req w).owner loaded) (fun c => ?_) rfl rfl
          (if_neg howner)
        rcases recordFailure_lease (req w).owner loaded c with ⟨ho, -⟩ | ⟨-, hsame⟩
        · exact absurd ho howner
        · exact hsame
      refine ⟨stands_congr hwritten rfl rfl rfl, ?_⟩
      show Each Exclusive (if _ then _ else _)
      rw [if_neg howner]
      exact hlog

omit [DecidableEq ι] in
theorem now_foldl_claimRow (a : ClaimDue) (rows : List ProviderInstance) :
    (rows.foldl (fun db row => db.claimRow w a row) db).now = db.now := by
  induction rows generalizing db with
  | nil => rfl
  | cons row rows ih => exact ih

theorem now_of_moved {ch : Choice} {l l' : Local} (h : Moved req w db ch l db' l') :
    db'.now = db.now := by
  cases h with
  | claim now rows => exact now_foldl_claimRow _ rows
  | clock | select | lock | load | flush | process | read | count | fail | turn | release => rfl

theorem stands_env {e : Env} (h : env e db = some db') (hs : Stands req db) : Stands req db' := by
  obtain ⟨hnow, hlog, hcheckpoints, -⟩ := env_cases h
  intro i v t ht hle
  rw [hlog] at ht
  unfold Holds
  rw [hcheckpoints]
  exact hs i v t ht (hnow.trans hle)

end Exclusive

/-- **In every run whose failures are current** leases are exclusive. -/
theorem reach_exclusive (hinj : Function.Injective fun w => (req w).owner) (h0 : Start c₀)
    (h : (system req).Reach (Current req) c₀ c) : Stands req c.db ∧ Each Exclusive c.db.log := by
  refine h.invariant (I := fun c => Stands req c.db ∧ Each Exclusive c.db.log) ⟨?_, ?_⟩ ?_
  · intro i w t ht
    rw [h0.log] at ht
    cases ht
  · rw [h0.log]
    exact each_nil
  · intro c l c' hr hI hC hn
    cases l with
    | env e =>
      obtain ⟨db, he, rfl⟩ := Sys.next_env.mp hn
      exact ⟨stands_env he hI.1, by rw [(env_cases he).2.1]; exact hI.2⟩
    | proc w ch =>
      obtain ⟨db, l, hm, rfl⟩ := Sys.next_proc.mp hn
      refine exclusive_of_moved hinj (move_cases hm)
        ((reach_consistent hinj h0 hr).2 w) ?_ hI.1 hI.2
      rintro i ids loaded rfl hl
      simpa only [Current, hl] using hC

/-! ### What a run guarantees -/

/-- Processing commits only for the last to have claimed the instance, who has not released it
since, and claims of an instance are at least its interval apart. -/
structure Fenced (log : List (Event String ι Terms Way)) : Prop where
  holder : ∀ pre i w post, log = pre ++ .release i w .processed :: post →
    ∃ before t since, pre = before ++ .grant i w t :: since ∧ NoGrant i since ∧ NoRelease i w since
  /-- A lease is processed once. -/
  once : ∀ pre i w mid w' post,
    log = pre ++ .release i w .processed :: (mid ++ .release i w' .processed :: post) →
      ¬ NoGrant i mid
  distance : ∀ pre i w t mid w' t' post,
    log = pre ++ .grant i w t :: (mid ++ .grant i w' t' :: post) → NoGrant i mid →
      t.claim.now + seconds (t.claim.interval t.row) ≤ t'.claim.now

theorem fenced_of_proper {log : List (Event String ι Terms Way)} (h : Each Proper log) :
    Fenced log where
  holder pre i w post hlog := by
    obtain ⟨t, ht⟩ := h pre _ post hlog
    obtain ⟨before, since, hpre, hgrant, hrelease⟩ := exists_grant_of_holder ht
    exact ⟨before, t, since, hpre, hgrant, hrelease⟩
  once pre i w mid w' post hlog := by
    obtain ⟨t, ht⟩ := h pre _ _ hlog
    obtain ⟨t', ht'⟩ := h (pre ++ .release i w .processed :: mid) (.release i w' .processed) post
      (by rw [hlog]; simp)
    exact exists_grant_between ht ht'
  distance pre i w t mid w' t' post hlog hmid := by
    have hproper := h (pre ++ .grant i w t :: mid) (.grant i w' t') post (by rw [hlog]; simp)
    exact hproper w t (lastGrant_of_noGrant hmid)

/-- What can be said of every run from `c₀`, and of the runs whose failures are current. -/
structure LeaseSafety (req : ι → Runner) (c₀ : Config ι (Db ι) Local) : Prop where
  fenced : ∀ c, (system req).Reachable c₀ c → Fenced c.db.log
  /-- A lease that is not over is in the table. -/
  stands : ∀ c, (system req).Reach (Current req) c₀ c → Stands req c.db
  /-- No transaction of a runner clears or overwrites the lease of another. -/
  kept : ∀ c w ch c', (system req).Reach (Current req) c₀ c → Current req c (.proc w ch) →
    (system req).next c (.proc w ch) = some c' → ∀ i v t, v ≠ w →
      holder i c.db.log = some (v, t) → c.db.now ≤ t.claim.leaseUntil →
        holder i c'.db.log = some (v, t) ∧ Holds req c'.db i v t
  /-- An instance is claimed again after the lease was released or is over. -/
  after : ∀ c, (system req).Reach (Current req) c₀ c → ∀ pre i w t mid w' t' post,
    c.db.log = pre ++ .grant i w t :: (mid ++ .grant i w' t' :: post) → NoGrant i mid →
      ¬ NoRelease i w mid ∨ t.claim.leaseUntil < t'.committedAt
  /-- A failure that is not current clears the lease of another. -/
  lost : ∀ c w ch c', (system req).Reachable c₀ c → ¬ Current req c (.proc w ch) →
    (system req).next c (.proc w ch) = some c' → ∃ i v t, v ≠ w ∧
      holder i c.db.log = some (v, t) ∧ c.db.now ≤ t.claim.leaseUntil ∧ Holds req c.db i v t ∧
        ¬ Holds req c'.db i v t

/-- A move of `w` leaves the leases of others with their holders, unless they are over. -/
theorem holder_of_moved {w v : ι} {db db' : Db ι} {ch : Choice} {l l' : Local}
    (h : Moved req w db ch l db' l') (hl : Knows req w db l) (hs : Stands req db) {i : String}
    {t : Terms} (hv : v ≠ w) (ht : holder i db.log = some (v, t))
    (hnow : db.now ≤ t.claim.leaseUntil) : holder i db'.log = some (v, t) := by
  have hrelease : ∀ k r, holder i (db.log ++ [.release k w r]) = some (v, t) := by
    intro k r
    rw [holder_concat, ht]
    exact if_neg fun hk => hv (Option.some_inj.mp hk.2)
  cases h with
  | clock | load | read | turn | select | lock | flush | count | release => exact ht
  | claim now rows =>
    have hall := foldl_claimRow
      (I := fun db' => (Stands req db' ∧ now ≤ db'.now ∧ db'.now = db.now) ∧
        holder i db'.log = some (v, t)) (a := (req w).claim now) hl.nodup hl.ready
      (fun db' row h hr => by
        refine ⟨⟨stands_claimRow h.1.1 row, h.1.2⟩, ?_⟩
        show holder i (db'.log ++ [_]) = some (v, t)
        rw [holder_concat, h.2]
        refine if_neg ?_
        rintro rfl
        have hover := over_of_ready h.1.1 hr h.1.2.1 h.2
        rw [h.1.2.2] at hover
        exact absurd hnow (not_le.mpr hover)) ⟨⟨hs, hl.past, rfl⟩, ht⟩
    exact hall.2
  | process i' ids loaded p => exact hrelease i' .processed
  | fail i' ids loaded =>
    show holder i (if _ then _ else _) = some (v, t)
    split_ifs
    · exact hrelease i' .failed
    · exact ht

theorem lost_of_not_current {w : ι} {ch : Choice} {c' : Config ι (Db ι) Local}
    (hcons : Consistent req c.db) (hnot : ¬ Current req c (.proc w ch))
    (hn : (system req).next c (.proc w ch) = some c') : ∃ i v t, v ≠ w ∧
      holder i c.db.log = some (v, t) ∧ c.db.now ≤ t.claim.leaseUntil ∧ Holds req c.db i v t ∧
        ¬ Holds req c'.db i v t := by
  obtain ⟨db, l, hm, rfl⟩ := Sys.next_proc.mp hn
  cases ch with
  | process | fail | flush | rollback | crash => exact absurd trivial hnot
  | go =>
    cases hl : c.loc w with
    | idle | clock | selected | working | locked | loaded | flushed | failing | read | stopped =>
      simp [Current, hl] at hnot
    | counted i ids loaded =>
      simp only [Current, hl, not_forall, not_or] at hnot
      obtain ⟨howner, k, hget, hsome, hother, hover⟩ := hnot
      obtain ⟨o, ho⟩ := Option.ne_none_iff_exists'.mp hsome
      obtain ⟨v, t, ht, rfl, huntil⟩ := hcons.owned i k o hget ho
      have hv : v ≠ w := by
        rintro rfl
        exact hother ho
      rw [leaseOver_iff huntil, not_lt] at hover
      refine ⟨i, v, t, hv, ht, hover, ⟨k, hget, ho, huntil⟩, ?_⟩
      have hmove : (system req).move w .go c.db (.counted i ids loaded) =
        some ((c.db.writeFailed w (req w).owner i loaded).release w, .working ids) := rfl
      rw [hl, hmove, Option.some_inj, Prod.mk.injEq] at hm
      obtain ⟨rfl, rfl⟩ := hm
      rintro ⟨k', hget', ho', -⟩
      have hwritten : (updateCheckpoint c.db.tables i
          (recordFailure (req w).owner loaded)).checkpoints.get i = some k' := hget'
      rw [get_updateCheckpoint (recordFailure_key _ _), if_pos rfl, hget, Option.map_some,
        Option.some_inj] at hwritten
      rcases recordFailure_lease (req w).owner loaded k with ⟨-, hnone⟩ | ⟨hne, -⟩
      · rw [← hwritten, hnone] at ho'
        cases ho'
      · exact hne howner

/-- **Leases fence out stale runners**, and are exclusive in every run whose failures are
current. -/
theorem stale_runners_fenced (hinj : Function.Injective fun w => (req w).owner) (h0 : Start c₀) :
    LeaseSafety req c₀ where
  fenced c h := fenced_of_proper (reach_consistent hinj h0 h).1.2
  stands c h := (reach_exclusive hinj h0 h).1
  kept c w ch c' h hC hn i v t hv ht hnow := by
    have hc := reach_exclusive hinj h0 h
    have hc' := reach_exclusive hinj h0 (.step h hC hn)
    obtain ⟨db, l, hm, rfl⟩ := Sys.next_proc.mp hn
    have hmoved := move_cases hm
    have ht' := holder_of_moved hmoved ((reach_consistent hinj h0 h).2 w) hc.1 hv ht hnow
    refine ⟨ht', hc'.1 i v t ht' ?_⟩
    rw [now_of_moved hmoved]
    exact hnow
  after c h pre i w t mid w' t' post hlog hmid := by
    by_cases hr : NoRelease i w mid
    · have hexclusive := (reach_exclusive hinj h0 h).2 (pre ++ .grant i w t :: mid) (.grant i w' t')
        post (by rw [hlog]; simp)
      exact Or.inr (hexclusive w t (holder_of_noGrant hmid hr))
    · exact Or.inl hr
  lost c w ch c' h hnot hn := lost_of_not_current (reach_consistent hinj h0 h).1.1 hnot hn

end Runs

/-! ### A stale failure -/

omit [DecidableEq ι] in
def sampleRunners : Bool → Runner :=
  fun second => { owner := if second then "host:b" else "host:a" }

omit [DecidableEq ι] in
/-- One instance that is polled every 30 seconds. -/
def sampleConfig : Config Bool (Db Bool) Local where
  db :=
    { tables :=
        { instances := Table.empty.put
            { providerInstanceId := "cetus-pc"
              providerKey := "warframe.cetus_night"
              intervalSeconds := some 30 } }
      instanceLocks := fun _ => none
      checkpointLocks := fun _ => none
      now := seconds 1789387200 }
  loc _ := .idle

omit [DecidableEq ι] in
theorem sampleRunners_injective : Function.Injective fun w => (sampleRunners w).owner := by
  intro w w' h
  cases w <;> cases w' <;> simp [sampleRunners] at h ⊢

omit [DecidableEq ι] in
theorem sampleConfig_start : Start sampleConfig where
  unleased i k h := by cases h
  log := rfl
  idle _ := rfl

omit [DecidableEq ι] in
theorem stale_runners_fenced_sample : LeaseSafety sampleRunners sampleConfig :=
  stale_runners_fenced sampleRunners_injective sampleConfig_start

omit [DecidableEq ι] in
/-- The first runner claims the instance and reads its lease to record a failure. It writes when the
second has claimed the instance a minute later, and can claim it again half a minute after that. -/
def sampleSchedule : List (Label Bool Choice Env) :=
  [.proc false .go, .proc false .go, .proc false .go, .proc false .fail, .proc false .go,
    .env (.tick 61000000), .proc true .go, .proc true .go, .proc true .go, .proc false .go,
    .proc false .go, .env (.tick 30000000), .proc false .go, .proc false .go, .proc false .go,
    .proc false .go]

omit [DecidableEq ι] in
/-- The last two claims are of one instance, with a release by another runner between them, and the
second is made while the lease of the first is running. -/
def overlaps : List (Event String Bool Terms Way) → Bool
  | [_, .grant i w t, .release _ w' _, .grant i' _ t'] =>
    i = i' && w' ≠ w && t'.committedAt ≤ t.claim.leaseUntil
  | _ => false

omit [DecidableEq ι] in
/-- **A stale failure clears the lease of another**: the instance is claimed again while the lease
is running. -/
theorem stale_failure : ¬ ∀ (req : Bool → Runner) (c₀ : Config Bool (Db Bool) Local),
    (Function.Injective fun w => (req w).owner) → Start c₀ → ∀ c, (system req).Reachable c₀ c →
      ∀ pre i w t mid w' t' post,
        c.db.log = pre ++ .grant i w t :: (mid ++ .grant i w' t' :: post) → NoGrant i mid →
          ¬ NoRelease i w mid ∨ t.claim.leaseUntil < t'.committedAt := by
  intro hall
  have hrun : ∃ c, (system sampleRunners).Reachable sampleConfig c ∧ overlaps c.db.log = true :=
    Sys.exists_reachable sampleSchedule (by decide +kernel)
  obtain ⟨c, hc, hover⟩ := hrun
  have hafter := hall sampleRunners sampleConfig sampleRunners_injective sampleConfig_start c hc
  generalize c.db.log = log at hover hafter
  unfold overlaps at hover
  split at hover
  · rename_i first i w t k w' r i' w'' t'
    simp only [Bool.and_eq_true, decide_eq_true_eq] at hover
    obtain ⟨⟨rfl, hw⟩, hle⟩ := hover
    rcases hafter [first] i w t [.release k w' r] w'' t' [] rfl (by simp [NoGrant]) with hr | hlt
    · exact hr (by simp [NoRelease, Ne.symm hw])
    · exact absurd hlt (not_lt.mpr hle)
  · cases hover

end EventServer.Scheduler.LeaseRaces
