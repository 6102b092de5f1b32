import Mathlib.Data.Fintype.Basic
import EventServer.Lib.Linearizability
import EventServer.Api.Subscriptions
import EventServer.System

/-! # Concurrent subscriptions

`add_subscription` and `remove_subscription` as transactions at READ COMMITTED, in which every
SELECT is a move of its own: the account and the permissions of the caller, the event type and its
alias, and the stored subscription. The write is committed together with the audit entry. No row is
locked before it is written, so other transactions commit between any two moves: an INSERT then
fails if the row is there, an UPDATE fails if it is gone, and a DELETE that finds nothing passes.

The requests are linearizable in what they store (`serialized`): the table is what the requests make
of it one after the other, and `created` is reported as it was. `updated` and `deleted` can be
reported too often, when another request writes the row between the read and the write; where none
does, a request is answered as if it had been alone, and none of them fails
(`exact_unless_raced`). -/

namespace EventServer.Services.SubscriptionRaces

open EventServer.Db EventServer.Lib EventServer.Python EventServer.System
open EventServer.Services.Users EventServer.Services.Subscriptions EventServer.Api.Subscriptions

/-- A request to the subscription API. -/
inductive Request where
  | add (a : AddSubscription)
  | remove (a : RemoveSubscription)

namespace Request

def platform : Request → String
  | add a => a.platform
  | remove a => a.platform

def openid : Request → String
  | add a => a.openid
  | remove a => a.openid

def eventKey : Request → String
  | add a => a.body.val.eventKey
  | remove a => a.eventKey

end Request

/-! ### What is asked of a row -/

/-- What a request asks of one row once its checks have passed: `subscribe` carries the row as it is
inserted if there is none. -/
inductive RowOp where
  | subscribe (item : Subscription)
  | unsubscribe (key : String × String × String)
  deriving DecidableEq

inductive Answer where
  | subscribed (r : Subscribed)
  | unsubscribed (deleted : Bool)
  deriving DecidableEq

/-- What has been asked of a row, and what is answered. -/
structure Done where
  op : RowOp
  answer : Answer
  deriving DecidableEq

namespace RowOp

def key : RowOp → String × String × String
  | subscribe item => Subscription.key item
  | unsubscribe key => key

/-- The answer of a request that has found `existing`. -/
def answer (existing : Option Subscription) : RowOp → Answer
  | subscribe item =>
    match existing with
    | some existing => .subscribed
        ⟨{ existing with matchKeys := item.matchKeys }, false, existing.matchKeys ≠ item.matchKeys⟩
    | none => .subscribed ⟨item, true, false⟩
  | unsubscribe _ => .unsubscribed existing.isSome

/-- The session has nothing to write to the row. -/
def silent (existing : Option Subscription) : RowOp → Bool
  | subscribe item => existing.map (·.matchKeys) = some item.matchKeys
  | unsubscribe _ => existing.isNone

/-- The table after the flush of a session that has found `existing`, or `none` if the flush fails:
on a row that is already there, or on one that is not there any more. -/
def flush (existing : Option Subscription) (t : Subscriptions)
    (op : RowOp) : Option Subscriptions :=
  if op.silent existing then some t
  else
    match op, existing with
    | subscribe item, none => t.insert? item
    | subscribe item, some _ => (t.get (Subscription.key item)).map fun current =>
        t.put { current with matchKeys := item.matchKeys }
    | unsubscribe key, _ => some (t.erase key)

/-- The row after a `subscribe` on its own. -/
def stored (item : Subscription) : Option Subscription → Subscription
  | some current => { current with matchKeys := item.matchKeys }
  | none => item

/-- The table after the operation on its own. -/
def apply (t : Subscriptions) : RowOp → Subscriptions
  | subscribe item => t.put (stored item (t.get (Subscription.key item)))
  | unsubscribe key => t.erase key

end RowOp

/-! ### The transactions -/

/-- The part of `resolve_event` after its reads. -/
def available (eventKey : String) : Option EventType → Except Raised EventType
  | none => .error (.eventNotFoundError eventKey)
  | some event =>
    if event.enabled ∧ event.subscribable then .ok event else .error (.eventNotFoundError eventKey)

/-- The part of `permission_snapshot` after its reads, and the condition on it. -/
def commands (user : User) (rows : List UserPermission) : Bool :=
  user.accountStatus = .active && permissionValue rows .command

variable [Runtime]

/-- What a request asks for, on the event type its key has led to. -/
def Request.asks (event : Option EventType) : Request → Except Raised RowOp
  | .add a =>
    match available a.body.val.eventKey event with
    | .error e => .error e
    | .ok event =>
      match requestedMatchKeys event (some a.body.val.matchKeys) with
      | .error e => .error e
      | .ok requested => .ok (.subscribe
          { platform := a.platform, openid := a.openid, eventKey := event.eventKey,
            matchKeys := requested })
  | .remove a =>
    match available a.eventKey event with
    | .error _ => .ok (.unsubscribe (a.platform, a.openid, a.eventKey))
    | .ok event => .ok (.unsubscribe (a.platform, a.openid, event.eventKey))

omit [Runtime] in
/-- The audit entry of a request. -/
def Request.audit (answer : Answer) : Request → List AuditLog
  | .add a =>
    match answer with
    | .subscribed r => [a.audit r]
    | .unsubscribed _ => []
  | .remove a =>
    match answer with
    | .subscribed _ => []
    | .unsubscribed deleted => [a.audit deleted]

/-- Where a transaction stands, and what it has read. -/
inductive Local where
  | start
  | account (user : User)
  | permitted
  | unnamed
  | renamed (eventKey : String)
  | resolved (event : Option EventType)
  | loaded (op : RowOp) (existing : Option Subscription)
    (h : ∀ r, existing = some r → Subscription.key r = op.key)
  | answered (d : Done)
  | failed (d : Option Done)

omit [Runtime] in
/-- What the transaction has done: one that has nothing to write has done it with its read. -/
def Local.done : Local → Option Done
  | .loaded op existing _ => if op.silent existing then some ⟨op, op.answer existing⟩ else none
  | .answered d => some d
  | .failed d => d
  | _ => none

omit [Runtime] in
def Local.ended : Local → Bool
  | .answered _ => true
  | .failed _ => true
  | _ => false

/-- `rollback`: the transaction is aborted, by a lost connection or a lock that is not granted. -/
inductive Choice where
  | go
  | rollback

variable {ι : Type}

/-- The moves of the transaction that answers `req i`. -/
def move (req : ι → Request) (i : ι) : Choice → Store → Local → Option (Store × Local)
  | .go, s, .start =>
    match s.users.get ((req i).platform, (req i).openid) with
    | none => some (s, .failed none)
    | some user => some (s, .account user)
  | .go, s, .account user =>
    if commands user (s.userPermissions.rows.filter fun r =>
        r.platform = (req i).platform ∧ r.openid = (req i).openid) then some (s, .permitted)
    else some (s, .failed none)
  | .go, s, .permitted =>
    match s.eventTypes.get (req i).eventKey with
    | some event => some (s, .resolved (some event))
    | none => some (s, .unnamed)
  | .go, s, .unnamed =>
    match s.eventAliases.get (req i).eventKey with
    | some row => some (s, .renamed row.eventKey)
    | none => some (s, .resolved none)
  | .go, s, .renamed eventKey => some (s, .resolved (s.eventTypes.get eventKey))
  | .go, s, .resolved event =>
    match (req i).asks event with
    | .error _ => some (s, .failed none)
    | .ok op => some (s, .loaded op (s.subscriptions.get op.key) fun _ h => Table.key_of_get h)
  | .go, s, .loaded op existing _ =>
    match op.flush existing s.subscriptions with
    | none => some (s, .failed none)
    | some subscriptions => some
        ({ s with
            subscriptions := subscriptions
            auditLogs := s.auditLogs ++ (req i).audit (op.answer existing) },
          .answered ⟨op, op.answer existing⟩)
  | .rollback, s, l => if l.ended then none else some (s, .failed l.done)
  | _, _, _ => none

omit [Runtime] in
/-- The request is one of the subscription API. -/
def onSubscriptions : Op → Bool
  | .subscribe _ | .unsubscribe _ => true
  | _ => false

/-- Any number of requests against one database, while all other requests are answered. -/
def system (n : ℕ) (req : ι → Request) : Sys ι Choice Op Store Local where
  move := move req
  env op s := if onSubscriptions op then none else some (step n s op)

/-! ### What a flush does -/

omit [Runtime] in
theorem apply_of_silent {t : Subscriptions} {op : RowOp} (h : op.silent (t.get op.key) = true) :
    op.apply t = t := by
  cases op with
  | subscribe item =>
    simp only [RowOp.silent, RowOp.key, decide_eq_true_eq, Option.map_eq_some_iff] at h
    obtain ⟨current, hg, hkeys⟩ := h
    have hstored : RowOp.stored item (some current) = current := by
      cases current
      cases hkeys
      rfl
    show t.put (RowOp.stored item (t.get (Subscription.key item))) = t
    rw [hg, hstored]
    refine Table.put_of_get ?_
    rw [(Table.key_of_get hg : Subscription.key current = _), hg]
  | unsubscribe key =>
    simp only [RowOp.silent, RowOp.key, Option.isNone_iff_eq_none] at h
    exact Table.erase_of_get_eq_none h

omit [Runtime] in
theorem key_stored (item : Subscription) (t : Subscriptions) :
    Subscription.key (RowOp.stored item (t.get (Subscription.key item))) =
      Subscription.key item := by
  cases hg : t.get (Subscription.key item) with
  | none => rfl
  | some current => exact (Table.key_of_get hg : Subscription.key current = _)

omit [Runtime] in
theorem get_apply_other {t : Subscriptions} {op : RowOp} {key : String × String × String}
    (h : key ≠ op.key) : (op.apply t).get key = t.get key := by
  cases op with
  | subscribe item =>
    show (t.put _).get key = _
    rw [Table.get_put, key_stored]
    exact if_neg h
  | unsubscribe key' =>
    show (t.erase key').get key = _
    rw [Table.get_erase]
    exact if_neg h

/-- What is told, against the answer that would be right: `updated` and `deleted` may be told where
nothing has been updated or deleted, but not the other way round. -/
def Answer.Covers : Answer → Answer → Prop
  | .subscribed told, .subscribed r =>
    Subscription.key told.item = Subscription.key r.item ∧ told.item.matchKeys = r.item.matchKeys ∧
      told.created = r.created ∧ (r.updated = true → told.updated = true)
  | .unsubscribed told, .unsubscribed deleted => deleted = true → told = true
  | _, _ => False

/-- What is told is what happened. -/
def Exact (t : Subscriptions) (d : Done) : Prop := d.answer = d.op.answer (t.get d.op.key)

omit [Runtime] in
instance decidableExact (t : Subscriptions) (d : Done) : Decidable (Exact t d) :=
  inferInstanceAs (Decidable (d.answer = _))

/-- What is told covers what happened. -/
def Right (t : Subscriptions) (d : Done) : Prop := d.answer.Covers (d.op.answer (t.get d.op.key))

/-- The table after the operation of an entry. -/
def applied (t : Subscriptions) (d : Done) : Subscriptions := d.op.apply t

omit [Runtime] in
theorem Exact.right {t : Subscriptions} {d : Done} (h : Exact t d) : Right t d := by
  unfold Right
  rw [← h]
  cases d.answer with
  | subscribed r => exact ⟨rfl, rfl, rfl, id⟩
  | unsubscribed deleted => exact id

section Flush

variable {t t' : Subscriptions} {op : RowOp} {existing : Option Subscription}

omit [Runtime] in
/-- **A write does what its operation does** to the table as it is, and its answer covers that. -/
theorem flush_right (hkey : ∀ r, existing = some r → Subscription.key r = op.key)
    (hs : op.silent existing = false) (h : op.flush existing t = some t') :
    t' = op.apply t ∧ Right t ⟨op, op.answer existing⟩ := by
  unfold RowOp.flush at h
  rw [if_neg (by rw [hs]; decide)] at h
  cases op with
  | subscribe item =>
    cases existing with
    | none =>
      have hi : t.insert? item = some t' := h
      have hg : t.get (Subscription.key item) = none := Table.get_eq_none_of_insert? hi
      refine ⟨?_, ?_⟩
      · show t' = t.put (RowOp.stored item (t.get (Subscription.key item)))
        rw [hg]
        exact (Table.put_of_insert? hi).symm
      · show Answer.Covers _ (RowOp.answer (t.get (Subscription.key item)) _)
        rw [hg]
        exact ⟨rfl, rfl, rfl, id⟩
    | some ex =>
      obtain ⟨current, hg, rfl⟩ := Option.map_eq_some_iff.mp h
      have hne : ex.matchKeys ≠ item.matchKeys := by simpa [RowOp.silent] using hs
      refine ⟨?_, ?_⟩
      · show _ = t.put (RowOp.stored item (t.get (Subscription.key item)))
        rw [hg]
        rfl
      · show Answer.Covers _ (RowOp.answer (t.get (Subscription.key item)) _)
        rw [hg]
        refine ⟨(hkey ex rfl).trans (Table.key_of_get hg).symm, rfl, rfl, fun _ => ?_⟩
        exact decide_eq_true hne
  | unsubscribe key =>
    cases existing with
    | none => cases hs
    | some ex =>
      cases h
      exact ⟨rfl, fun _ => rfl⟩

omit [Runtime] in
/-- On a row that is as it was found, a write passes, and its answer is exact. -/
theorem flush_found (hfound : t.get op.key = existing) :
    op.flush existing t = some (op.apply t) ∧ Exact t ⟨op, op.answer existing⟩ := by
  refine ⟨?_, by rw [← hfound]; rfl⟩
  unfold RowOp.flush
  split_ifs with hs
  · rw [apply_of_silent (by rw [hfound, hs])]
  · cases op with
    | subscribe item =>
      have hg : t.get (Subscription.key item) = existing := hfound
      show _ = some (t.put (RowOp.stored item (t.get (Subscription.key item))))
      cases existing with
      | none =>
        obtain ⟨t', hi⟩ := Table.exists_insert? hg
        rw [hg]
        show t.insert? item = some (t.put item)
        rw [hi, Table.put_of_insert? hi]
      | some current =>
        show (t.get (Subscription.key item)).map _ = _
        rw [hg]
        rfl
    | unsubscribe key => rfl

end Flush

/-! ### One move -/

/-- One move stores nothing, or does the one operation of its request; what holds of a request that
writes nothing, and of one that writes, holds of it. -/
theorem move_effect {Q : Subscriptions → Done → Prop} {req : ι → Request} {i : ι} {ch : Choice}
    {s s' : Store} {l l' : Local} (h : move req i ch s l = some (s', l'))
    (hread : ∀ t d, Exact t d → Q t d)
    (hwrite : ∀ op existing hkey t, l = .loaded op existing hkey → op.silent existing = false →
      op.flush existing s.subscriptions = some t →
      t = op.apply s.subscriptions ∧ Q s.subscriptions ⟨op, op.answer existing⟩) :
    Sys.Effect Local.done (·.subscriptions) applied Q s l s' l' := by
  cases ch with
  | rollback =>
    have hr : (if l.ended then none else some (s, Local.failed l.done)) = some (s', l') := by
      cases l <;> exact h
    split_ifs at hr
    cases hr
    exact .quiet rfl rfl
  | go =>
    cases l with
    | start | permitted | unnamed =>
      simp only [move] at h
      split at h <;> cases h <;> exact .quiet rfl rfl
    | account user =>
      simp only [move] at h
      split_ifs at h <;> cases h <;> exact .quiet rfl rfl
    | renamed eventKey =>
      cases h
      exact .quiet rfl rfl
    | resolved event =>
      simp only [move] at h
      split at h
      · cases h
        exact .quiet rfl rfl
      · rename_i op _
        cases h
        cases hs : op.silent (s.subscriptions.get op.key) with
        | false => exact .quiet rfl (by simp [Local.done, hs])
        | true =>
          -- a request with nothing to write is done with its read
          refine .takes ⟨op, op.answer (s.subscriptions.get op.key)⟩ rfl
            (by simp [Local.done, hs]) ?_ (hread _ _ rfl)
          exact (apply_of_silent hs).symm
    | loaded op existing hkey =>
      simp only [move] at h
      cases hs : op.silent existing with
      | true =>
        have hf : op.flush existing s.subscriptions = some s.subscriptions := if_pos hs
        rw [hf] at h
        cases h
        exact .quiet rfl (by simp [Local.done, hs])
      | false =>
        cases hf : op.flush existing s.subscriptions with
        | none =>
          rw [hf] at h
          cases h
          exact .quiet rfl (by simp [Local.done, hs])
        | some t =>
          rw [hf] at h
          cases h
          obtain ⟨ht, hq⟩ := hwrite op existing hkey t rfl hs hf
          exact .takes _ (by simp [Local.done, hs]) rfl ht hq
    | answered d => cases h
    | failed d => cases h

theorem subscriptions_step {n : ℕ} {s : Store} {op : Op} (h : onSubscriptions op = false) :
    (step n s op).subscriptions = s.subscriptions := by
  cases op with
  | subscribe | unsubscribe => cases h
  | register entry =>
    refine committed_cases (P := fun s' => s'.subscriptions = s.subscriptions) rfl fun r hr => ?_
    obtain ⟨_, -, h'⟩ := register_ok (registered_ok hr)
    rw [h']
  | publish | claim | ack | fail => exact (sameCatalog_step s rfl).subscriptions
  | setPermissions | changeRole | createPairingCode | approvePairingCode | bootstrapFirstAdmin
  | setAccountStatus => exact (sameEvents_step s rfl).subscriptions

theorem subscriptions_env {n : ℕ} {req : ι → Request} {op : Op} {s s' : Store}
    (h : (system n req).env op s = some s') : s'.subscriptions = s.subscriptions := by
  have he : (if onSubscriptions op then none else some (step n s op)) = some s' := h
  split_ifs at he with hop
  cases he
  exact subscriptions_step (by simpa using hop)

/-! ### What a request has asked -/

/-- The operation is what the request asks for, on an event type that has been found. -/
def Asked (Found : EventType → Prop) (r : Request) (op : RowOp) : Prop :=
  ∃ event, r.asks event = .ok op ∧ ∀ e, event = some e → Found e

omit [Runtime] in
/-- The answer says that something has been stored. -/
def Answer.changed : Answer → Bool
  | .subscribed r => r.created || r.updated
  | .unsubscribed deleted => deleted

/-- What is known of a transaction by what it holds. -/
def Traced (Found : EventType → Prop) (r : Request) : Local → Prop
  | .resolved event => ∀ e, event = some e → Found e
  | .loaded op _ _ => Asked Found r op
  | .answered d => Asked Found r d.op
  | .failed (some d) => Asked Found r d.op ∧ d.answer.changed = false
  | _ => True

theorem Traced.mono {F G : EventType → Prop} (hFG : ∀ e, F e → G e) {r : Request} {l : Local}
    (h : Traced F r l) : Traced G r l := by
  have asked {op : RowOp} (ha : Asked F r op) : Asked G r op := by
    obtain ⟨event, hop, hf⟩ := ha
    exact ⟨event, hop, fun e he => hFG e (hf e he)⟩
  cases l with
  | start | account | permitted | unnamed | renamed => trivial
  | resolved event => exact fun e he => hFG e (h e he)
  | loaded op existing hkey => exact asked h
  | answered d => exact asked h
  | failed d =>
    cases d with
    | none => trivial
    | some d => exact ⟨asked h.1, h.2⟩

omit [Runtime] in
theorem changed_of_silent {op : RowOp} {existing : Option Subscription}
    (h : op.silent existing = true) : (op.answer existing).changed = false := by
  cases op with
  | subscribe item =>
    cases existing with
    | none => cases h
    | some ex =>
      have hkeys : ex.matchKeys = item.matchKeys := by simpa [RowOp.silent] using h
      simp [RowOp.answer, Answer.changed, hkeys]
  | unsubscribe key =>
    cases existing with
    | none => rfl
    | some ex => cases h

omit [Runtime] in
theorem applied_of_unchanged {t : Subscriptions} {d : Done} (h : Right t d)
    (hc : d.answer.changed = false) : applied t d = t := by
  obtain ⟨op, answer⟩ := d
  refine apply_of_silent ?_
  cases op with
  | subscribe item =>
    cases answer with
    | unsubscribed deleted =>
      cases hg : t.get (Subscription.key item) <;>
        simp [Right, RowOp.key, RowOp.answer, hg, Answer.Covers] at h
    | subscribed told =>
      simp only [Answer.changed, Bool.or_eq_false_iff] at hc
      show (RowOp.subscribe item).silent (t.get (Subscription.key item)) = true
      have hr : Answer.Covers (.subscribed told)
          (RowOp.answer (t.get (Subscription.key item)) (.subscribe item)) := h
      cases hg : t.get (Subscription.key item) with
      | none =>
        rw [hg] at hr
        have hcreated : told.created = true := hr.2.2.1
        rw [hc.1] at hcreated
        cases hcreated
      | some current =>
        rw [hg] at hr
        have hupdated : decide (current.matchKeys ≠ item.matchKeys) = true → told.updated = true :=
          hr.2.2.2
        by_contra hne
        have : told.updated = true := hupdated (by simpa [RowOp.silent] using hne)
        rw [hc.2] at this
        cases this
  | unsubscribe key =>
    cases answer with
    | subscribed r => exact h.elim
    | unsubscribed told =>
      have htold : told = false := hc
      have hr : (t.get key).isSome = true → told = true := h
      show (t.get key).isNone = true
      cases hg : t.get key with
      | none => rfl
      | some r =>
        rw [hg, htold] at hr
        cases hr rfl

theorem move_traced {F : EventType → Prop} {req : ι → Request} {i : ι} {ch : Choice} {s s' : Store}
    {l l' : Local} (hF : ∀ e ∈ s.eventTypes, F e) (h : move req i ch s l = some (s', l'))
    (hl : Traced F (req i) l) : Traced F (req i) l' := by
  cases ch with
  | rollback =>
    have hr : (if l.ended then none else some (s, Local.failed l.done)) = some (s', l') := by
      cases l <;> exact h
    split_ifs at hr with hend
    cases hr
    cases l with
    | start | account | permitted | unnamed | renamed | resolved => trivial
    | loaded op existing hkey =>
      cases hs : op.silent existing with
      | false => simp [Local.done, hs, Traced]
      | true =>
        simp only [Local.done, hs, if_true]
        exact ⟨hl, changed_of_silent hs⟩
    | answered | failed => exact absurd rfl hend
  | go =>
    cases l with
    | start =>
      simp only [move] at h
      split at h <;> cases h <;> trivial
    | account user =>
      simp only [move] at h
      split_ifs at h <;> cases h <;> trivial
    | permitted =>
      simp only [move] at h
      split at h
      · rename_i event hg
        cases h
        rintro e he
        cases he
        exact hF event (Table.mem_of_get hg)
      · cases h
        trivial
    | unnamed =>
      simp only [move] at h
      split at h
      · cases h
        trivial
      · cases h
        rintro e he
        cases he
    | renamed eventKey =>
      cases h
      exact fun e he => hF e (Table.mem_of_get he)
    | resolved event =>
      simp only [move] at h
      split at h
      · cases h
        trivial
      · rename_i op hop
        cases h
        exact ⟨event, hop, hl⟩
    | loaded op existing hkey =>
      simp only [move] at h
      split at h
      · cases h
        trivial
      · cases h
        exact hl
    | answered d => cases h
    | failed d => cases h

/-! ### Runs -/

/-- The transaction has a write before it, to the row of this key. -/
def Local.pending : Local → Option (String × String × String)
  | .loaded op existing _ => if op.silent existing then none else some op.key
  | _ => none

variable [DecidableEq ι]

/-- No condition on the moves. -/
def Anyhow (_ : Config ι Store Local) (_ : Label ι Choice Op) : Prop := True

/-- A move that writes a row that no other request is about to write. -/
def Unraced (c : Config ι Store Local) : Label ι Choice Op → Prop
  | .proc i .go =>
    (c.loc i).pending = none ∨ ∀ j, j ≠ i → (c.loc j).pending ≠ (c.loc i).pending
  | _ => True

omit [Runtime] in
instance decidableUnraced [Fintype ι] (c : Config ι Store Local) (l : Label ι Choice Op) :
    Decidable (Unraced c l) :=
  match l with
  | .proc i .go => inferInstanceAs (Decidable ((c.loc i).pending = none ∨ ∀ j, j ≠ i → _))
  | .proc _ .rollback => .isTrue trivial
  | .env _ => .isTrue trivial

omit [Runtime] in
instance decidableAnyhow (c : Config ι Store Local)
    (l : Label ι Choice Op) : Decidable (Anyhow c l) :=
  .isTrue trivial

section Reach

variable {n : ℕ} {req : ι → Request} {c₀ c : Config ι Store Local}
  {C : Config ι Store Local → Label ι Choice Op → Prop} {log : List (ι × Done)}

/-- The event type was stored at some moment of the run. -/
def Found (n : ℕ) (req : ι → Request) (c₀ c : Config ι Store Local) (e : EventType) : Prop :=
  ∃ c₁, (system n req).Reachable c₀ c₁ ∧ (system n req).Reachable c₁ c ∧ e ∈ c₁.db.eventTypes

theorem traced_reach (h₀ : ∀ i, c₀.loc i = .start) (h : (system n req).Reachable c₀ c) :
    ∀ i, Traced (Found n req c₀ c) (req i) (c.loc i) := by
  refine h.invariant (I := fun c => ∀ i, Traced (Found n req c₀ c) (req i) (c.loc i)) ?_ ?_
  · intro i
    rw [h₀ i]
    trivial
  · intro c l c' hr hI _ hn i
    have hstep : (system n req).Reachable c c' := .step .refl trivial hn
    have hlater : ∀ e, Found n req c₀ c e → Found n req c₀ c' e := by
      rintro e ⟨c₁, h1, h2, hm⟩
      exact ⟨c₁, h1, h2.trans hstep, hm⟩
    rcases Sys.next_loc hn i with hloc | ⟨ch, -, hm⟩
    · rw [hloc]
      exact (hI i).mono hlater
    · have hnow : ∀ e ∈ c.db.eventTypes, Found n req c₀ c' e := fun e he => ⟨c, hr, hstep, he⟩
      exact move_traced hnow hm ((hI i).mono hlater)

/-- What the requests of a run have stored, explained by its log. -/
structure Serialized (n : ℕ) (req : ι → Request) (c₀ c : Config ι Store Local)
    (log : List (ι × Done)) : Prop where
  /-- The subscriptions are what the requests make of them one after the other, and every answer
  covers what its request has done. -/
  linear : Sys.Linearization Local.done applied Right c₀.db.subscriptions
    c.db.subscriptions c.loc log
  /-- What a request has done is what it asks for, on an event type of the run. -/
  asked : ∀ i d, (i, d) ∈ log → Asked (Found n req c₀ c) (req i) d.op
  /-- A request that fails has stored nothing. -/
  failed : ∀ pre i d post, log = pre ++ (i, d) :: post → c.loc i = .failed (some d) →
    applied (run (fun t e => applied t e.2) c₀.db.subscriptions pre) d =
      run (fun t e => applied t e.2) c₀.db.subscriptions pre
  /-- What is done later comes later. -/
  later : ∀ log' c', (system n req).Logs Anyhow Local.done c log' c' →
    Sys.Linearization Local.done applied Right c₀.db.subscriptions c'.db.subscriptions c'.loc
        (log ++ log') ∧
      ∀ e ∈ log', (c.loc e.1).done = none

theorem linearization_logs (h₀ : ∀ i, c₀.loc i = .start)
    (h : (system n req).Logs Anyhow Local.done c₀ log c) :
    Sys.Linearization Local.done applied Right c₀.db.subscriptions
      c.db.subscriptions c.loc log := by
  refine h.linearization (fun i => by rw [h₀ i]; rfl) ?_ fun c e db _ _ hm => subscriptions_env hm
  intro c i ch db l _ _ hm
  refine move_effect hm (fun t d => Exact.right) ?_
  intro op existing hkey t _ hs hf
  exact flush_right hkey hs hf

/-- **Subscriptions are linearizable**: however the requests interleave, with one another and with
all other requests, the table is what they make of it one after the other. -/
theorem serialized (h₀ : ∀ i, c₀.loc i = .start)
    (h : (system n req).Logs Anyhow Local.done c₀ log c) : Serialized n req c₀ c log := by
  have hlin := linearization_logs h₀ h
  have htraced := traced_reach h₀ h.reach
  refine ⟨hlin, ?_, ?_, ?_⟩
  · intro i d hm
    have hd : (c.loc i).done = some d := (hlin.mem i d).mp hm
    have ht := htraced i
    cases hl : c.loc i with
    | start | account | permitted | unnamed | renamed | resolved =>
      rw [hl] at hd
      cases hd
    | loaded op existing hkey =>
      rw [hl] at hd ht
      simp only [Local.done] at hd
      split_ifs at hd
      cases hd
      exact ht
    | answered d' =>
      rw [hl] at hd ht
      cases hd
      exact ht
    | failed d' =>
      rw [hl] at hd ht
      cases (show d' = some d from hd)
      exact ht.1
  · intro pre i d post hlog hl
    have hright : Right (run (fun t e => applied t e.2) c₀.db.subscriptions pre) d :=
      hlin.right pre (i, d) post hlog
    have ht := htraced i
    rw [hl] at ht
    exact applied_of_unchanged hright ht.2
  · intro log' c' h'
    have hlin' := linearization_logs h₀ (h.trans h')
    exact ⟨hlin', hlin.later hlin'⟩

/-! ### Without races -/

/-- A request that is about to write has found the row as it is. -/
def Current (s : Store) (l : Local) : Prop :=
  ∀ op existing hkey, l = .loaded op existing hkey → op.silent existing = false →
    s.subscriptions.get op.key = existing

omit [DecidableEq ι] in
theorem Current.other {s s' : Store} {l l₁ l₂ : Local} {req : ι → Request} {i : ι} {ch : Choice}
    (h : Current s l) (hm : move req i ch s l₁ = some (s', l₂))
    (hkey : ch = .go → ∀ key, l₁.pending = some key → l.pending ≠ some key) : Current s' l := by
  intro op existing hk hl hs
  rw [← h op existing hk hl hs]
  cases ch with
  | rollback =>
    have hr : (if l₁.ended then none else some (s, Local.failed l₁.done)) = some (s', l₂) := by
      cases l₁ <;> exact hm
    split_ifs at hr
    cases hr
    rfl
  | go =>
    cases l₁ with
    | start | permitted | unnamed | resolved =>
      simp only [move] at hm
      split at hm <;> cases hm <;> rfl
    | account user =>
      simp only [move] at hm
      split_ifs at hm <;> cases hm <;> rfl
    | renamed eventKey =>
      cases hm
      rfl
    | loaded op₁ existing₁ hk₁ =>
      simp only [move] at hm
      split at hm
      · cases hm
        rfl
      · rename_i t hf
        cases hm
        show t.get op.key = s.subscriptions.get op.key
        cases hs₁ : op₁.silent existing₁ with
        | true =>
          have hf' : op₁.flush existing₁ s.subscriptions = some s.subscriptions := if_pos hs₁
          rw [hf', Option.some_inj] at hf
          rw [← hf]
        | false =>
          have hne : op.key ≠ op₁.key := by
            intro heq
            refine hkey rfl op₁.key (by simp [Local.pending, hs₁]) ?_
            rw [hl]
            simp [Local.pending, hs, heq]
          rw [(flush_right hk₁ hs₁ hf).1, get_apply_other hne]
    | answered d => cases hm
    | failed d => cases hm

omit [DecidableEq ι] in
theorem current_own {s s' : Store} {l l' : Local} {req : ι → Request} {i : ι} {ch : Choice}
    (hm : move req i ch s l = some (s', l')) : Current s' l' := by
  cases ch with
  | rollback =>
    have hr : (if l.ended then none else some (s, Local.failed l.done)) = some (s', l') := by
      cases l <;> exact hm
    split_ifs at hr
    cases hr
    intro op existing hk hl
    cases hl
  | go =>
    intro op existing hk hl hs
    subst hl
    cases l with
    | start | permitted | unnamed | loaded =>
      simp only [move] at hm
      split at hm <;> cases hm
    | account user =>
      simp only [move] at hm
      split_ifs at hm <;> cases hm
    | renamed eventKey => cases hm
    | resolved event =>
      simp only [move] at hm
      split at hm <;> cases hm
      rfl
    | answered d => cases hm
    | failed d => cases hm

theorem current_reach (h₀ : ∀ i, c₀.loc i = .start) (h : (system n req).Reach Unraced c₀ c) :
    ∀ i, Current c.db (c.loc i) := by
  refine (h.interference_free (G := fun _ => True) (A := fun _ s l => Current s l) trivial ?_ ?_ ?_
    ?_).2
  · intro i op existing hk hl
    rw [h₀ i] at hl
    cases hl
  · intro c i ch db l _ _ _ _ hm
    exact ⟨trivial, current_own hm⟩
  · intro c i ch db l _ _ hA hC hm j hj
    refine (hA j).other hm fun hgo key hp => ?_
    subst hgo
    rcases hC with hnone | hne
    · rw [hnone] at hp
      cases hp
    · rw [← hp]
      exact hne j hj
  · intro c e db _ _ hA _ hm
    refine ⟨trivial, fun j op existing hk hl hs => ?_⟩
    rw [subscriptions_env hm]
    exact hA j op existing hk hl hs

/-- What the requests of a run are answered where no two of them write the same row. -/
structure Undisturbed (n : ℕ) (req : ι → Request) (c₀ c : Config ι Store Local)
    (log : List (ι × Done)) : Prop where
  /-- Every answer is the one that its request would have been given alone. -/
  linear : Sys.Linearization Local.done applied Exact c₀.db.subscriptions
    c.db.subscriptions c.loc log
  /-- A request that is about to write can write. -/
  passes : ∀ i op existing hkey, c.loc i = .loaded op existing hkey →
    ∃ s', move req i .go c.db (c.loc i) = some (s', .answered ⟨op, op.answer existing⟩)

/-- **Without races** the requests are answered as if they came one after the other, and none fails
at its write. -/
theorem exact_unless_raced (h₀ : ∀ i, c₀.loc i = .start)
    (h : (system n req).Logs Unraced Local.done c₀ log c) : Undisturbed n req c₀ c log where
  linear := by
    refine h.linearization (fun i => by rw [h₀ i]; rfl) ?_ fun c e db _ _ hm => subscriptions_env hm
    intro c i ch db l hr _ hm
    refine move_effect hm (fun t d => id) ?_
    intro op existing hkey t hl hs hf
    have hfound := flush_found (current_reach h₀ hr i op existing hkey hl hs)
    rw [hf, Option.some_inj] at hfound
    exact hfound
  passes i op existing hkey hl := by
    rw [hl]
    cases hs : op.silent existing with
    | true =>
      have hf : op.flush existing c.db.subscriptions = some c.db.subscriptions := if_pos hs
      simp only [move, hf]
      exact ⟨_, rfl⟩
    | false =>
      have hfound := flush_found (current_reach h₀ h.reach i op existing hkey hl hs)
      simp only [move, hfound.1]
      exact ⟨_, rfl⟩

end Reach

/-! ### A request on its own -/

section Alone

variable {n : ℕ} {req : ι → Request} {i : ι} {s s₁ s' : Store} {l l₁ l' : Local}

/-- The transaction of `req i` alone leads from `s` and `l` to `s'` and `l'`. -/
def Leads (n : ℕ) (req : ι → Request) (i : ι) (s : Store) (l : Local) (s' : Store)
    (l' : Local) : Prop :=
  ∃ chs, (system n req).solo i s l chs = some (s', l')

omit [DecidableEq ι] in
theorem Leads.go (hm : move req i .go s l = some (s₁, l₁)) (h : Leads n req i s₁ l₁ s' l') :
    Leads n req i s l s' l' := by
  obtain ⟨chs, hs⟩ := h
  refine ⟨.go :: chs, ?_⟩
  show ((move req i .go s l).bind fun r => (system n req).solo i r.1 r.2 chs) = _
  rw [hm]
  exact hs

omit [DecidableEq ι] in
theorem leads_refl : Leads n req i s l s l := ⟨[], rfl⟩

omit [DecidableEq ι] in
theorem Leads.read (l₁ : Local) (hm : move req i .go s l = some (s, l₁))
    (h : Leads n req i s l₁ s' l') : Leads n req i s l s' l' := .go hm h

omit [Runtime] in
theorem activeCommand_eq (s : Store) (platform openid : String) : activeCommand s platform openid =
    match s.users.get (platform, openid) with
    | none => false
    | some user => commands user (s.userPermissions.rows.filter fun r =>
        r.platform = platform ∧ r.openid = openid) := by
  unfold activeCommand permissionSnapshot commands
  cases s.users.get (platform, openid) with
  | none => rfl
  | some user => simp

omit [Runtime] in
/-- The reads of `resolve_event`. -/
def found (s : Store) (eventKey : String) : Option EventType :=
  match s.eventTypes.get eventKey with
  | some event => some event
  | none =>
    match s.eventAliases.get eventKey with
    | some row => s.eventTypes.get row.eventKey
    | none => none

omit [Runtime] in
theorem resolveEvent_eq (s : Store) (eventKey : String) :
    resolveEvent s eventKey = available eventKey (found s eventKey) := by
  unfold resolveEvent available found
  rfl

omit [DecidableEq ι] in
theorem leads_refused (h : activeCommand s (req i).platform (req i).openid = false) :
    Leads n req i s .start s (.failed none) := by
  rw [activeCommand_eq] at h
  cases hu : s.users.get ((req i).platform, (req i).openid) with
  | none => exact .go (by simp only [move, hu]) leads_refl
  | some user =>
    simp only [hu] at h
    refine .read (.account user) (by simp only [move, hu]) (.go ?_ leads_refl)
    simp only [move, h]
    rfl

omit [DecidableEq ι] in
theorem leads_resolved (h : activeCommand s (req i).platform (req i).openid = true)
    (hrest : Leads n req i s (.resolved (found s (req i).eventKey)) s' l') :
    Leads n req i s .start s' l' := by
  rw [activeCommand_eq] at h
  cases hu : s.users.get ((req i).platform, (req i).openid) with
  | none => simp [hu] at h
  | some user =>
    simp only [hu] at h
    refine .read (.account user) (by simp only [move, hu]) (.read .permitted ?_ ?_)
    · simp only [move, h]
      rfl
    unfold found at hrest
    cases he : s.eventTypes.get (req i).eventKey with
    | some event =>
      rw [he] at hrest
      exact .go (by simp only [move, he]) hrest
    | none =>
      rw [he] at hrest
      refine .read .unnamed (by simp only [move, he]) ?_
      cases ha : s.eventAliases.get (req i).eventKey with
      | none =>
        rw [ha] at hrest
        exact .go (by simp only [move, ha]) hrest
      | some row =>
        rw [ha] at hrest
        exact .read (.renamed row.eventKey) (by simp only [move, ha]) (.go rfl hrest)

omit [DecidableEq ι] in
/-- The last two moves: what is asked of the row is stored, and answered as it was found. -/
theorem leads_answered {event : Option EventType} {op : RowOp} (h : (req i).asks event = .ok op) :
    Leads n req i s (.resolved event)
      { s with
        subscriptions := op.apply s.subscriptions
        auditLogs := s.auditLogs ++ (req i).audit (op.answer (s.subscriptions.get op.key)) }
      (.answered ⟨op, op.answer (s.subscriptions.get op.key)⟩) := by
  have hf : op.flush (s.subscriptions.get op.key) s.subscriptions =
      some (op.apply s.subscriptions) :=
    (flush_found rfl).1
  refine .read (.loaded op (s.subscriptions.get op.key) fun _ hg => Table.key_of_get hg) ?_
    (.go ?_ leads_refl)
  · simp only [move, h]
  · simp only [move, hf]

omit [DecidableEq ι] in
theorem leads_failed {event : Option EventType} {e : Raised} (h : (req i).asks event = .error e) :
    Leads n req i s (.resolved event) s (.failed none) :=
  .go (by simp only [move, h]) leads_refl

/-- What the request is answered alone, by `add_subscription` or `remove_subscription`. -/
inductive Alone (s : Store) : Request → Store → Local → Prop
  | added (a : AddSubscription) (op : RowOp) (r : Subscribed) (s' : Store)
    (h : addSubscription s a = .ok
      (s', ⟨r.item.eventKey, r.item.locale, r.item.matchKeys, r.created, r.updated⟩)) :
    Alone s (.add a) s' (.answered ⟨op, .subscribed r⟩)
  | notAdded (a : AddSubscription) (e : Auth.Publisher.ApiError)
    (h : addSubscription s a = .error e) :
    Alone s (.add a) s (.failed none)
  | removed (a : RemoveSubscription) (op : RowOp) (deleted : Bool) (s' : Store)
    (h : removeSubscription s a = .ok (s', ⟨a.eventKey, deleted⟩)) :
    Alone s (.remove a) s' (.answered ⟨op, .unsubscribed deleted⟩)
  | notRemoved (a : RemoveSubscription) (e : Auth.Publisher.ApiError)
    (h : removeSubscription s a = .error e) : Alone s (.remove a) s (.failed none)

theorem subscribe_of_error {a : AddSubscription} {e : Raised}
    (hact : activeCommand s a.platform a.openid = true)
    (h : Request.asks (found s a.body.val.eventKey) (.add a) = .error e) :
    subscribe s ⟨a.platform, a.openid, a.body.val.eventKey,
      some a.body.val.matchKeys⟩ = .error e := by
  simp only [Request.asks] at h
  simp only [subscribe, hact, if_true, resolveEvent_eq]
  cases he : available a.body.val.eventKey (found s a.body.val.eventKey) with
  | error e' =>
    rw [he] at h
    cases h
    rfl
  | ok event =>
    simp only [he] at h
    cases hk : requestedMatchKeys event (some a.body.val.matchKeys) with
    | error e' =>
      rw [hk] at h
      cases h
      simp only [hk]
    | ok requested => simp [hk] at h

theorem subscribe_of_asks {a : AddSubscription} {op : RowOp}
    (hact : activeCommand s a.platform a.openid = true)
    (h : Request.asks (found s a.body.val.eventKey) (.add a) = .ok op) :
    ∃ r, op.answer (s.subscriptions.get op.key) = .subscribed r ∧
      subscribe s ⟨a.platform, a.openid, a.body.val.eventKey, some a.body.val.matchKeys⟩ =
        .ok ({ s with subscriptions := op.apply s.subscriptions }, r) := by
  simp only [Request.asks] at h
  simp only [subscribe, hact, if_true, resolveEvent_eq]
  cases he : available a.body.val.eventKey (found s a.body.val.eventKey) with
  | error e' => simp [he] at h
  | ok event =>
    simp only [he] at h
    cases hk : requestedMatchKeys event (some a.body.val.matchKeys) with
    | error e' => simp [hk] at h
    | ok requested =>
      rw [hk] at h
      cases h
      simp only [hk, RowOp.key, RowOp.answer, RowOp.apply, RowOp.stored, Subscription.key]
      cases s.subscriptions.get (a.platform, a.openid, event.eventKey) with
      | none => exact ⟨_, rfl, rfl⟩
      | some existing => exact ⟨_, rfl, rfl⟩

omit [Runtime] in
theorem canonicalKey_eq (s : Store) (eventKey : String) : canonicalKey s eventKey =
    match available eventKey (found s eventKey) with
    | .ok event => event.eventKey
    | .error _ => eventKey := by
  unfold canonicalKey
  cases ha : available eventKey (found s eventKey) with
  | ok event => simp only [resolveEvent_eq, ha]
  | error e => simp only [resolveEvent_eq, ha]

/-- A removal asks for the row under the canonical key, whatever that is. -/
theorem asks_remove (s : Store) (a : RemoveSubscription) :
    Request.asks (found s a.eventKey) (.remove a) =
      .ok (.unsubscribe (a.platform, a.openid, canonicalKey s a.eventKey)) := by
  rw [canonicalKey_eq]
  simp only [Request.asks]
  cases available a.eventKey (found s a.eventKey) <;> rfl

omit [Runtime] in
theorem unsubscribe_eq {a : RemoveSubscription}
    (hact : activeCommand s a.platform a.openid = true) :
    unsubscribe s ⟨a.platform, a.openid, a.eventKey⟩ =
      .ok ({ s with
          subscriptions := s.subscriptions.erase (a.platform, a.openid,
            canonicalKey s a.eventKey) },
        (s.subscriptions.get (a.platform, a.openid, canonicalKey s a.eventKey)).isSome) := by
  simp only [unsubscribe, hact, if_true]
  cases hg : s.subscriptions.get (a.platform, a.openid, canonicalKey s a.eventKey) with
  | none => rw [Table.erase_of_get_eq_none hg]; rfl
  | some existing => rfl

omit [DecidableEq ι] in
/-- **A request on its own** is answered by the function of the API. -/
theorem alone (n : ℕ) (req : ι → Request) (i : ι) (s : Store) :
    ∃ s' l', Leads n req i s .start s' l' ∧ Alone s (req i) s' l' := by
  cases hact : activeCommand s (req i).platform (req i).openid with
  | false =>
    refine ⟨s, .failed none, leads_refused hact, ?_⟩
    cases hr : req i with
    | add a =>
      have hact' : activeCommand s a.platform a.openid = false := by rw [hr] at hact; exact hact
      exact .notAdded a _ (by simp only [addSubscription, subscribe, hact']; rfl)
    | remove a =>
      have hact' : activeCommand s a.platform a.openid = false := by rw [hr] at hact; exact hact
      exact .notRemoved a _ (by simp only [removeSubscription, unsubscribe, hact']; rfl)
  | true =>
    cases hr : req i with
    | add a =>
      have hact' : activeCommand s a.platform a.openid = true := by rw [hr] at hact; exact hact
      have hkey : (req i).eventKey = a.body.val.eventKey := by rw [hr]; rfl
      cases hask : Request.asks (found s a.body.val.eventKey) (.add a) with
      | error e =>
        have hask' : (req i).asks (found s (req i).eventKey) = .error e := by rw [hkey, hr, hask]
        refine ⟨s, .failed none, leads_resolved hact (leads_failed hask'), ?_⟩
        have hsub := subscribe_of_error hact' hask
        cases hadd : addSubscription s a with
        | error e' => exact .notAdded a e' hadd
        | ok x =>
          obtain ⟨y, hy, -⟩ := addSubscription_ok hadd
          rw [hsub] at hy
          cases hy
      | ok op =>
        have hask' : (req i).asks (found s (req i).eventKey) = .ok op := by rw [hkey, hr, hask]
        obtain ⟨r, hanswer, hsub⟩ := subscribe_of_asks hact' hask
        refine ⟨_, _, leads_resolved hact (leads_answered hask'), ?_⟩
        rw [hanswer, hr]
        exact .added a op r _ (by simp only [addSubscription, hsub]; rfl)
    | remove a =>
      have hact' : activeCommand s a.platform a.openid = true := by rw [hr] at hact; exact hact
      have hkey : (req i).eventKey = a.eventKey := by rw [hr]; rfl
      have hask' : (req i).asks (found s (req i).eventKey) =
          .ok (.unsubscribe (a.platform, a.openid, canonicalKey s a.eventKey)) := by
        rw [hkey, hr, asks_remove]
      refine ⟨_, _, leads_resolved hact (leads_answered hask'), ?_⟩
      rw [hr]
      exact .removed a _ _ _ (by simp only [removeSubscription, unsubscribe_eq hact']; rfl)

end Alone

/-! ### A race -/

omit [Runtime] [DecidableEq ι] in
/-- `alice` is subscribed to the night on Cetus. -/
def sampleConfig : Config Bool Store Local where
  db :=
    { users := Table.empty.put { platform := "qqbot", openid := "alice" }
      userPermissions := Table.empty.put
        { platform := "qqbot", openid := "alice", permissionKey := .command, granted := true }
      eventTypes := Table.empty.put { eventKey := "warframe.cetus.night",
                                      displayName := "Cetus night" }
      subscriptions := Table.empty.put
        { platform := "qqbot", openid := "alice", eventKey := "warframe.cetus.night" } }
  loc _ := .start

omit [Runtime] [DecidableEq ι] in
/-- Two requests to remove the subscription. -/
def sampleRequests : Bool → Request := fun _ =>
  .remove { openid := "alice", eventKey := "warframe.cetus.night" }

omit [Runtime] [DecidableEq ι] in
/-- What both are told. -/
def sampleDone : Done :=
  ⟨.unsubscribe ("qqbot", "alice", "warframe.cetus.night"), .unsubscribed true⟩

omit [Runtime] [DecidableEq ι] in
/-- Both read the row before one of them deletes it. -/
def sampleRace : List (Label Bool Choice Op) :=
  [.proc true .go, .proc true .go, .proc true .go, .proc true .go,
    .proc false .go, .proc false .go, .proc false .go, .proc false .go,
    .proc true .go, .proc false .go]

omit [Runtime] [DecidableEq ι] in
theorem sampleRace_logs : ∃ c, (@system .sample _ 5 sampleRequests).Logs Anyhow
    Local.done sampleConfig
    [(true, sampleDone), (false, sampleDone)] c :=
  @Sys.exists_logs_of_exec _ _ _ _ _ _ _ _ _ _ _ _ sampleRace (by decide) (by decide) (by decide)

omit [Runtime] [DecidableEq ι] in
theorem serialized_sample : ∃ c, @Serialized .sample _ _ 5 sampleRequests sampleConfig c
    [(true, sampleDone), (false, sampleDone)] := by
  obtain ⟨c, h⟩ := sampleRace_logs
  exact ⟨c, @serialized .sample _ _ _ _ _ _ _ (fun _ => rfl) h⟩

omit [Runtime] [DecidableEq ι] in
/-- **A subscription is removed twice**: in no order of the two requests are both answers exact. -/
theorem removed_twice : ∃ c, (@system .sample _ 5 sampleRequests).Logs Anyhow
    Local.done sampleConfig
      [(true, sampleDone), (false, sampleDone)] c ∧
    ∀ i j : Bool, ¬ Along (fun t e => applied t e.2) (fun t e => Exact t e.2)
      sampleConfig.db.subscriptions [(i, sampleDone), (j, sampleDone)] := by
  obtain ⟨c, h⟩ := sampleRace_logs
  exact ⟨c, h, by decide⟩

omit [Runtime] [DecidableEq ι] in
/-- One after the other, the second is told that there was nothing to remove. -/
theorem exact_unless_raced_sample : ∃ c, @Undisturbed .sample _ 5 sampleRequests sampleConfig c
    [(true, sampleDone), (false, { sampleDone with answer := .unsubscribed false })] := by
  have hrun : ∃ c, (@system .sample _ 5 sampleRequests).Logs Unraced Local.done sampleConfig
      [(true, sampleDone), (false, { sampleDone with answer := .unsubscribed false })] c :=
    @Sys.exists_logs_of_exec _ _ _ _ _ _ _ _ _ _ _ _
      (List.replicate 5 (.proc true .go) ++ List.replicate 5 (.proc false .go))
      (by decide) (by decide) (by decide)
  obtain ⟨c, h⟩ := hrun
  exact ⟨c, @exact_unless_raced .sample _ _ _ _ _ _ _ (fun _ => rfl) h⟩

end EventServer.Services.SubscriptionRaces
