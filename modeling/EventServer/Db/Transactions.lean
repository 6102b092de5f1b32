import EventServer.Python.Str
import Mathlib.Tactic.Common
import Mathlib.Data.List.Range
import Mathlib.Algebra.Order.Ring.Rat

/-! # Transactions that are tried again

`db/transactions.py`: `run_with_deadlock_retry` runs an operation in a transaction of its own and
starts over, after a pause, where MySQL reports a lock wait timeout or a deadlock. What the
operation and the commit do in each session is arbitrary (`Operation`); a transaction that raises is
rolled back.

Every attempt but the last is undone, so all of them start from the same database and the effect is
that of the last one alone (`deadlock_retry_exactly_once`). The pause is computed with floats:
`2**attempt` cannot be converted to one from `2**1024` on, so the exception of the attempt before is
lost there. -/

namespace EventServer.Db.Transactions

open EventServer.Python

/-! ### The exceptions -/

/-- An `OperationalError`: the `args` of its `orig`, if there are any. -/
structure OperationalError where
  args : Option (List Value)

/-- `mysql_error_code`; a boolean is an `int`. -/
def mysqlErrorCode (exc : OperationalError) : Option ℤ :=
  match exc.args.getD [] with
  | .int n :: _ => some n
  | .bool b :: _ => some (if b then 1 else 0)
  | _ => none

/-- `MYSQL_RETRIABLE_TRANSACTION_ERRORS`. -/
def mysqlRetriableTransactionErrors : List ℤ := [1205, 1213]

/-- The error is one that a new attempt may get over. -/
def OperationalError.retriable (exc : OperationalError) : Bool :=
  match mysqlErrorCode exc with
  | some code => code ∈ mysqlRetriableTransactionErrors
  | none => false

/-- What an operation or a commit raises; `X` are the exceptions that are no `OperationalError`. -/
inductive Exn (X : Type) where
  | operational (exc : OperationalError)
  | other (x : X)

/-- What `run_with_deadlock_retry` raises: the exception of an attempt, or one of its own. -/
inductive Raised (X : Type) where
  | attempt (e : Exn X)
  | valueError (msg : String)
  | overflowError (msg : String)
  | assertionError (msg : String)

/-! ### A transaction -/

variable {S T X : Type}

/-- What an operation does in the session with a given number, on the database it finds, and what
the commit of its changes raises. -/
structure Operation (S T X : Type) where
  run : ℕ → S → Except (Exn X) (T × S)
  commit : ℕ → S → Option (Exn X)

inductive Event where
  | opened (session : ℕ)
  | called (session : ℕ)
  | committed (session : ℕ)
  | rolledBack (session : ℕ)
  | closed (session : ℕ)
  | slept (seconds : Number)
  deriving DecidableEq

/-- The database, how many sessions have been made, and what has happened. -/
structure World (S : Type) where
  db : S
  sessions : ℕ := 0
  history : List Event := []

def World.log (w : World S) (events : List Event) : World S :=
  { w with history := w.history ++ events }

/-- `with session_factory() as session, session.begin(): return operation(session)`. -/
def transaction (op : Operation S T X) (w : World S) : Except (Exn X) T × World S :=
  let session := w.sessions
  let w := { w with sessions := session + 1 }.log [.opened session, .called session]
  match op.run session w.db with
  | .error e => (.error e, w.log [.rolledBack session, .closed session])
  | .ok (value, db) =>
    match op.commit session db with
    | some e => (.error e, w.log [.rolledBack session, .closed session])
    | none => (.ok value, { w with db := db }.log [.committed session, .closed session])

/-! ### The loop -/

/-- `x * (2**i)` for a float `x`; `none` is an `OverflowError`, from the conversion of the
integer. -/
def timesPowTwo (x : Number) (i : ℕ) : Option Number :=
  if 1024 ≤ i then none
  else match x with
    | .finite q =>
      if |q * 2 ^ i| < 2 ^ 1024 then some (.finite (q * 2 ^ i))
      else some (if 0 < q then .inf else .negInf)
    | x => some x

/-- The loop from `attempt` on, with `n` numbers of the range left. -/
def attempts (op : Operation S T X) (maxAttempts : ℤ) (baseDelaySeconds : Number) (attempt : ℕ) :
    ℕ → World S → Except (Raised X) T × World S
  | 0, w => (.error (.assertionError "unreachable"), w)
  | n + 1, w =>
    match transaction op w with
    | (.ok value, w) => (.ok value, w)
    | (.error (.other x), w) => (.error (.attempt (.other x)), w)
    | (.error (.operational exc), w) =>
      if exc.retriable = false ∨ maxAttempts ≤ attempt + 1 then
        (.error (.attempt (.operational exc)), w)
      else match timesPowTwo baseDelaySeconds attempt with
        | none => (.error (.overflowError "int too large to convert to float"), w)
        | some seconds =>
          attempts op maxAttempts baseDelaySeconds (attempt + 1) n (w.log [.slept seconds])

/-- `run_with_deadlock_retry`, with a `sleep_fn` that returns. -/
def runWithDeadlockRetry (op : Operation S T X) (maxAttempts : ℤ) (baseDelaySeconds : Number)
    (w : World S) : Except (Raised X) T × World S :=
  if maxAttempts < 1 then (.error (.valueError "max_attempts must be positive"), w)
  else attempts op maxAttempts baseDelaySeconds 0 maxAttempts.toNat w

/-! ### Outcomes -/

/-- How a transaction ends in the session with a given number: with a value and the database it
commits, or with an exception. -/
def Operation.outcome (op : Operation S T X) (session : ℕ) (db : S) : Except (Exn X) (T × S) :=
  match op.run session db with
  | .error e => .error e
  | .ok (value, db') =>
    match op.commit session db' with
    | some e => .error e
    | none => .ok (value, db')

/-- The outcome is a retriable failure. -/
def Retriable (r : Except (Exn X) (T × S)) : Prop :=
  ∃ exc, r = .error (.operational exc) ∧ exc.retriable = true

/-- What happens in a session, which ends with a commit or a rollback. -/
def sessionEvents (session : ℕ) (commits : Bool) : List Event :=
  [.opened session, .called session,
    if commits then .committed session else .rolledBack session, .closed session]

/-- The world after a session. -/
def World.after (w : World S) : Except (Exn X) (T × S) → World S
  | .ok (_, db) =>
    { db := db, sessions := w.sessions + 1, history := w.history ++ sessionEvents w.sessions true }
  | .error _ =>
    { w with sessions := w.sessions + 1, history := w.history ++ sessionEvents w.sessions false }

theorem transaction_eq (op : Operation S T X) (w : World S) :
    transaction op w =
      ((op.outcome w.sessions w.db).map Prod.fst, w.after (op.outcome w.sessions w.db)) := by
  unfold transaction Operation.outcome World.log
  cases hrun : op.run w.sessions w.db with
  | error e => simp [World.after, sessionEvents, Except.map, hrun]
  | ok r =>
    obtain ⟨value, db⟩ := r
    cases hcommit : op.commit w.sessions db with
    | some e => simp [World.after, sessionEvents, Except.map, hrun, hcommit]
    | none => simp [World.after, sessionEvents, Except.map, hrun, hcommit]

/-- **Only a commit changes the database.** -/
theorem transaction_error {op : Operation S T X} {w w' : World S} {e : Exn X}
    (h : transaction op w = (.error e, w')) : w'.db = w.db := by
  rw [transaction_eq] at h
  cases ho : op.outcome w.sessions w.db with
  | error e' =>
    rw [ho] at h
    cases h
    rfl
  | ok r => rw [ho] at h; cases h

/-! ### Retrying -/

/-- The outcome of the `i`-th attempt, if those before it were undone. -/
def outcome (op : Operation S T X) (w : World S) (i : ℕ) : Except (Exn X) (T × S) :=
  op.outcome (w.sessions + i) w.db

/-- What the first `m` attempts leave in the history: each in a session of its own, rolled back, and
a pause. -/
def retries (base : Number) (session m : ℕ) : List Event :=
  (List.range m).flatMap fun i =>
    sessionEvents (session + i) false ++ ((timesPowTwo base i).map Event.slept).toList

/-- The world after `m` attempts that were undone. -/
def World.retried (w : World S) (base : Number) (m : ℕ) : World S :=
  { w with sessions := w.sessions + m, history := w.history ++ retries base w.sessions m }

theorem retried_zero (w : World S) (base : Number) : w.retried base 0 = w := by
  simp [World.retried, retries]

theorem retries_succ (base : Number) (session m : ℕ) :
    retries base session (m + 1) = retries base session m ++
      (sessionEvents (session + m) false ++ ((timesPowTwo base m).map Event.slept).toList) := by
  unfold retries
  rw [List.range_succ, List.flatMap_append]
  simp

theorem retried_succ {w : World S} {base : Number} {m : ℕ} {e : Exn X} {seconds : Number}
    (h : timesPowTwo base m = some seconds) :
    ((w.retried base m).after (.error e : Except (Exn X) (T × S))).log [.slept seconds] =
      w.retried base (m + 1) := by
  have hretries : retries base w.sessions (m + 1) =
      retries base w.sessions m ++
        (sessionEvents (w.sessions + m) false ++ [.slept seconds]) := by
    rw [retries_succ, h]
    rfl
  simp only [World.retried, World.after, World.log, hretries, List.append_assoc, Nat.add_assoc]

/-- The sessions in which the operation has been called. -/
def called (history : List Event) : List ℕ :=
  history.filterMap fun
    | .called session => some session
    | _ => none

/-- The pauses. -/
def pauses (history : List Event) : List Number :=
  history.filterMap fun
    | .slept seconds => some seconds
    | _ => none

/-- The run ended with the attempt `m`. -/
structure EndedWith (op : Operation S T X) (maxAttempts : ℤ) (base : Number) (w : World S)
    (r : Except (Raised X) T × World S) (m : ℕ) : Prop where
  lt : m < maxAttempts
  /-- Those before it failed, and could be tried again. -/
  retried : ∀ i < m, Retriable (outcome op w i) ∧ ∃ seconds, timesPowTwo base i = some seconds
  /-- It did not, or was the last allowed one. -/
  stopped : Retriable (outcome op w m) → m + 1 = maxAttempts
  /-- Its value is returned, or its exception raised. -/
  value : r.1 = ((outcome op w m).map Prod.fst).mapError Raised.attempt
  /-- The database is as it committed it, or as it was. -/
  db : r.2.db = ((outcome op w m).map Prod.snd).toOption.getD w.db
  /-- Every attempt was made in a new session. -/
  called : called r.2.history =
    called w.history ++ (List.range (m + 1)).map (w.sessions + ·)
  /-- The pauses are those after the retriable failures. -/
  pauses : pauses r.2.history = pauses w.history ++ (List.range m).filterMap (timesPowTwo base)
  /-- What happened, event by event: every session but that of a commit was rolled back. -/
  world : r.2 = (w.retried base m).after (outcome op w m)

/-- The operation has had the effect of its last attempt, once or not at all. -/
def ExactlyOnce (op : Operation S T X) (maxAttempts : ℤ) (base : Number) (w : World S)
    (r : Except (Raised X) T × World S) : Prop :=
  ∃ m, EndedWith op maxAttempts base w r m

/-! ### Reading the history -/

theorem called_append (h h' : List Event) : called (h ++ h') = called h ++ called h' :=
  List.filterMap_append

theorem pauses_append (h h' : List Event) : pauses (h ++ h') = pauses h ++ pauses h' :=
  List.filterMap_append

theorem called_sessionEvents (session : ℕ) (commits : Bool) :
    called (sessionEvents session commits) = [session] := by
  cases commits <;> rfl

theorem pauses_sessionEvents (session : ℕ) (commits : Bool) :
    pauses (sessionEvents session commits) = [] := by
  cases commits <;> rfl

theorem called_retries (base : Number) (session m : ℕ) :
    called (retries base session m) = (List.range m).map (session + ·) := by
  induction m with
  | zero => rfl
  | succ m ih =>
    have hpause : called ((timesPowTwo base m).map Event.slept).toList = [] := by
      cases timesPowTwo base m <;> rfl
    rw [retries_succ, called_append, called_append, called_sessionEvents, hpause, ih,
      List.range_succ, List.map_append]
    rfl

theorem pauses_retries (base : Number) (session m : ℕ) :
    pauses (retries base session m) = (List.range m).filterMap (timesPowTwo base) := by
  induction m with
  | zero => rfl
  | succ m ih =>
    have hpause : pauses ((timesPowTwo base m).map Event.slept).toList =
        [m].filterMap (timesPowTwo base) := by
      cases h : timesPowTwo base m <;> simp [pauses, h]
    rw [retries_succ, pauses_append, pauses_append, pauses_sessionEvents, hpause, ih,
      List.range_succ, List.filterMap_append, List.nil_append]

theorem after_db (w : World S) (r : Except (Exn X) (T × S)) :
    (w.after r).db = (r.map Prod.snd).toOption.getD w.db := by
  cases r <;> rfl

theorem after_history (w : World S) (r : Except (Exn X) (T × S)) :
    ∃ commits, (w.after r).history = w.history ++ sessionEvents w.sessions commits := by
  cases r with
  | ok r => exact ⟨true, rfl⟩
  | error e => exact ⟨false, rfl⟩

/-- What the end with the attempt `m` says about the database and the history. -/
theorem endedWith_of_world {op : Operation S T X} {maxAttempts : ℤ} {base : Number} {w : World S}
    {r : Except (Raised X) T × World S} {m : ℕ} (hlt : m < maxAttempts)
    (hretried : ∀ i < m, Retriable (outcome op w i) ∧ ∃ seconds, timesPowTwo base i = some seconds)
    (hstopped : Retriable (outcome op w m) → m + 1 = maxAttempts)
    (hvalue : r.1 = ((outcome op w m).map Prod.fst).mapError Raised.attempt)
    (hworld : r.2 = (w.retried base m).after (outcome op w m)) :
    EndedWith op maxAttempts base w r m := by
  obtain ⟨commits, hhistory⟩ := after_history (w.retried base m) (outcome op w m)
  have hfull : r.2.history = w.history ++
      (retries base w.sessions m ++ sessionEvents (w.sessions + m) commits) := by
    rw [hworld, hhistory, ← List.append_assoc]
    rfl
  refine ⟨hlt, hretried, hstopped, hvalue, ?_, ?_, ?_, hworld⟩
  · rw [hworld, after_db]
    rfl
  · rw [hfull, called_append, called_append, called_retries, called_sessionEvents,
      List.range_succ, List.map_append]
    rfl
  · rw [hfull, pauses_append, pauses_append, pauses_retries, pauses_sessionEvents,
      List.append_nil]

theorem timesPowTwo_eq_none {x : Number} {i : ℕ} : timesPowTwo x i = none ↔ 1024 ≤ i := by
  unfold timesPowTwo
  split_ifs with h
  · simp [h]
  · cases x with
    | finite q =>
      dsimp only
      split_ifs <;> simp [h]
    | _ => simp [h]

section Loop

variable {op : Operation S T X} {maxAttempts : ℤ} {base : Number} {w : World S} {m n : ℕ}

theorem attempts_stop (h : Retriable (outcome op w m) → maxAttempts ≤ m + 1) :
    attempts op maxAttempts base m (n + 1) (w.retried base m) =
      (((outcome op w m).map Prod.fst).mapError Raised.attempt,
        (w.retried base m).after (outcome op w m)) := by
  have hout : op.outcome (w.retried base m).sessions (w.retried base m).db = outcome op w m := rfl
  rw [attempts, transaction_eq, hout]
  cases ho : outcome op w m with
  | ok r => rfl
  | error e =>
    cases e with
    | other x => rfl
    | operational exc =>
      have hstop : exc.retriable = false ∨ maxAttempts ≤ m + 1 := by
        by_cases hr : exc.retriable = true
        · exact Or.inr (h ⟨exc, ho, hr⟩)
        · exact Or.inl (by simpa using hr)
      simp only [Except.map, if_pos hstop, Except.mapError]

theorem attempts_retry (h : Retriable (outcome op w m)) (hm : m + 1 < maxAttempts) :
    attempts op maxAttempts base m (n + 1) (w.retried base m) =
      match timesPowTwo base m with
      | none => (.error (.overflowError "int too large to convert to float"),
          (w.retried base m).after (outcome op w m))
      | some _ => attempts op maxAttempts base (m + 1) n (w.retried base (m + 1)) := by
  have hout : op.outcome (w.retried base m).sessions (w.retried base m).db = outcome op w m := rfl
  obtain ⟨exc, ho, hr⟩ := h
  have hcontinue : ¬ (exc.retriable = false ∨ maxAttempts ≤ m + 1) := by
    rintro (hf | hle)
    · rw [hf] at hr; cases hr
    · omega
  rw [attempts, transaction_eq, hout, ho]
  simp only [Except.map, if_neg hcontinue]
  cases hseconds : timesPowTwo base m with
  | none => rfl
  | some seconds => simp only [retried_succ hseconds]

/-- The pause after the 1025th attempt cannot be computed. -/
def Overflows (op : Operation S T X) (maxAttempts : ℤ) (w : World S) : Prop :=
  1025 < maxAttempts ∧ ∀ i ≤ 1024, Retriable (outcome op w i)

/-- **The loop from the attempt `m` on**, if those before it were undone: it ends with one of the
first 1025 attempts, or with the exception of a pause that cannot be computed. -/
theorem attempts_run (hn : m + n = maxAttempts) (hpos : 1 ≤ n) (hm : m ≤ 1024)
    (hret : ∀ i < m, Retriable (outcome op w i)) :
    (∃ j ≤ 1024, EndedWith op maxAttempts base w
        (attempts op maxAttempts base m n (w.retried base m)) j) ∨
      Overflows op maxAttempts w ∧ ∃ msg,
        (attempts op maxAttempts base m n (w.retried base m)).1 = .error (.overflowError msg) := by
  induction n generalizing m with
  | zero => omega
  | succ n ih =>
    by_cases hr : Retriable (outcome op w m) ∧ m + 1 < maxAttempts
    · obtain ⟨hr, hlt⟩ := hr
      have hret' : ∀ i < m + 1, Retriable (outcome op w i) := by
        intro i hi
        rcases Nat.lt_succ_iff_lt_or_eq.mp hi with hi | rfl
        · exact hret i hi
        · exact hr
      rw [attempts_retry hr hlt]
      cases hseconds : timesPowTwo base m with
      | none =>
        have hover : 1024 ≤ m := timesPowTwo_eq_none.mp hseconds
        refine Or.inr ⟨⟨by omega, fun i hi => hret' i (by omega)⟩, _, rfl⟩
      | some seconds =>
        have hm' : ¬ 1024 ≤ m := by
          rw [← timesPowTwo_eq_none (x := base), hseconds]
          simp
        exact ih (by omega) (by omega) (by omega) hret'
    · have hstop : Retriable (outcome op w m) → maxAttempts ≤ m + 1 := fun h => by
        by_contra hlt
        exact hr ⟨h, by omega⟩
      rw [attempts_stop hstop]
      refine Or.inl ⟨m, hm, endedWith_of_world (by omega) ?_ ?_ rfl rfl⟩
      · intro i hi
        have hi' : ¬ 1024 ≤ i := by omega
        rw [← timesPowTwo_eq_none (x := base)] at hi'
        exact ⟨hret i hi, Option.ne_none_iff_exists'.mp hi'⟩
      · intro h
        have hle := hstop h
        omega

end Loop

/-- **A run from the start.** -/
theorem run_cases (op : Operation S T X) (maxAttempts : ℤ) (base : Number) (w : World S)
    (hpos : 1 ≤ maxAttempts) :
    (∃ j ≤ 1024, EndedWith op maxAttempts base w (runWithDeadlockRetry op maxAttempts base w) j) ∨
      Overflows op maxAttempts w ∧ ∃ msg,
        (runWithDeadlockRetry op maxAttempts base w).1 = .error (.overflowError msg) := by
  have hrun : runWithDeadlockRetry op maxAttempts base w =
      attempts op maxAttempts base 0 maxAttempts.toNat (w.retried base 0) := by
    unfold runWithDeadlockRetry
    rw [if_neg (by omega), retried_zero]
  rw [hrun]
  exact attempts_run (by omega) (by omega) (by omega) (fun i hi => by omega)

theorem not_exactlyOnce {op : Operation S T X} {maxAttempts : ℤ} {base : Number} {w : World S}
    (hpos : 1 ≤ maxAttempts) (h : Overflows op maxAttempts w) :
    ¬ ExactlyOnce op maxAttempts base w (runWithDeadlockRetry op maxAttempts base w) := by
  rintro ⟨m, hm⟩
  rcases run_cases op maxAttempts base w hpos with ⟨j, hj, hend⟩ | ⟨-, msg, hmsg⟩
  · have hlast := hend.stopped (h.2 j hj)
    have hlong := h.1
    omega
  · have hvalue := hm.value
    rw [hmsg] at hvalue
    cases ho : outcome op w m with
    | ok r => rw [ho] at hvalue; cases hvalue
    | error e => rw [ho] at hvalue; cases hvalue

/-- **Deadlock retry has the effect of its last attempt, exactly where the pauses can be computed.**
That is so unless more than 1025 attempts are allowed and the first 1025 of them fail retriably. -/
theorem deadlock_retry_exactly_once (op : Operation S T X) (maxAttempts : ℤ) (base : Number)
    (w : World S) (hpos : 1 ≤ maxAttempts) :
    ExactlyOnce op maxAttempts base w (runWithDeadlockRetry op maxAttempts base w) ↔
      ¬ (1025 < maxAttempts ∧ ∀ i ≤ 1024, Retriable (outcome op w i)) := by
  constructor
  · intro hend hover
    exact not_exactlyOnce hpos hover hend
  · intro hnot
    rcases run_cases op maxAttempts base w hpos with ⟨j, -, hend⟩ | ⟨hover, -⟩
    · exact ⟨j, hend⟩
    · exact absurd hover hnot

/-- A deadlock. -/
def sampleDeadlock : OperationalError where
  args := some [.int 1213, .str (.of "deadlock")]

/-- Adds one to a counter and returns it, in the first session only to meet a deadlock at the
commit. -/
def sampleOperation : Operation ℕ ℕ String where
  run _ db := .ok (db + 1, db + 1)
  commit session _ := if session = 0 then some (.operational sampleDeadlock) else none

theorem deadlock_retry_exactly_once_sample :
    ExactlyOnce sampleOperation 3 (.finite (1 / 20)) { db := 7 }
      (runWithDeadlockRetry sampleOperation 3 (.finite (1 / 20)) { db := 7 }) :=
  (deadlock_retry_exactly_once sampleOperation 3 (.finite (1 / 20)) { db := 7 } (by decide)).mpr
    fun h => absurd h.1 (by decide)

/-- Meets a deadlock every time. -/
def sampleDeadlocked : Operation ℕ ℕ String where
  run _ _ := .error (.operational sampleDeadlock)
  commit _ _ := none

/-- With `max_attempts = 1026` the deadlock of the 1025th attempt is lost. -/
theorem deadlock_lost : ¬ ExactlyOnce sampleDeadlocked 1026 (.finite (1 / 20)) { db := 7 }
    (runWithDeadlockRetry sampleDeadlocked 1026 (.finite (1 / 20)) { db := 7 }) :=
  not_exactlyOnce (by decide) ⟨by decide, fun _ _ => ⟨sampleDeadlock, rfl, by decide⟩⟩

end EventServer.Db.Transactions
