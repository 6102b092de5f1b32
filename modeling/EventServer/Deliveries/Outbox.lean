import EventServer.Db.Models
import Mathlib.Algebra.Order.Ring.Int

/-! # The delivery outbox

`deliveries/outbox.py`: workers claim deliveries under a lease, and report success (`ack`) or
failure (`fail`) with the token of the lease. Only the digest of a token is stored. -/

namespace EventServer.Deliveries.Outbox

open EventServer.Db EventServer.Lib EventServer.Python

/-! ### Claiming -/

/-- The lease of `d` is over at `now`. -/
def leaseOver (now : Time) (d : Delivery) : Bool :=
  match d.leaseUntil with
  | some u => u < now
  | none => false

/-- The condition of `claim_statement`; a comparison with `NULL` does not hold. -/
def eligible (now : Time) (d : Delivery) : Bool :=
  ((d.status = .pending || d.status = .retry) && d.nextAttemptAt ≤ now) ||
    (d.status = .leased && leaseOver now d)

structure Claim where
  workerId : String
  platform : String
  limit : ℕ
  leaseSeconds : ℤ
  now : Time
  /-- The order in which the database returns rows that `ORDER BY` leaves tied. -/
  tie : String → ℕ := fun _ => 0
  /-- The token generated for each row. -/
  token : String → String

/-- `ORDER BY next_attempt_at, created_at`, ties resolved by the database. -/
def Claim.before (a : Claim) (d d' : Delivery) : Bool :=
  d.nextAttemptAt < d'.nextAttemptAt || (d.nextAttemptAt = d'.nextAttemptAt &&
    (d.createdAt < d'.createdAt || (d.createdAt = d'.createdAt &&
      a.tie d.deliveryId ≤ a.tie d'.deliveryId)))

/-- `claim_statement` on the rows that are not locked. -/
def claimStatement (a : Claim) (rows : List Delivery) : List Delivery :=
  ((rows.filter fun d => d.platform = a.platform && eligible a.now d).insertionSort
    fun d d' => a.before d d').take a.limit

structure ClaimedDelivery where
  deliveryId : String
  leaseToken : String
  eventId : String
  eventKey : String
  platform : String
  openid : String
  message : Json
  attempt : ℕ
  createdAt : Time

variable [Runtime]

/-- `_token_hash`. -/
def tokenHash (token : String) : String := Runtime.sha256Hex token

/-- The assignments of the loop of `claim` to a selected row. -/
def Claim.lease (a : Claim) (d : Delivery) : Delivery :=
  { d with
    status := .leased
    attempts := d.attempts + 1
    leaseOwner := some a.workerId
    leaseTokenHash := some (tokenHash (a.token d.deliveryId))
    leaseUntil := some (a.now + seconds a.leaseSeconds) }

theorem Claim.lease_key (a : Claim) (d : Delivery) : (a.lease d).deliveryId = d.deliveryId := rfl

theorem Claim.lease_target (a : Claim) (d : Delivery) : (a.lease d).target = d.target := rfl

omit [Runtime] in
/-- What the worker is told about a selected row. -/
def Claim.claimed (a : Claim) (d : Delivery) : ClaimedDelivery where
  deliveryId := d.deliveryId
  leaseToken := a.token d.deliveryId
  eventId := d.eventId
  eventKey := d.eventKey
  platform := d.platform
  openid := d.openid
  message := d.message
  attempt := d.attempts + 1
  createdAt := d.createdAt

/-- `DeliveryOutbox.claim`. -/
def claim (t : Deliveries) (a : Claim) : Deliveries × List ClaimedDelivery :=
  let rows := claimStatement a t.rows
  let ids := rows.map (·.deliveryId)
  (t.modifyIf (fun d => d.deliveryId ∈ ids) a.lease a.lease_key a.lease_target,
    rows.map a.claimed)

/-! ### Reporting -/

/-- The condition under which `_leased` returns a row. -/
def holdsLease (d : Delivery) (leaseToken : String) (now : Time) : Bool :=
  d.status = .leased &&
    (match d.leaseTokenHash, d.leaseUntil with
      | some hash, some u => u > now && hash = tokenHash leaseToken
      | _, _ => false)

def leased (t : Deliveries) (deliveryId leaseToken : String) (now : Time) :
    Except Raised Delivery :=
  match t.get deliveryId with
  | none => .error (.leaseConflictError "delivery does not have a matching active lease")
  | some d =>
    if holdsLease d leaseToken now then .ok d
    else .error (.leaseConflictError "delivery does not have a matching active lease")

omit [Runtime] in
/-- `_clear_lease`. -/
def clearLease (d : Delivery) : Delivery :=
  { d with leaseOwner := none, leaseTokenHash := none, leaseUntil := none }

structure Ack where
  deliveryId : String
  leaseToken : String
  now : Time
  sentAt : Option Time := none
  platformMessageId : Option String := none

omit [Runtime] in
/-- The assignments of `ack` to the leased row. -/
def Ack.apply (a : Ack) (d : Delivery) : Delivery :=
  clearLease { d with
    status := .sent
    sentAt := some (a.sentAt.getD a.now)
    platformMessageId := a.platformMessageId }

structure Fail where
  deliveryId : String
  leaseToken : String
  now : Time
  errorCode : String
  retryable : Bool

omit [Runtime] in
/-- The delay before the next attempt, in seconds. -/
def retryDelay (attempts : ℕ) : ℤ := min 3600 (5 * 2 ^ (attempts - 1))

omit [Runtime] in
/-- The assignments of `fail` to the leased row. -/
def Fail.apply (a : Fail) (maxAttempts : ℕ) (d : Delivery) : Delivery :=
  let d := { d with lastErrorCode := some a.errorCode }
  clearLease
    (if a.retryable ∧ d.attempts < maxAttempts then
      { d with status := .retry, nextAttemptAt := a.now + seconds (retryDelay d.attempts) }
    else { d with status := .dead })

omit [Runtime] in
theorem Ack.apply_key (a : Ack) (d : Delivery) : (a.apply d).deliveryId = d.deliveryId := rfl

omit [Runtime] in
theorem Ack.apply_target (a : Ack) (d : Delivery) : (a.apply d).target = d.target := rfl

omit [Runtime] in
theorem Fail.apply_key (a : Fail) (n : ℕ) (d : Delivery) :
    (a.apply n d).deliveryId = d.deliveryId := by
  simp only [Fail.apply, clearLease]; split_ifs <;> rfl

omit [Runtime] in
theorem Fail.apply_target (a : Fail) (n : ℕ) (d : Delivery) : (a.apply n d).target = d.target := by
  simp only [Fail.apply, clearLease]; split_ifs <;> rfl

/-- `DeliveryOutbox.ack`. -/
def ack (t : Deliveries) (a : Ack) : Except Raised (Deliveries × Delivery) :=
  match leased t a.deliveryId a.leaseToken a.now with
  | .error e => .error e
  | .ok d =>
    .ok (t.modifyIf (fun r => r.deliveryId = a.deliveryId) a.apply a.apply_key a.apply_target,
      a.apply d)

/-- `DeliveryOutbox.fail`, for the outbox's `max_attempts`. -/
def fail (maxAttempts : ℕ) (t : Deliveries) (a : Fail) : Except Raised (Deliveries × Delivery) :=
  match leased t a.deliveryId a.leaseToken a.now with
  | .error e => .error e
  | .ok d =>
    .ok (t.modifyIf (fun r => r.deliveryId = a.deliveryId) (a.apply maxAttempts)
      (a.apply_key maxAttempts) (a.apply_target maxAttempts), a.apply maxAttempts d)

end EventServer.Deliveries.Outbox
