import EventServer.Core.Models
import EventServer.Lib.Table

/-! # Publishers and their tokens

`auth/publisher.py`: a publisher is stored with the digest of its token and the prefixes of the
event keys it may publish. A request is answered for the first enabled publisher whose digest is
that of the token it presents, in the order in which the database returns the rows. -/

namespace EventServer.Auth.Publisher

open EventServer.Lib EventServer.Python

structure EventPublisher where
  publisherKey : String
  tokenHash : String
  allowedEventPrefixes : List String := []
  description : String := ""
  enabled : Bool := true
  deriving DecidableEq

abbrev EventPublishers := Table EventPublisher.publisherKey EventPublisher.publisherKey

/-- What leaves an API function in place of a response. -/
inductive ApiError where
  | http (status : ℕ) (detail : String)
  /-- A model refuses its fields. -/
  | validationError
  /-- An exception of the services that the function does not handle. -/
  | raised (e : Raised)
  deriving DecidableEq

/-- `HTTPAuthorizationCredentials`. -/
structure Credentials where
  scheme : String
  credentials : String

/-- `scheme.lower() == "bearer"`; headers are Latin-1, where only the ASCII letters have these lower
case letters. -/
def Credentials.isBearer (c : Credentials) : Bool :=
  String.ofList (c.scheme.toList.map Char.toLower) = "bearer"

/-- The enabled publishers, in the order in which the database returns them. -/
def enabledRows (publishers : EventPublishers) (order : String → ℕ) : List EventPublisher :=
  (publishers.rows.filter (·.enabled)).insertionSort fun r r' =>
    order r.publisherKey ≤ order r'.publisherKey

variable [Runtime]

def tokenHash (token : String) : String := Runtime.sha256Hex token

def unauthorized : ApiError := .http 401 "invalid publisher credentials"

def requirePublisherAuth (rows : List EventPublisher) (credentials : Option Credentials) :
    Except ApiError EventPublisher :=
  match credentials with
  | none => .error unauthorized
  | some c =>
    if c.isBearer then
      match rows.find? fun publisher => tokenHash c.credentials = publisher.tokenHash with
      | some publisher => .ok publisher
      | none => .error unauthorized
    else .error unauthorized

omit [Runtime] in
theorem mem_enabledRows {publishers : EventPublishers} {order : String → ℕ} {r : EventPublisher} :
    r ∈ enabledRows publishers order ↔ r ∈ publishers ∧ r.enabled = true := by
  unfold enabledRows
  rw [List.mem_insertionSort, List.mem_filter]
  exact Iff.rfl

/-- Whoever is authenticated is one of the rows, with the digest of the token. -/
theorem requirePublisherAuth_ok {rows : List EventPublisher} {credentials : Option Credentials}
    {publisher : EventPublisher} (h : requirePublisherAuth rows credentials = .ok publisher) :
    ∃ c, credentials = some c ∧ c.isBearer = true ∧ publisher ∈ rows ∧
      publisher.tokenHash = tokenHash c.credentials := by
  cases credentials with
  | none => cases h
  | some c =>
    simp only [requirePublisherAuth] at h
    split_ifs at h with hb
    cases hf : rows.find? fun publisher => tokenHash c.credentials = publisher.tokenHash with
    | none => rw [hf] at h; cases h
    | some found =>
      rw [hf] at h
      cases h
      have heq : tokenHash c.credentials = publisher.tokenHash := by
        simpa using List.find?_some hf
      exact ⟨c, rfl, hb, List.mem_of_find?_eq_some hf, heq.symm⟩

end EventServer.Auth.Publisher
