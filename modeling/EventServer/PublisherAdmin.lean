import EventServer.Auth.Publisher
import EventServer.CatalogAdmin
import Mathlib.Data.List.Dedup

/-! # Onboarding publishers

`publisher_admin.py`: the local tool that creates a publisher or gives it a new token and new
prefixes. A prefix ends with a dot, so that it is a namespace of event keys. -/

namespace EventServer.PublisherAdmin

open EventServer.Auth.Publisher EventServer.CatalogAdmin EventServer.Lib EventServer.Python

/-- The pattern `[a-z0-9][a-z0-9_-]{2,63}` of publisher keys. -/
def isPublisherKey (s : String) : Bool :=
  match s.toList with
  | c :: cs => isLowerDigit c && 2 ≤ cs.length && cs.length ≤ 63 &&
      cs.all fun c => isLowerDigit c || c = '_' || c = '-'
  | [] => false

/-- `PREFIX_RE`, the pattern `^[a-z0-9]+(?:\.[a-z0-9_]+)*\.$`. -/
def isNamespace (s : String) : Bool :=
  match segments s.toList with
  | first :: rest =>
    first ≠ [] && first.all isLowerDigit && rest.getLast? = some [] &&
      rest.dropLast.all fun w => w ≠ [] && w.all fun c => isLowerDigit c || c = '_'
  | [] => false

structure Upsert where
  publisherKey : String
  token : String
  prefixes : List String
  description : String := ""

variable [Runtime]

/-- The row as the assignments of `upsert` leave it. -/
def Upsert.row (a : Upsert) : EventPublisher where
  publisherKey := a.publisherKey
  tokenHash := tokenHash a.token
  allowedEventPrefixes := sortedStr a.prefixes.dedup
  description := a.description
  enabled := true

def upsert (publishers : EventPublishers) (a : Upsert) : Except Raised EventPublishers :=
  if isPublisherKey a.publisherKey = false then
    .error (.valueError "publisher key has an invalid format")
  else if a.token.length < 32 then
    .error (.valueError "publisher token must contain at least 32 characters")
  else if a.prefixes = [] ∨ a.prefixes.any (fun p => !isNamespace p) = true then
    .error (.valueError
      "each allowed prefix must end with a dot and contain only event-key syntax")
  else .ok (publishers.put a.row)

theorem upsert_ok {publishers publishers' : EventPublishers} {a : Upsert}
    (h : upsert publishers a = .ok publishers') :
    isPublisherKey a.publisherKey = true ∧ 32 ≤ a.token.length ∧ a.prefixes ≠ [] ∧
      (∀ p ∈ a.prefixes, isNamespace p = true) ∧ publishers' = publishers.put a.row := by
  unfold upsert at h
  split_ifs at h with hkey htoken hprefixes
  cases h
  rw [not_or, List.any_eq_true, not_exists] at hprefixes
  refine ⟨by simpa using hkey, not_lt.mp htoken, hprefixes.1, fun p hp => ?_, rfl⟩
  have hnot := hprefixes.2 p
  simpa [hp] using hnot

theorem mem_row_prefixes {a : Upsert} {p : String} :
    p ∈ a.row.allowedEventPrefixes ↔ p ∈ a.prefixes := by
  rw [Upsert.row, sortedStr, List.mem_insertionSort, List.mem_dedup]

end EventServer.PublisherAdmin
