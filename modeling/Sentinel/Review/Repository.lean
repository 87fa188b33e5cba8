import Mathlib.Data.List.Sort
import Sentinel.Collections.Dict
import Sentinel.Review.Models

/-!
# The in-memory repository

Three dictionaries and one operation that changes them. Copies are not modelled: `model_copy(deep=
True)` on every way in and out is what makes the records of the repository values, as they are here
anyway. The locks are not modelled either, since the service holds its own lock around each method.
-/

namespace Sentinel

open Collections

/-- `InMemoryReviewRepository`. -/
structure InMemoryReviewRepository where
  cases : Dict String ReviewCase
  requestIndex : Dict String String
  events : Dict String (List ReviewAuditEvent)

namespace InMemoryReviewRepository

/-- The repository after `__init__`. -/
def empty : InMemoryReviewRepository := ⟨Dict.empty, Dict.empty, Dict.empty⟩

variable (repository : InMemoryReviewRepository)

/-- `get`. -/
def get (caseId : String) : Option ReviewCase := repository.cases.get caseId

/-- `find_by_request_id`. An empty case id counts as none. -/
def findByRequestId (requestId : String) : Option ReviewCase :=
  match repository.requestIndex.get requestId with
  | some caseId => if caseId = "" then none else repository.get caseId
  | none => none

/-- `list_cases`: by creation, and in the order of the dictionary where that leaves a choice. -/
def listCases (state : Option ReviewState) : List ReviewCase :=
  (repository.cases.values.filter fun case ↦ state.all (case.state = ·)).insertionSort
    fun case case' ↦ case.createdAt.instant ≤ case'.createdAt.instant

/-- `audit`. -/
def audit (caseId : String) : List ReviewAuditEvent := (repository.events.get caseId).getD []

/-- `commit`. -/
def commit (case : ReviewCase) (event : ReviewAuditEvent) : InMemoryReviewRepository where
  cases := repository.cases.set case.caseId case
  requestIndex := repository.requestIndex.set case.requestId case.caseId
  events := repository.events.set case.caseId (repository.audit case.caseId ++ [event])

variable {repository} {case : ReviewCase} {event : ReviewAuditEvent} {caseId : String}

@[simp] theorem get_commit_self : (repository.commit case event).get case.caseId = some case :=
  Dict.get_set_self _ _ _

theorem get_commit_of_ne (h : caseId ≠ case.caseId) :
    (repository.commit case event).get caseId = repository.get caseId :=
  Dict.get_set_of_ne h _ _

@[simp] theorem audit_commit_self :
    (repository.commit case event).audit case.caseId = repository.audit case.caseId ++ [event] := by
  rw [audit, commit, Dict.get_set_self, Option.getD_some]

theorem audit_commit_of_ne (h : caseId ≠ case.caseId) :
    (repository.commit case event).audit caseId = repository.audit caseId := by
  rw [audit, commit, Dict.get_set_of_ne h, audit]

theorem index_commit (requestId : String) :
    (repository.commit case event).requestIndex.get requestId
      = if requestId = case.requestId then some case.caseId
        else repository.requestIndex.get requestId :=
  Dict.get_set _ _ _ _

theorem commit_ne_self : repository.commit case event ≠ repository := by
  intro h
  have hlength := congrArg (fun r ↦ (r.audit case.caseId).length) h
  simp at hlength

end InMemoryReviewRepository

end Sentinel
