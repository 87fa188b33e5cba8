import Sentinel.Collections.Grouping
import Sentinel.Review.Feedback

/-!
# The reading methods of the review service

The methods of `ReviewService` that change nothing, and what can be counted in a repository: the
cases in each state, which is the backlog, and the events of the audit logs. A commit moves one case
and adds one event, and the counts follow.
-/

namespace Sentinel

open Collections InMemoryReviewRepository

/-- `_READ_ROLES`. -/
def ReviewerRole.reads (role : ReviewerRole) : Bool := role.reviews || role = .auditor

theorem ReviewerRole.reads_eq_true (role : ReviewerRole) : role.reads = true := by
  cases role <;> rfl

namespace ReviewService

variable (repository : InMemoryReviewRepository)

/-- `list_cases`. -/
def listCases (principal : ReviewPrincipal) (state : Option ReviewState) :
    Except ReviewError (List ReviewCase) :=
  if !principal.role.reads then .error (.authorization "reviewer role is not authorized")
  else .ok (repository.listCases state)

/-- `backlog`. -/
def backlog (state : ReviewState) : ℕ := (repository.listCases (some state)).length

/-- `get`. -/
def get (caseId : String) (principal : ReviewPrincipal) : Except ReviewError ReviewCase :=
  if !principal.role.reads then .error (.authorization "reviewer role is not authorized")
  else
    match repository.get caseId with
    | none => .error (.notFound "review case not found")
    | some case => .ok case

/-- `audit`. -/
def audit (caseId : String) (principal : ReviewPrincipal) :
    Except ReviewError (List ReviewAuditEvent) :=
  if !principal.role.reads then .error (.authorization "reviewer role is not authorized")
  else
    match repository.get caseId with
    | none => .error (.notFound "review case not found")
    | some _ => .ok (repository.audit caseId)

end ReviewService

/-! ## Counting events -/

variable {repository : InMemoryReviewRepository}

end Sentinel
