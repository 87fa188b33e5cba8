import Sentinel.Api.Bookkeeping
import Sentinel.Collections.Counting

/-!
# What becomes of the requests to the moderation endpoints

A request that is rejected changes nothing. One that is answered writes its point once, is counted
once, and is in the review queue in the end if it needs review, unless the ledger cannot be appended
to; and nothing else writes, counts or queues anything. The invariant says this of every moment
between the parts of the requests: what is stored, counted and queued is what the requests have got
to by then. The threat store is the one that the handlers of the requests leave, each of them run
without a break. The review endpoints take part in the runs.
-/

namespace Sentinel

open Collections InMemoryReviewRepository Transition

/-! ## The invariant -/

namespace ModerationComponents

variable {V : Type*} {components : ModerationComponents V} {state state' : State V}
  {start : InMemoryReviewRepository} {store : ThreatVectorStore V} {entry : Entry}

/-- What a request has written by now. -/
def writes (components : ModerationComponents V) (entry : Entry) : List (String × String) :=
  if entry.progress = .searched then [] else components.points entry.point

/-- What a request has been counted as by now. -/
def Entry.counts (entry : Entry) : List (Decision × String) :=
  if entry.progress.isClosed then
    entry.answer.response.toList.map fun (path, response) ↦ (response.decision, path)
  else []

/-- The request has been answered with a response that needs review, and its handler is done and has
not raised. -/
def Entry.Queues (entry : Entry) (requestId : String) : Prop :=
  (∃ append, entry.progress = .closed append none) ∧
    ∃ path response, entry.answer.response = some (path, response) ∧
      requiresReview response = true ∧ requestId = response.requestId

/-- The books are those of the requests, over the repository that the service has started from. -/
structure Accounted (components : ModerationComponents V) (start : InMemoryReviewRepository)
    (state : State V) : Prop where
  answer_eq : ∀ entry ∈ state.entries, ∃ store,
    entry.answer = (components.moderate store entry.submission).1
  raised : ∀ entry ∈ state.entries, ∀ append error,
    entry.progress = .closed append (some error) → append ≠ .done ∧ error = .osError
  store : state.store = components.storeOf state.history
  history : state.history.Perm (state.entries.flatMap components.writes)
  decisions : state.api.decisions.Perm (state.entries.flatMap Entry.counts)
  consistent : Consistent components.review.hashing state.api.repository
  queued_iff : ∀ requestId, Queued state.api.repository requestId ↔
    Queued start requestId ∨
      components.review.authorizer ≠ none ∧ ∃ entry ∈ state.entries, entry.Queues requestId

end ModerationComponents

end Sentinel
