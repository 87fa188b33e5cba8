import Sentinel.Api.Authenticity

/-!
# What the metrics say about the reviews

The counters of the review endpoints start at zero and are increased by the handlers; the audit logs
start with what the ledger holds and grow in the repository. That they grow alike is an invariant of
the runs of requests: a handler counts a success exactly where the service has committed, which it
has not where the ledger could not be appended to. The gauge of the backlog is set from the
repository after every commit, and by some requests that commit nothing; between two settings
nothing changes it, and nothing changes the cases either.
-/

namespace Sentinel

open Collections InMemoryReviewRepository Transition

def ReviewAction.metric : ReviewAction → String
  | .created => "enqueued"
  | .claimed => "claimed"
  | .decided | .appealDecided => "decided"
  | .appealed => "appealed"

/-- The labels of what reviewers do. -/
def reviewerMetrics : List String := ["claimed", "decided", "appealed"]

variable {start : InMemoryReviewRepository} {api api' : ReviewApi}

namespace ReviewComponents

variable {components : ReviewComponents} {call : Option ReviewCall} {answer : ReviewAnswer}

/-- What a request that fails leaves behind. -/
structure Untouched (api api' : ReviewApi) : Prop where
  repository : api'.repository = api.repository
  reviewBacklog : api'.reviewBacklog = api.reviewBacklog
  resolutionDurations : api'.resolutionDurations = api.resolutionDurations
  reviewEvents : api'.reviewEvents = api.reviewEvents ∨
    ∃ metric ∈ reviewerMetrics, api'.reviewEvents = api.reviewEvents ++ [(metric, "failed")]

/-- **Every request is answered, and one that fails changes nothing** but the count of failures.
Only the `OSError` of an append leaves a handler untranslated. -/
theorem answered (components : ReviewComponents) (api : ReviewApi) (request : ReviewRequest) :
    (∃ body, (components.handle api request).2 = .ok body) ∨
      Untouched api (components.handle api request).1 ∧
        ((components.handle api request).2.Translated ∨
          request.append ≠ .done ∧ (components.handle api request).2 = .raised .osError ∧
            (components.handle api request).1.reviewEvents = api.reviewEvents) := by
  have hhandled := components.handled api request
  generalize components.callOf request = call at hhandled
  generalize components.handle api request = result at hhandled
  cases hhandled with
  | rejected answer hanswer => exact .inr ⟨⟨rfl, rfl, rfl, .inl rfl⟩, .inl hanswer⟩
  | read api' body => exact .inl ⟨body, rfl⟩
  | failed call error hplan =>
    refine .inr ⟨⟨rfl, rfl, rfl, .inr ⟨call.metric, ?_, rfl⟩⟩, .inl (translated_translate error)⟩
    cases call with
    | enqueue => cases hplan
    | claim => exact List.mem_cons_self
    | decide => exact List.mem_cons_of_mem _ List.mem_cons_self
    | appeal => exact List.mem_cons_of_mem _ (List.mem_cons_of_mem _ List.mem_cons_self)
  | passed call found hplan api' body => exact .inl ⟨body, rfl⟩
  | unlogged call case event hplan happend =>
    exact .inr ⟨⟨rfl, rfl, rfl, .inl rfl⟩, .inr ⟨happend, rfl, rfl⟩⟩
  | committed call case event happend hplan api' body => exact .inl ⟨body, rfl⟩

end ReviewComponents

end Sentinel
