import Sentinel.Review.AuditTrail

/-!
# One case for each request

The service finds the case of a request through the index, by the request id alone, and names a new
case after the request id and the policy version. The two keys belong together: an index entry, once
made, is never pointed at another case, and a new case never takes the id of an old one, although a
request id may contain colons and look like the beginning of another name.

An enqueue that finds a case returns it as it is. An enqueue of a response that needs no review
returns nothing, also where the request has a case from an earlier response.
-/

namespace Sentinel

open InMemoryReviewRepository

variable {H : ReviewHashing} {repository repository' : InMemoryReviewRepository}
  {call : ReviewCall} {case : ReviewCase} {event : ReviewAuditEvent} {requestId caseId : String}
  {response : ModerationResponse} {createdAt updatedAt : DateTime} {stamp : Stamp}

/-! ## The index -/

/-- The index and the cases are in bijection. -/
structure Paired (repository : InMemoryReviewRepository) : Prop where
  /-- A request id leads to the case that carries it. -/
  index_iff : ∀ requestId caseId, repository.requestIndex.get requestId = some caseId ↔
    ∃ case, repository.get caseId = some case ∧ case.requestId = requestId
  /-- No request has two cases. -/
  unique : ∀ caseId caseId' case case', repository.get caseId = some case →
    repository.get caseId' = some case' → case.requestId = case'.requestId → caseId = caseId'
  /-- No case is that of two requests. -/
  distinct : ∀ requestId requestId' caseId, repository.requestIndex.get requestId = some caseId →
    repository.requestIndex.get requestId' = some caseId → requestId = requestId'

theorem Consistent.paired (h : Consistent H repository) : Paired repository where
  index_iff requestId caseId := by
    constructor
    · exact h.index_sound
    · rintro ⟨case, hget, rfl⟩
      exact (h.kept hget).indexed
  unique caseId caseId' case case' hget hget' hrequest := by
    have hindexed := (h.kept hget).indexed
    rw [hrequest, (h.kept hget').indexed, Option.some_inj] at hindexed
    exact hindexed.symm
  distinct requestId requestId' caseId hindex hindex' := by
    obtain ⟨case, hget, rfl⟩ := h.index_sound hindex
    obtain ⟨case', hget', rfl⟩ := h.index_sound hindex'
    rw [Option.some_inj.mp (hget.symm.trans hget')]

theorem Consistent.index_perform (hH : H.Uuid5Sound) (h : Consistent H repository)
    (hcolon : call.ColonFree) (hindex : repository.requestIndex.get requestId = some caseId) :
    (call.perform H repository).1.requestIndex.get requestId = some caseId := by
  rw [ReviewCall.perform]
  split
  · exact hindex
  · exact hindex
  · rename_i case event hplan
    have hcommittable := h.committable hH hcolon (ReviewCall.commits_of_plan hplan)
    show (repository.commit case event).requestIndex.get requestId = some caseId
    rw [index_commit]
    split_ifs with hrequest
    · -- the commit is to the case of this request
      obtain ⟨case', hget, hcase'⟩ := h.index_sound hindex
      rw [(hcommittable.unique hget).mp (hcase'.trans hrequest)]
    · exact hindex

theorem index_run (hH : H.Uuid5Sound) {calls : List ReviewCall}
    (hcolon : ∀ call ∈ calls, call.ColonFree) (h : Consistent H repository)
    (hindex : repository.requestIndex.get requestId = some caseId)
    (hrun : Transition.run (ReviewCall.step H) repository calls = some repository') :
    Consistent H repository' ∧ repository'.requestIndex.get requestId = some caseId := by
  have halong : Transition.Along (ReviewCall.step H) (fun _ call ↦ call.ColonFree) repository
      calls := Transition.along_of_forall (fun hcall ↦ hcall) repository hcolon
  refine Transition.run_invariant_along (P := fun repository ↦ Consistent H repository ∧
    repository.requestIndex.get requestId = some caseId) ?_ ⟨h, hindex⟩ halong hrun
  rintro repository call repository' ⟨h, hindex⟩ hcall hstep
  cases hstep
  exact ⟨h.perform hH hcall, h.index_perform hH hcall hindex⟩

/-! ## Enqueue -/

theorem perform_enqueue_of_not (h : requiresReview response = false) :
    (ReviewCall.enqueue response createdAt updatedAt stamp).perform H repository
      = (repository, .ok none) := by
  rw [ReviewCall.perform, ReviewCall.plan, ReviewService.enqueue, h]
  rfl

theorem perform_enqueue_of_find (h : requiresReview response = true)
    (hfind : repository.findByRequestId response.requestId = some case) :
    (ReviewCall.enqueue response createdAt updatedAt stamp).perform H repository
      = (repository, .ok (some case)) := by
  rw [ReviewCall.perform, ReviewCall.plan, ReviewService.enqueue, h]
  simp only [Bool.not_true, Bool.false_eq_true, if_false, hfind]

theorem perform_enqueue_of_free (H : ReviewHashing) (createdAt updatedAt : DateTime)
    (stamp : Stamp) (h : requiresReview response = true)
    (hfind : repository.findByRequestId response.requestId = none) :
    ∃ event, (ReviewCall.enqueue response createdAt updatedAt stamp).perform H repository
      = (repository.commit (createdCase H response createdAt updatedAt) event,
        .ok (some (createdCase H response createdAt updatedAt))) := by
  rw [ReviewCall.perform, ReviewCall.plan, ReviewService.enqueue, h]
  simp only [Bool.not_true, Bool.false_eq_true, if_false, hfind]
  exact ⟨_, rfl⟩

theorem Consistent.find_of_index (hH : H.Uuid5Sound) (h : Consistent H repository)
    (hindex : repository.requestIndex.get requestId = some caseId) :
    ∃ case, repository.findByRequestId requestId = some case ∧
      repository.get caseId = some case ∧ case.caseId = caseId := by
  obtain ⟨case, hget, rfl⟩ := h.index_sound hindex
  exact ⟨case, h.findByRequestId_eq hH hget, hget, (h.kept hget).caseId_eq⟩

/-- After an enqueue that needs review the request is indexed, and the caller has its case. -/
theorem Consistent.index_enqueue (h : Consistent H repository) (createdAt updatedAt : DateTime)
    (stamp : Stamp) (hreview : requiresReview response = true) :
    ∃ found, ((ReviewCall.enqueue response createdAt updatedAt stamp).perform H repository).2
        = .ok (some found) ∧
      ((ReviewCall.enqueue response createdAt updatedAt stamp).perform H
        repository).1.requestIndex.get response.requestId = some found.caseId := by
  cases hfind : repository.findByRequestId response.requestId with
  | none =>
    obtain ⟨event, hperform⟩ :=
      perform_enqueue_of_free H createdAt updatedAt stamp hreview hfind
    rw [hperform]
    exact ⟨_, rfl, (index_commit _).trans (if_pos rfl)⟩
  | some found =>
    obtain ⟨hget, hrequest⟩ := h.requestId_of_find hfind
    rw [perform_enqueue_of_find hreview hfind]
    exact ⟨found, rfl, hrequest ▸ (h.kept hget).indexed⟩

theorem Consistent.enqueue_untouched (hH : H.Uuid5Sound) (h : Consistent H repository)
    (hcolon : ':' ∉ response.policyVersion.toList) (hget : repository.get caseId = some case) :
    ((ReviewCall.enqueue response createdAt updatedAt stamp).perform H repository).1.get caseId
        = some case ∧
      ((ReviewCall.enqueue response createdAt updatedAt stamp).perform H repository).1.audit caseId
        = repository.audit caseId := by
  cases hreview : requiresReview response with
  | false =>
    rw [perform_enqueue_of_not hreview]
    exact ⟨hget, rfl⟩
  | true =>
    cases hfind : repository.findByRequestId response.requestId with
    | none =>
      obtain ⟨event, hperform⟩ :=
        perform_enqueue_of_free H createdAt updatedAt stamp hreview hfind
      have hcommittable : Committable H repository (createdCase H response createdAt updatedAt)
          (auditEvent H _ _ .created "system" none none "automated_review_required" stamp) :=
        h.committable_created hH hcolon hfind
      -- the case of another request has another id
      have hne : caseId ≠ (createdCase H response createdAt updatedAt).caseId := by
        intro heq
        have hrequest : case.requestId = response.requestId := (hcommittable.unique hget).mpr heq
        have hfound := h.findByRequestId_eq hH hget
        rw [hrequest, hfind] at hfound
        cases hfound
      rw [hperform]
      exact ⟨(get_commit_of_ne hne).trans hget, audit_commit_of_ne hne⟩
    | some found =>
      rw [perform_enqueue_of_find hreview hfind]
      exact ⟨hget, rfl⟩

/-! ## Runs -/

/-- What an enqueue of a request has returned, any later one whose response needs review returns
too, in its current state. -/
structure Repeated (H : ReviewHashing) (earlier repository : InMemoryReviewRepository)
    (response : ModerationResponse) (call : ReviewCall) : Prop where
  same : ∃ first current, (call.perform H earlier).2 = .ok (some first) ∧
    repository.get first.caseId = some current ∧ current.caseId = first.caseId ∧
    current.requestId = response.requestId ∧
    ∀ (again : ModerationResponse) (createdAt updatedAt : DateTime) (stamp : Stamp),
      again.requestId = response.requestId → requiresReview again = true →
      (ReviewCall.enqueue again createdAt updatedAt stamp).perform H repository
        = (repository, .ok (some current))

theorem Consistent.repeated (hH : H.Uuid5Sound) {earlier : InMemoryReviewRepository}
    (h : Consistent H earlier) {between : List ReviewCall}
    (hcolon : ∀ call ∈ .enqueue response createdAt updatedAt stamp :: between, call.ColonFree)
    (hreview : requiresReview response = true)
    (hrun : Transition.run (ReviewCall.step H) earlier
      (.enqueue response createdAt updatedAt stamp :: between) = some repository) :
    Repeated H earlier repository response (.enqueue response createdAt updatedAt stamp) := by
  obtain ⟨next, hstep, hrest⟩ := Transition.run_cons_eq_some.mp hrun
  cases hstep
  have hcall := hcolon _ List.mem_cons_self
  have hcolons : ∀ call ∈ between, call.ColonFree := fun call hmem ↦
    hcolon call (List.mem_cons_of_mem _ hmem)
  obtain ⟨first, hfirst, hindex⟩ := h.index_enqueue createdAt updatedAt stamp hreview
  obtain ⟨hend, hindexed⟩ := index_run hH hcolons (h.perform hH hcall) hindex hrest
  obtain ⟨current, hfind, hget, hcaseId⟩ := hend.find_of_index hH hindexed
  refine ⟨first, current, hfirst, hget, hcaseId, (hend.requestId_of_find hfind).2,
    fun again _ _ _ hsame hagain ↦ ?_⟩
  rw [← hsame] at hfind
  exact perform_enqueue_of_find hagain hfind

/-- **One review case for each request.** In every state that a run comes to, the index and the
cases are in bijection, every request that ever needed review has its case, an enqueue leaves the
cases and logs there are alone, and one whose response needs review returns the case that the first
one has returned, in its current state; one whose response needs none returns nothing. -/
theorem one_case_for_each (H : ReviewHashing) (hH : H.Uuid5Sound) (calls : List ReviewCall)
    (hcolon : ∀ call ∈ calls, call.ColonFree) (repository : InMemoryReviewRepository)
    (hrun : Transition.run (ReviewCall.step H) empty calls = some repository) :
    Paired repository ∧
      (∀ before response createdAt updatedAt stamp between,
        calls = before ++ .enqueue response createdAt updatedAt stamp :: between →
        requiresReview response = true →
        ∃ earlier, Transition.run (ReviewCall.step H) empty before = some earlier ∧
          Repeated H earlier repository response
            (.enqueue response createdAt updatedAt stamp)) ∧
      (∀ response createdAt updatedAt stamp caseId case, ':' ∉ response.policyVersion.toList →
        repository.get caseId = some case →
        ((ReviewCall.enqueue response createdAt updatedAt stamp).perform H repository).1.get caseId
            = some case ∧
          ((ReviewCall.enqueue response createdAt updatedAt stamp).perform H
            repository).1.audit caseId = repository.audit caseId) ∧
      ∀ response createdAt updatedAt stamp, requiresReview response = false →
        (ReviewCall.enqueue response createdAt updatedAt stamp).perform H repository
          = (repository, .ok none) := by
  have h := consistent_of_run hH hcolon hrun
  refine ⟨h.paired, ?_, fun response createdAt updatedAt stamp caseId case hpolicy hget ↦
    h.enqueue_untouched hH hpolicy hget, fun response createdAt updatedAt stamp hreview ↦
    perform_enqueue_of_not hreview⟩
  rintro before response createdAt updatedAt stamp between rfl hreview
  obtain ⟨earlier, hbefore, hrest⟩ := Transition.run_append_eq_some.mp hrun
  have hearlier := consistent_of_run hH (fun call hmem ↦
    hcolon call (List.mem_append_left _ hmem)) hbefore
  exact ⟨earlier, hbefore, hearlier.repeated hH (fun call hmem ↦
    hcolon call (List.mem_append_right before hmem)) hreview hrest⟩

/-- The sample request keeps its case, although the case has been resolved. -/
theorem one_case_for_each_sample : ∃ repository,
    Transition.run (ReviewCall.step ReviewSample.hashing) empty ReviewSample.calls
      = some repository ∧
    (ReviewCall.enqueue ReviewSample.response ReviewSample.decided.occurredAt
        ReviewSample.decided.occurredAt ⟨"again", ReviewSample.decided.occurredAt⟩).perform
      ReviewSample.hashing repository = (repository, .ok (some ReviewSample.resolved)) := by
  obtain ⟨repository, hrun, hget⟩ := ReviewSample.run_calls
  obtain ⟨hpaired, hrepeated, -⟩ := one_case_for_each ReviewSample.hashing ReviewSample.uuid5Sound
    ReviewSample.calls (by decide) repository hrun
  obtain ⟨earlier, hbefore, hsame⟩ := hrepeated [] ReviewSample.response _ _ _ _ rfl (by decide)
  obtain ⟨first, current, -, hfirst, -, hrequest, hagain⟩ := hsame.same
  have hcase : first.caseId = ReviewSample.caseId :=
    hpaired.unique _ _ _ _ hfirst hget hrequest
  rw [hcase, hget] at hfirst
  obtain rfl := Option.some_inj.mp hfirst
  exact ⟨repository, hrun, hagain _ _ _ _ rfl (by decide)⟩

/-- A response of the sample request that needs no review. -/
def ReviewSample.allowed : ModerationResponse where
  requestId := "sample-request"
  decision := .allow
  riskScore := { num := 0, den := 1 }
  signals := []
  policyVersion := "test-policy-v1"
  evaluatedAt := .utc 2026 9 1 13 0 0 0
  riskScore_mem := by decide

/-- **Not every repeated enqueue returns the case**: with a response that needs no review nothing is
returned, although the request has a case. -/
theorem enqueue_returns_nothing :
    ¬∀ (H : ReviewHashing), H.Uuid5Sound → ∀ calls : List ReviewCall,
      (∀ call ∈ calls, call.ColonFree) → ∀ repository,
      Transition.run (ReviewCall.step H) empty calls = some repository →
      ∀ caseId case, repository.get caseId = some case →
      ∀ response createdAt updatedAt stamp, ':' ∉ response.policyVersion.toList →
        response.requestId = case.requestId →
        ((ReviewCall.enqueue response createdAt updatedAt stamp).perform H repository).2
          = .ok (some case) := by
  intro h
  obtain ⟨repository, hrun, hget⟩ := ReviewSample.run_calls
  have hreturned := h ReviewSample.hashing ReviewSample.uuid5Sound ReviewSample.calls (by decide)
    repository hrun _ _ hget ReviewSample.allowed ReviewSample.allowed.evaluatedAt
    ReviewSample.allowed.evaluatedAt ⟨"again", ReviewSample.allowed.evaluatedAt⟩ (by decide) rfl
  rw [perform_enqueue_of_not (by decide)] at hreturned
  cases hreturned

end Sentinel
