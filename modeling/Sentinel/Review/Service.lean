import Mathlib.Logic.Equiv.Basic
import Sentinel.Review.Repository

/-!
# The review service

The four methods of `ReviewService` that change anything, each up to its `commit`, and the feedback
export, which only reads. What a method does before its commit is a function of the repository, its
arguments and its readings of the clock and of `uuid4`: it raises, or returns without a commit, or
has a case and an event to commit. The commit is the repository's business, and only there the two
repositories differ.

A method changes a working copy of the case and builds the event from the copy and from the audit
log. `Commits` lists what can be committed, one constructor for each method, with all that the
method has checked.
-/

namespace Sentinel

open InMemoryReviewRepository

/-- The functions from outside the platform that the service uses. -/
structure ReviewHashing where
  /-- `str(uuid5(NAMESPACE_URL, name))`. -/
  uuid5 : String → String
  /-- `hashlib.sha256(text.encode("utf-8")).hexdigest()`. -/
  sha256 : String → String

inductive ReviewError
  | notFound (message : String)
  | conflict (message : String)
  | authorization (message : String)
deriving DecidableEq

/-- `str(uuid4())` and `datetime.now(UTC)` in `_event`. -/
structure Stamp where
  eventId : String
  occurredAt : DateTime
deriving DecidableEq

/-- What a method has worked out when it returns or commits. -/
inductive Plan
  | result (case : Option ReviewCase)
  /-- Commit, and return the case. -/
  | commit (case : ReviewCase) (event : ReviewAuditEvent)

/-! ## The methods -/

/-- `_REVIEW_ROLES`. -/
def ReviewerRole.reviews : ReviewerRole → Bool
  | .reviewer | .seniorReviewer => true
  | .auditor => false

/-- The hash of the last event, or the zeros. -/
def previousHash (existing : List ReviewAuditEvent) : String :=
  match existing.getLast? with
  | some event => event.eventHash
  | none => genesisHash

/-- `_event`, given the audit log of the case. -/
def auditEvent (H : ReviewHashing) (existing : List ReviewAuditEvent) (case : ReviewCase)
    (action : ReviewAction) (actorId : String) (actorRole : Option ReviewerRole)
    (fromState : Option ReviewState) (reasonCode : String) (stamp : Stamp) : ReviewAuditEvent :=
  let payload : AuditPayload :=
    { eventId := stamp.eventId
      caseId := case.caseId
      sequence := existing.length + 1
      action := action
      actorId := actorId
      actorRole := actorRole
      fromState := fromState
      toState := case.state
      reasonCode := reasonCode
      occurredAt := stamp.occurredAt
      previousHash := previousHash existing
      sequence_pos := Nat.succ_pos _ }
  ⟨payload, auditEventDigest H.sha256 payload⟩

theorem previousHash_eq_tip (sha256 : String → String) (existing : List ReviewAuditEvent) :
    previousHash existing = (auditChain sha256).tip existing := by
  rw [previousHash, Chain.HashChain.tip]
  cases existing.getLast? <;> rfl

/-- Whatever the service records continues the chain. -/
theorem auditEvent_follows (H : ReviewHashing) (existing : List ReviewAuditEvent)
    (case : ReviewCase) (action : ReviewAction) (actorId : String) (actorRole : Option ReviewerRole)
    (fromState : Option ReviewState) (reasonCode : String) (stamp : Stamp) :
    (auditChain H.sha256).Follows existing
      (auditEvent H existing case action actorId actorRole fromState reasonCode stamp) where
  previousHash_eq := previousHash_eq_tip H.sha256 existing
  hash_eq := rfl
  sequence_eq := rfl

def caseIdOf (H : ReviewHashing) (requestId policyVersion : String) : String :=
  H.uuid5 ("sentinel-review:" ++ requestId ++ ":" ++ policyVersion)

/-- The categories of the signals, each once, sorted by their values. -/
def signalCategories (response : ModerationResponse) : List SafetyCategory :=
  (response.signals.map ModerationSignal.category).dedup.insertionSort fun c c' ↦ c.value ≤ c'.value

/-- The new case of `enqueue`. -/
def createdCase (H : ReviewHashing) (response : ModerationResponse)
    (createdAt updatedAt : DateTime) : ReviewCase where
  caseId := caseIdOf H response.requestId response.policyVersion
  requestId := response.requestId
  automatedDecision := response.decision
  automatedRiskScore := response.riskScore
  signalCategories := signalCategories response
  policyVersion := response.policyVersion
  createdAt := createdAt
  updatedAt := updatedAt
  automatedRiskScore_mem := response.riskScore_mem

/-- The working copy of `claim`. -/
def claimedCase (case : ReviewCase) (principal : ReviewPrincipal) (now : DateTime) : ReviewCase :=
  { case with
    state := .claimed, assignedReviewerId := some principal.reviewerId, updatedAt := now }

/-- The working copy of `decide`. -/
def resolvedCase (case : ReviewCase) (decision : Decision) (reasonCode : String) (now : DateTime) :
    ReviewCase :=
  { case with
    state := .resolved
    finalDecision := some decision
    decisionReasonCode := some reasonCode
    updatedAt := now
    resolvedAt := some now }

/-- The working copy of `appeal`. -/
def appealedCase (case : ReviewCase) (reasonCode : String) (now : DateTime) : ReviewCase :=
  { case with
    state := .appealed
    assignedReviewerId := none
    appealReasonCode := some reasonCode
    updatedAt := now }

def requiresReview (response : ModerationResponse) : Bool :=
  response.decision = .review ∨ .crossModalDisagreement ∈ signalCategories response

/-- `any(event.action == ReviewAction.APPEALED for event in events)`. -/
def isAppeal (events : List ReviewAuditEvent) : Bool :=
  events.any fun event ↦ event.action = .appealed

def decisionAction (events : List ReviewAuditEvent) : ReviewAction :=
  if isAppeal events then .appealDecided else .decided

namespace ReviewService

variable (H : ReviewHashing) (repository : InMemoryReviewRepository)

/-- `enqueue`. -/
def enqueue (response : ModerationResponse) (createdAt updatedAt : DateTime)
    (stamp : Stamp) : Plan :=
  if !requiresReview response then .result none
  else
    match repository.findByRequestId response.requestId with
    | some existing => .result (some existing)
    | none =>
      let case := createdCase H response createdAt updatedAt
      .commit case (auditEvent H (repository.audit case.caseId) case .created "system" none none
        "automated_review_required" stamp)

/-- `claim`. -/
def claim (caseId : String) (principal : ReviewPrincipal) (now : DateTime) (stamp : Stamp) :
    Except ReviewError Plan :=
  if !principal.role.reviews then .error (.authorization "reviewer role is not authorized")
  else
    match repository.get caseId with
    | none => .error (.notFound "review case not found")
    | some case =>
      if case.state = .appealed ∧ principal.role ≠ .seniorReviewer then
        .error (.authorization "only a senior reviewer can claim an appeal")
      else if case.state ≠ .pending ∧ case.state ≠ .appealed then
        .error (.conflict ("case cannot be claimed from state " ++ case.state.value))
      else
        let claimed := claimedCase case principal now
        .ok (.commit claimed (auditEvent H (repository.audit claimed.caseId) claimed .claimed
          principal.reviewerId (some principal.role) (some case.state) "reviewer_claimed" stamp))

/-- `decide`. -/
def decide (caseId : String) (principal : ReviewPrincipal) (decision : Decision)
    (reasonCode : String) (now : DateTime) (stamp : Stamp) : Except ReviewError Plan :=
  if !principal.role.reviews then .error (.authorization "reviewer role is not authorized")
  else if decision = .review then .error (.conflict "a human decision must be allow or block")
  else
    match repository.get caseId with
    | none => .error (.notFound "review case not found")
    | some case =>
      if case.state ≠ .claimed then
        .error (.conflict ("case cannot be decided from state " ++ case.state.value))
      else if case.assignedReviewerId ≠ some principal.reviewerId then
        .error (.authorization "case is assigned to a different reviewer")
      else if isAppeal (repository.audit caseId) ∧ principal.role ≠ .seniorReviewer then
        .error (.authorization "only a senior reviewer can decide an appeal")
      else
        let resolved := resolvedCase case decision reasonCode now
        .ok (.commit resolved (auditEvent H (repository.audit resolved.caseId) resolved
          (decisionAction (repository.audit caseId)) principal.reviewerId (some principal.role)
          (some .claimed) reasonCode stamp))

/-- `appeal`. -/
def appeal (caseId : String) (principal : ReviewPrincipal) (reasonCode : String) (now : DateTime)
    (stamp : Stamp) : Except ReviewError Plan :=
  if !principal.role.reviews then .error (.authorization "reviewer role is not authorized")
  else
    match repository.get caseId with
    | none => .error (.notFound "review case not found")
    | some case =>
      if case.state ≠ .resolved then
        .error (.conflict ("case cannot be appealed from state " ++ case.state.value))
      else
        let appealed := appealedCase case reasonCode now
        .ok (.commit appealed (auditEvent H (repository.audit appealed.caseId) appealed .appealed
          principal.reviewerId (some principal.role) (some .resolved) reasonCode stamp))

/-- The record of a case in `export_feedback`, or `continue`. -/
def feedbackRecord (case : ReviewCase) : Option FeedbackRecord :=
  match case.finalDecision, case.decisionReasonCode with
  | some finalDecision, some decisionReasonCode =>
    match case.resolvedAt with
    | some resolvedAt =>
      some
        { caseId := case.caseId
          requestId := case.requestId
          automatedDecision := case.automatedDecision
          automatedRiskScore := case.automatedRiskScore
          signalCategories := case.signalCategories
          policyVersion := case.policyVersion
          humanDecision := finalDecision
          decisionReasonCode := decisionReasonCode
          resolvedAt := resolvedAt
          appealed := isAppeal (repository.audit case.caseId) }
    | none => none
  | _, _ => none

/-- `export_feedback`, with its reading of the clock. -/
def exportFeedback (principal : ReviewPrincipal) (now : DateTime) :
    Except ReviewError FeedbackExport :=
  if principal.role ≠ .auditor then .error (.authorization "reviewer role is not authorized")
  else
    .ok
      { generatedAt := now
        records := (repository.listCases (some .resolved)).filterMap (feedbackRecord repository) }

end ReviewService

/-- A call of one of the methods, with its readings of the clock and of `uuid4`. -/
inductive ReviewCall
  | enqueue (response : ModerationResponse) (createdAt updatedAt : DateTime) (stamp : Stamp)
  | claim (caseId : String) (principal : ReviewPrincipal) (now : DateTime) (stamp : Stamp)
  | decide (caseId : String) (principal : ReviewPrincipal) (decision : Decision)
      (reasonCode : String) (now : DateTime) (stamp : Stamp)
  | appeal (caseId : String) (principal : ReviewPrincipal) (reasonCode : String) (now : DateTime)
      (stamp : Stamp)
deriving DecidableEq

namespace ReviewCall

def plan (H : ReviewHashing) (repository : InMemoryReviewRepository) :
    ReviewCall → Except ReviewError Plan
  | .enqueue response createdAt updatedAt stamp =>
    .ok (ReviewService.enqueue H repository response createdAt updatedAt stamp)
  | .claim caseId principal now stamp => ReviewService.claim H repository caseId principal now stamp
  | .decide caseId principal decision reasonCode now stamp =>
    ReviewService.decide H repository caseId principal decision reasonCode now stamp
  | .appeal caseId principal reasonCode now stamp =>
    ReviewService.appeal H repository caseId principal reasonCode now stamp

/-- The call over the in-memory repository: the repository afterwards, and what the caller gets. -/
def perform (H : ReviewHashing) (repository : InMemoryReviewRepository) (call : ReviewCall) :
    InMemoryReviewRepository × Except ReviewError (Option ReviewCase) :=
  match call.plan H repository with
  | .error error => (repository, .error error)
  | .ok (.result case) => (repository, .ok case)
  | .ok (.commit case event) => (repository.commit case event, .ok (some case))

/-- What the callers get from calls made one after the other. -/
def outcomes (H : ReviewHashing) :
    InMemoryReviewRepository → List ReviewCall → List (Except ReviewError (Option ReviewCase))
  | _, [] => []
  | repository, call :: calls =>
    (call.perform H repository).2 :: outcomes H (call.perform H repository).1 calls

def step (H : ReviewHashing) (repository : InMemoryReviewRepository) (call : ReviewCall) :
    Option InMemoryReviewRepository :=
  some (call.perform H repository).1

inductive Commits (H : ReviewHashing) (repository : InMemoryReviewRepository) :
    ReviewCall → ReviewCase → ReviewAuditEvent → Prop
  | created (response : ModerationResponse) (createdAt updatedAt : DateTime) (stamp : Stamp)
      (hreview : requiresReview response = true)
      (hfree : repository.findByRequestId response.requestId = none) :
      Commits H repository (.enqueue response createdAt updatedAt stamp)
        (createdCase H response createdAt updatedAt)
        (auditEvent H (repository.audit (createdCase H response createdAt updatedAt).caseId)
          (createdCase H response createdAt updatedAt) .created "system" none none
          "automated_review_required" stamp)
  | claimed (caseId : String) (principal : ReviewPrincipal) (now : DateTime) (stamp : Stamp)
      (case : ReviewCase) (hrole : principal.role.reviews = true)
      (hget : repository.get caseId = some case)
      (hsenior : case.state = .appealed → principal.role = .seniorReviewer)
      (hstate : case.state = .pending ∨ case.state = .appealed) :
      Commits H repository (.claim caseId principal now stamp) (claimedCase case principal now)
        (auditEvent H (repository.audit case.caseId) (claimedCase case principal now) .claimed
          principal.reviewerId (some principal.role) (some case.state) "reviewer_claimed" stamp)
  | decided (caseId : String) (principal : ReviewPrincipal) (decision : Decision)
      (reasonCode : String) (now : DateTime) (stamp : Stamp) (case : ReviewCase)
      (hrole : principal.role.reviews = true) (hdecision : decision ≠ .review)
      (hget : repository.get caseId = some case) (hstate : case.state = .claimed)
      (hassigned : case.assignedReviewerId = some principal.reviewerId)
      (hsenior : isAppeal (repository.audit caseId) = true → principal.role = .seniorReviewer) :
      Commits H repository (.decide caseId principal decision reasonCode now stamp)
        (resolvedCase case decision reasonCode now)
        (auditEvent H (repository.audit case.caseId) (resolvedCase case decision reasonCode now)
          (decisionAction (repository.audit caseId)) principal.reviewerId (some principal.role)
          (some .claimed) reasonCode stamp)
  | appealed (caseId : String) (principal : ReviewPrincipal) (reasonCode : String) (now : DateTime)
      (stamp : Stamp) (case : ReviewCase) (hrole : principal.role.reviews = true)
      (hget : repository.get caseId = some case) (hstate : case.state = .resolved) :
      Commits H repository (.appeal caseId principal reasonCode now stamp)
        (appealedCase case reasonCode now)
        (auditEvent H (repository.audit case.caseId) (appealedCase case reasonCode now) .appealed
          principal.reviewerId (some principal.role) (some .resolved) reasonCode stamp)

variable {H : ReviewHashing} {repository : InMemoryReviewRepository} {call : ReviewCall}
  {case : ReviewCase} {event : ReviewAuditEvent}

/-- **Inversion of a call.** -/
theorem commits_of_plan (h : call.plan H repository = .ok (.commit case event)) :
    call.Commits H repository case event := by
  cases call with
  | enqueue response createdAt updatedAt stamp =>
    have hplan := Except.ok.inj h
    rw [ReviewService.enqueue] at hplan
    split_ifs at hplan with hreview
    split at hplan
    · cases hplan
    · rename_i hfree
      cases hplan
      exact .created response createdAt updatedAt stamp (by simpa using hreview) hfree
  | claim caseId principal now stamp =>
    rw [plan, ReviewService.claim] at h
    split_ifs at h with hrole
    split at h
    · cases h
    · rename_i old hget
      split_ifs at h with hsenior hstate
      cases h
      refine .claimed caseId principal now stamp old (by simpa using hrole) hget ?_ ?_
      · intro hstate'
        by_contra hne
        exact hsenior ⟨hstate', hne⟩
      · by_contra hne
        rw [not_or] at hne
        exact hstate hne
  | decide caseId principal decision reasonCode now stamp =>
    rw [plan, ReviewService.decide] at h
    cases hget : repository.get caseId with
    | none =>
      simp only [hget] at h
      split_ifs at h
    | some old =>
      simp only [hget] at h
      split_ifs at h with hrole hdecision hstate hassigned hsenior
      cases h
      refine .decided caseId principal decision reasonCode now stamp old (by simpa using hrole)
        hdecision hget (not_not.mp hstate) (not_not.mp hassigned) ?_
      intro happeal
      by_contra hne
      exact hsenior ⟨happeal, hne⟩
  | appeal caseId principal reasonCode now stamp =>
    rw [plan, ReviewService.appeal] at h
    split_ifs at h with hrole
    split at h
    · cases h
    · rename_i old hget
      split_ifs at h with hstate
      cases h
      exact .appealed caseId principal reasonCode now stamp old (by simpa using hrole) hget
        (not_not.mp hstate)

theorem perform_error {repository' : InMemoryReviewRepository} {error : ReviewError}
    (h : call.perform H repository = (repository', .error error)) : repository' = repository := by
  rw [perform] at h
  split at h
  · exact (Prod.mk.inj h).1.symm
  · cases h
  · cases h

/-- Only `enqueue` returns without a commit. -/
theorem result_of_plan {found : Option ReviewCase}
    (h : call.plan H repository = .ok (.result found)) :
    ∃ response createdAt updatedAt stamp, call = .enqueue response createdAt updatedAt stamp ∧
      ((requiresReview response = false ∧ found = none) ∨
        ∃ existing, repository.findByRequestId response.requestId = some existing ∧
          found = some existing) := by
  cases call with
  | enqueue response createdAt updatedAt stamp =>
    refine ⟨response, createdAt, updatedAt, stamp, rfl, ?_⟩
    have hplan := Except.ok.inj h
    rw [ReviewService.enqueue] at hplan
    split_ifs at hplan with hreview
    · cases hplan
      exact .inl ⟨by simpa using hreview, rfl⟩
    · split at hplan
      · rename_i existing hfind
        cases hplan
        exact .inr ⟨existing, hfind, rfl⟩
      · cases hplan
  | claim caseId principal now stamp =>
    rw [plan, ReviewService.claim] at h
    split_ifs at h
    split at h
    · cases h
    · split_ifs at h
      cases h
  | decide caseId principal decision reasonCode now stamp =>
    rw [plan, ReviewService.decide] at h
    cases hget : repository.get caseId with
    | none =>
      simp only [hget] at h
      split_ifs at h
    | some old =>
      simp only [hget] at h
      split_ifs at h
      cases h
  | appeal caseId principal reasonCode now stamp =>
    rw [plan, ReviewService.appeal] at h
    split_ifs at h
    split at h
    · cases h
    · split_ifs at h
      cases h

end ReviewCall

/-! ## A sample -/

namespace ReviewSample

/-- A case id: that of `sample-request` under `test-policy-v1`. -/
def caseId : String := "df8cb5ba-e95c-58ad-a980-22791e855856"

def reviewer : ReviewPrincipal := ⟨"reviewer-1", .reviewer⟩

def response : ModerationResponse where
  requestId := "sample-request"
  decision := .review
  riskScore := { num := 1, den := 2 }
  signals := []
  policyVersion := "test-policy-v1"
  evaluatedAt := .utc 2026 9 1 12 0 0 0
  riskScore_mem := by decide

def created : AuditPayload where
  eventId := "5b0f3c52-7d1e-4f0a-9c1d-2e6a8f4b7c01"
  caseId := caseId
  sequence := 1
  action := .created
  actorId := "system"
  actorRole := none
  fromState := none
  toState := .pending
  reasonCode := "automated_review_required"
  occurredAt := .utc 2026 9 1 12 0 1 0
  previousHash := genesisHash
  sequence_pos := by decide

def createdHash : String := "b8cb8a868153ac8a2f1acaf65f3d1217ace79f66f8e9027e36bbf46d9949aa29"

def claimed : AuditPayload where
  eventId := "0c9d6a3e-41b7-4d58-8f2a-6b1e5d7c9a02"
  caseId := caseId
  sequence := 2
  action := .claimed
  actorId := "reviewer-1"
  actorRole := some .reviewer
  fromState := some .pending
  toState := .claimed
  reasonCode := "reviewer_claimed"
  occurredAt := .utc 2026 9 1 12 5 0 0
  previousHash := createdHash
  sequence_pos := by decide

def claimedHash : String := "bc00c5df5f951dd8895a469aa586aada6a8de0f606be52d43f4db7def5819f48"

def decided : AuditPayload where
  eventId := "e27a1b94-3f60-4c8d-a5b9-7d0c4f8e1603"
  caseId := caseId
  sequence := 3
  action := .decided
  actorId := "reviewer-1"
  actorRole := some .reviewer
  fromState := some .claimed
  toState := .resolved
  reasonCode := "confirmed_abuse"
  occurredAt := .utc 2026 9 1 12 10 0 0
  previousHash := claimedHash
  sequence_pos := by decide

def decidedHash : String := "a9555104e3156769b87d236547d79740b2f4a55e3c72fd97411eb4e2bc4a6b2f"

/-- The functions as they are on the sample. Elsewhere they are simple ones without collisions. -/
def hashing : ReviewHashing where
  uuid5 name :=
    if name = "sentinel-review:sample-request:test-policy-v1" then caseId else "u" ++ name
  sha256 := Equiv.swap (String.ofList created.json.dumps) createdHash ∘
    Equiv.swap (String.ofList claimed.json.dumps) claimedHash ∘
    Equiv.swap (String.ofList decided.json.dumps) decidedHash

/-- The calls of the sample run: the response is enqueued, claimed and decided. -/
def calls : List ReviewCall :=
  [.enqueue response response.evaluatedAt response.evaluatedAt
      ⟨created.eventId, created.occurredAt⟩,
    .claim caseId reviewer claimed.occurredAt ⟨claimed.eventId, claimed.occurredAt⟩,
    .decide caseId reviewer .block "confirmed_abuse" decided.occurredAt
      ⟨decided.eventId, decided.occurredAt⟩]

def resolved : ReviewCase :=
  resolvedCase (claimedCase (createdCase hashing response response.evaluatedAt
    response.evaluatedAt) reviewer claimed.occurredAt) .block "confirmed_abuse" decided.occurredAt

theorem sha256_injective : Function.Injective hashing.sha256 :=
  (Equiv.swap _ _).injective.comp ((Equiv.swap _ _).injective.comp (Equiv.swap _ _).injective)

end ReviewSample

end Sentinel
