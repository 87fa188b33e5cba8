import Sentinel.Review.Auth
import Sentinel.Review.Reading
import Sentinel.Review.Session

/-!
# The endpoints of the human review

The handlers of the review endpoints and the end of the two moderation endpoints, where a response
goes to the review queue. A handler runs without being interrupted once it has its principal, so a
request is one step over the repository and the metrics. It is answered, with an error where the
service raises one that the handler translates. An error that it does not translate is `raised`:
above all the `OSError` of a ledger that cannot be appended to, which changes neither the repository
nor the counters of the reviews.

What a request asks of the service is a `ReviewCall`, and which one does not depend on the state.
So a run of requests is a run of the service, of the calls whose appends succeed, and all that is
known of the service's runs holds here. It starts from the repository that the service has replayed
from its ledger.
-/

namespace Sentinel

open Collections InMemoryReviewRepository Text Transition

/-! ## Requests -/

def isReasonCode (text : String) : Bool :=
  match text.toList with
  | [] => false
  | c :: rest =>
    ('a' ≤ c && c ≤ 'z') && 2 ≤ rest.length && rest.length ≤ 63 &&
      rest.all fun d ↦ ('a' ≤ d && d ≤ 'z') || ('0' ≤ d && d ≤ '9') || d == '_'

/-- The part of a request to the review endpoints that the handlers read, with the readings of the
clock and of `uuid4` that the service will make, and how an append to the ledger will end. -/
inductive ReviewRequest
  /-- The end of a moderation endpoint, which has its response from the engine. -/
  | moderated (path : String) (response : ModerationResponse) (createdAt updatedAt : DateTime)
      (stamp : Stamp) (append : Append)
  | exportReviewFeedback (authorization : String) (now : DateTime)
  | listReviewCases (authorization : String) (state : Option ReviewState)
  | getReviewCase (authorization : String) (caseId : String)
  | claimReviewCase (authorization : String) (caseId : String) (now : DateTime) (stamp : Stamp)
      (append : Append)
  | decideReviewCase (authorization : String) (caseId : String) (decision : Decision)
      (reasonCode : String) (now : DateTime) (stamp : Stamp) (append : Append)
  | appealReviewCase (authorization : String) (caseId : String) (reasonCode : String)
      (now : DateTime) (stamp : Stamp) (append : Append)
  | getReviewAudit (authorization : String) (caseId : String)

/-- How the append of the request ends; one that appends nothing has none that fails. -/
def ReviewRequest.append : ReviewRequest → Append
  | .moderated _ _ _ _ _ append | .claimReviewCase _ _ _ _ append
  | .decideReviewCase _ _ _ _ _ _ append | .appealReviewCase _ _ _ _ _ append => append
  | .exportReviewFeedback .. | .listReviewCases .. | .getReviewCase .. | .getReviewAudit .. => .done

inductive ReviewBody
  | response (response : ModerationResponse)
  | case (case : Option ReviewCase)
  | cases (cases : List ReviewCase)
  | events (events : List ReviewAuditEvent)
  | feedback (feedback : FeedbackExport)

/-- How a request ends. -/
inductive ReviewAnswer
  | ok (body : ReviewBody)
  /-- `HTTPException`. -/
  | httpError (statusCode : ℕ) (detail : String)
  /-- The body of the request does not validate, status 422. -/
  | unprocessable
  /-- Another exception. -/
  | raised (error : ServiceError)

/-- The statuses of the errors that the handlers raise. -/
def errorStatuses : List ℕ := [401, 403, 404, 409, 503]

/-- The answer is an error of the client's or of the configuration. -/
def ReviewAnswer.Translated (answer : ReviewAnswer) : Prop :=
  answer = .unprocessable ∨
    ∃ statusCode ∈ errorStatuses, ∃ detail, answer = .httpError statusCode detail

/-- `str(error)`. -/
def ReviewError.message : ReviewError → String
  | .notFound message | .conflict message | .authorization message => message

/-- `_translate`. -/
def translate : ReviewError → ReviewAnswer
  | .notFound message => .httpError 404 message
  | .conflict message => .httpError 409 message
  | .authorization message => .httpError 403 message

/-- `except (ReviewAuthorizationError, ReviewNotFoundError)`. -/
def ReviewAnswer.ofReadError : ReviewError → ReviewAnswer
  | .conflict message => .raised (.review (.conflict message))
  | error => translate error

/-- `except ReviewAuthorizationError`. -/
def ReviewAnswer.ofListError : ReviewError → ReviewAnswer
  | .authorization message => translate (.authorization message)
  | error => .raised (.review error)

def ReviewCall.metric : ReviewCall → String
  | .enqueue .. => "enqueued"
  | .claim .. => "claimed"
  | .decide .. => "decided"
  | .appeal .. => "appealed"

/-! ## The state -/

/-- What the handlers find in `app.state` and in the libraries. -/
structure ReviewComponents where
  hashing : ReviewHashing
  /-- `str.lower`. -/
  lower : String → String
  /-- What `str_strip_whitespace` strips. -/
  isWhitespace : Char → Bool
  /-- The service and the authorizer, if the review is enabled. -/
  authorizer : Option ReviewAuthorizer

structure ReviewApi where
  repository : InMemoryReviewRepository
  /-- `sentinel_moderation_decisions_total`. -/
  decisions : List (Decision × String)
  /-- `sentinel_review_events_total`. -/
  reviewEvents : List (String × String)
  /-- `sentinel_review_backlog`, once it has been set. -/
  reviewBacklog : Option (ReviewState → ℕ)
  /-- `sentinel_review_resolution_duration_seconds`, in microseconds. -/
  resolutionDurations : List ℤ

namespace ReviewApi

/-- The service as it starts, over the repository that it has replayed. -/
def starting (repository : InMemoryReviewRepository) : ReviewApi := ⟨repository, [], [], none, []⟩

/-- `record_review_event`. -/
def recordReviewEvent (api : ReviewApi) (action outcome : String) : ReviewApi :=
  { api with reviewEvents := api.reviewEvents ++ [(action, outcome)] }

/-- The loop over `service.backlog()`. -/
def setBacklog (api : ReviewApi) : ReviewApi :=
  { api with reviewBacklog := some (ReviewService.backlog api.repository) }

/-- `_refresh_backlog`. -/
def refreshBacklog (api : ReviewApi) (principal : ReviewPrincipal) : Except ReviewError ReviewApi :=
  match ReviewService.listCases api.repository principal none with
  | .error error => .error error
  | .ok _ => .ok api.setBacklog

end ReviewApi

namespace ReviewComponents

variable (components : ReviewComponents) (api : ReviewApi)

/-- `_principal`, up to the token. -/
def bearerToken (authorization : String) : Option String :=
  let scheme := authorization.toList.takeWhile (· ≠ ' ')
  match authorization.toList.dropWhile (· ≠ ' ') with
  | [] => none
  | _ :: token =>
    if components.lower (String.ofList scheme) ≠ "bearer" ∨ token = [] then none
    else some (String.ofList token)

/-- `_principal`. -/
def principal (authorizer : ReviewAuthorizer) (authorization : String) :
    Except ReviewAnswer ReviewPrincipal :=
  match components.bearerToken authorization with
  | none => .error (.httpError 401 "reviewer bearer token is required")
  | some token =>
    match authorizer.authenticate components.hashing.sha256 token with
    | .error error => .error (.httpError 401 error.message)
    | .ok principal => .ok principal

/-- `_components` and `_principal`. -/
def authenticated (authorization : String) : Except ReviewAnswer ReviewPrincipal :=
  match components.authorizer with
  | none => .error (.httpError 503 "human review is not enabled")
  | some authorizer => components.principal authorizer authorization

def withPrincipal (authorization : String)
    (handler : ReviewPrincipal → ReviewApi × ReviewAnswer) : ReviewApi × ReviewAnswer :=
  match components.authenticated authorization with
  | .error answer => (api, answer)
  | .ok principal => handler principal

def readReasonCode (raw : String) : Option String :=
  let text := String.ofList
    ((raw.toList.dropWhile components.isWhitespace).rdropWhile components.isWhitespace)
  if isReasonCode text then some text else none

/-- The part that the handlers of claims, decisions and appeals share. `observe` is what the handler
does with the case in the end. -/
def change (principal : ReviewPrincipal) (action : String) (call : ReviewCall) (append : Append)
    (observe : Option ReviewCase → ReviewApi → ReviewApi) : ReviewApi × ReviewAnswer :=
  match call.performLogged components.hashing api.repository append with
  | (_, .error (.review error)) => (api.recordReviewEvent action "failed", translate error)
  | (_, .error .osError) => (api, .raised .osError)
  | (repository, .ok case) =>
    match { api with repository }.refreshBacklog principal with
    | .error error =>
      ({ api with repository }.recordReviewEvent action "failed", translate error)
    | .ok api => (observe case (api.recordReviewEvent action "success"), .ok (.case case))

/-- `review_resolution_duration.observe`. -/
def observeResolution (case : Option ReviewCase) (api : ReviewApi) : ReviewApi :=
  match case with
  | some case =>
    match case.resolvedAt with
    | some resolvedAt =>
      { api with resolutionDurations := api.resolutionDurations
          ++ [resolvedAt.instant - case.createdAt.instant] }
    | none => api
  | none => api

/-! ## The handlers -/

/-- `moderate_text` and `moderate_multimodal`, from the response on. -/
def moderated (path : String) (response : ModerationResponse) (createdAt updatedAt : DateTime)
    (stamp : Stamp) (append : Append) : ReviewApi × ReviewAnswer :=
  let api := { api with decisions := api.decisions ++ [(response.decision, path)] }
  if components.authorizer = none then (api, .ok (.response response))
  else
    match (ReviewCall.enqueue response createdAt updatedAt stamp).performLogged components.hashing
        api.repository append with
    | (_, .error error) => (api, .raised error)
    | (_, .ok none) => (api, .ok (.response response))
    | (repository, .ok (some _)) =>
      (({ api with repository }.recordReviewEvent "enqueued" "success").setBacklog,
        .ok (.response response))

/-- `export_review_feedback`. -/
def exportReviewFeedback (authorization : String) (now : DateTime) : ReviewApi × ReviewAnswer :=
  components.withPrincipal api authorization fun principal ↦
    match ReviewService.exportFeedback api.repository principal now with
    | .error error => (api, translate error)
    | .ok feedback =>
      (api.recordReviewEvent "feedback_exported" "success", .ok (.feedback feedback))

/-- `list_review_cases`. -/
def listReviewCases (authorization : String) (state : Option ReviewState) :
    ReviewApi × ReviewAnswer :=
  components.withPrincipal api authorization fun principal ↦
    match ReviewService.listCases api.repository principal state with
    | .error error => (api, .ofListError error)
    | .ok cases =>
      match api.refreshBacklog principal with
      | .error error => (api, .ofListError error)
      | .ok api => (api, .ok (.cases cases))

/-- `get_review_case`. -/
def getReviewCase (authorization caseId : String) : ReviewApi × ReviewAnswer :=
  components.withPrincipal api authorization fun principal ↦
    match ReviewService.get api.repository caseId principal with
    | .error error => (api, .ofReadError error)
    | .ok case => (api, .ok (.case (some case)))

/-- `claim_review_case`. -/
def claimReviewCase (authorization caseId : String) (now : DateTime) (stamp : Stamp)
    (append : Append) : ReviewApi × ReviewAnswer :=
  components.withPrincipal api authorization fun principal ↦
    components.change api principal "claimed" (.claim caseId principal now stamp) append
      fun _ api ↦ api

/-- `decide_review_case`. -/
def decideReviewCase (authorization caseId : String) (decision : Decision) (reasonCode : String)
    (now : DateTime) (stamp : Stamp) (append : Append) : ReviewApi × ReviewAnswer :=
  match components.readReasonCode reasonCode with
  | none => (api, .unprocessable)
  | some reasonCode =>
    components.withPrincipal api authorization fun principal ↦
      components.change api principal "decided"
        (.decide caseId principal decision reasonCode now stamp) append observeResolution

/-- `appeal_review_case`. -/
def appealReviewCase (authorization caseId : String) (reasonCode : String) (now : DateTime)
    (stamp : Stamp) (append : Append) : ReviewApi × ReviewAnswer :=
  match components.readReasonCode reasonCode with
  | none => (api, .unprocessable)
  | some reasonCode =>
    components.withPrincipal api authorization fun principal ↦
      components.change api principal "appealed" (.appeal caseId principal reasonCode now stamp)
        append fun _ api ↦ api

/-- `get_review_audit`. -/
def getReviewAudit (authorization caseId : String) : ReviewApi × ReviewAnswer :=
  components.withPrincipal api authorization fun principal ↦
    match ReviewService.audit api.repository caseId principal with
    | .error error => (api, .ofReadError error)
    | .ok events => (api, .ok (.events events))

def handle : ReviewRequest → ReviewApi × ReviewAnswer
  | .moderated path response createdAt updatedAt stamp append =>
    components.moderated api path response createdAt updatedAt stamp append
  | .exportReviewFeedback authorization now => components.exportReviewFeedback api authorization now
  | .listReviewCases authorization state => components.listReviewCases api authorization state
  | .getReviewCase authorization caseId => components.getReviewCase api authorization caseId
  | .claimReviewCase authorization caseId now stamp append =>
    components.claimReviewCase api authorization caseId now stamp append
  | .decideReviewCase authorization caseId decision reasonCode now stamp append =>
    components.decideReviewCase api authorization caseId decision reasonCode now stamp append
  | .appealReviewCase authorization caseId reasonCode now stamp append =>
    components.appealReviewCase api authorization caseId reasonCode now stamp append
  | .getReviewAudit authorization caseId => components.getReviewAudit api authorization caseId

def step (api : ReviewApi) (request : ReviewRequest) : Option ReviewApi :=
  some (components.handle api request).1

/-! ## What a request asks of the service -/

/-- The call that a request comes to. It is a matter of the request alone. -/
def callOf : ReviewRequest → Option ReviewCall
  | .moderated _ response createdAt updatedAt stamp _ =>
    if components.authorizer = none then none
    else some (.enqueue response createdAt updatedAt stamp)
  | .claimReviewCase authorization caseId now stamp _ =>
    (components.authenticated authorization).toOption.map fun principal ↦
      .claim caseId principal now stamp
  | .decideReviewCase authorization caseId decision reasonCode now stamp _ =>
    (components.readReasonCode reasonCode).bind fun reasonCode ↦
      (components.authenticated authorization).toOption.map fun principal ↦
        .decide caseId principal decision reasonCode now stamp
  | .appealReviewCase authorization caseId reasonCode now stamp _ =>
    (components.readReasonCode reasonCode).bind fun reasonCode ↦
      (components.authenticated authorization).toOption.map fun principal ↦
        .appeal caseId principal reasonCode now stamp
  | _ => none

/-- The call of a request whose append succeeds. -/
def loggedCall (request : ReviewRequest) : Option ReviewCall :=
  if request.append = .done then components.callOf request else none

/-! ## What a request does -/

variable {components} {api} {append : Append}

/-- What the handlers do with the call that a request comes to. -/
inductive Handled (components : ReviewComponents) (api : ReviewApi) (append : Append) :
    Option ReviewCall → ReviewApi × ReviewAnswer → Prop
  /-- There is no call, and an error. -/
  | rejected (answer : ReviewAnswer) (hanswer : answer.Translated) :
      Handled components api append none (api, answer)
  /-- There is no call, and the metrics know nothing new of the queue. -/
  | read (api' : ReviewApi) (body : ReviewBody) (hrepository : api'.repository = api.repository)
      (hbacklog : api'.reviewBacklog = api.reviewBacklog ∨
        api'.reviewBacklog = some (ReviewService.backlog api.repository))
      (hevents : api'.reviewEvents = api.reviewEvents ∨
        api'.reviewEvents = api.reviewEvents ++ [("feedback_exported", "success")])
      (hdurations : api'.resolutionDurations = api.resolutionDurations) :
      Handled components api append none (api', .ok body)
  /-- The service raises. -/
  | failed (call : ReviewCall) (error : ReviewError)
      (hplan : call.plan components.hashing api.repository = .error error) :
      Handled components api append (some call) (api.recordReviewEvent call.metric "failed",
        translate error)
  /-- A response that need not be reviewed, or has been queued before. -/
  | passed (call : ReviewCall) (found : Option ReviewCase)
      (hplan : call.plan components.hashing api.repository = .ok (.result found))
      (api' : ReviewApi) (body : ReviewBody) (hrepository : api'.repository = api.repository)
      (hbacklog : api'.reviewBacklog = api.reviewBacklog ∨
        api'.reviewBacklog = some (ReviewService.backlog api.repository))
      (hevents : api'.reviewEvents = api.reviewEvents ∨
        api'.reviewEvents = api.reviewEvents ++ [("enqueued", "success")])
      (hdurations : api'.resolutionDurations = api.resolutionDurations) :
      Handled components api append (some call) (api', .ok body)
  /-- The ledger cannot be appended to. Only a decision has been counted by then. -/
  | unlogged (call : ReviewCall) (case : ReviewCase) (event : ReviewAuditEvent)
      (hplan : call.plan components.hashing api.repository = .ok (.commit case event))
      (happend : append ≠ .done) (decisions : List (Decision × String)) :
      Handled components api append (some call) ({ api with decisions }, .raised .osError)
  /-- The service commits. -/
  | committed (call : ReviewCall) (case : ReviewCase) (event : ReviewAuditEvent)
      (happend : append = .done)
      (hplan : call.plan components.hashing api.repository = .ok (.commit case event))
      (api' : ReviewApi) (body : ReviewBody)
      (hrepository : api'.repository = api.repository.commit case event)
      (hbacklog : api'.reviewBacklog = some (ReviewService.backlog api'.repository))
      (hevents : api'.reviewEvents = api.reviewEvents ++ [(call.metric, "success")])
      (hdurations : api'.resolutionDurations.length = api.resolutionDurations.length
        + if call.metric = "decided" then 1 else 0) :
      Handled components api append (some call) (api', .ok body)

theorem refreshBacklog_eq (api : ReviewApi) (principal : ReviewPrincipal) :
    api.refreshBacklog principal = .ok api.setBacklog := by
  rw [ReviewApi.refreshBacklog, ReviewService.listCases, principal.role.reads_eq_true]
  rfl

theorem translated_httpError {statusCode : ℕ} (h : statusCode ∈ errorStatuses) (detail : String) :
    (ReviewAnswer.httpError statusCode detail).Translated :=
  .inr ⟨statusCode, h, detail, rfl⟩

theorem translated_translate (error : ReviewError) : (translate error).Translated := by
  cases error <;> exact translated_httpError (by decide) _

theorem translated_of_authenticated {authorization : String} {answer : ReviewAnswer}
    (h : components.authenticated authorization = .error answer) : answer.Translated := by
  rw [authenticated] at h
  split at h
  · cases h
    exact translated_httpError (by decide) _
  · rw [ReviewComponents.principal] at h
    split at h
    · cases h
      exact translated_httpError (by decide) _
    · split at h
      · cases h
        exact translated_httpError (by decide) _
      · cases h

theorem handled_withPrincipal {authorization : String}
    {handler : ReviewPrincipal → ReviewApi × ReviewAnswer} {call : ReviewPrincipal → ReviewCall}
    (h : ∀ principal, Handled components api append (some (call principal)) (handler principal)) :
    Handled components api append ((components.authenticated authorization).toOption.map call)
      (components.withPrincipal api authorization handler) := by
  rw [withPrincipal]
  cases hprincipal : components.authenticated authorization with
  | error answer => exact .rejected answer (translated_of_authenticated hprincipal)
  | ok principal => exact h principal

theorem handled_withPrincipal_read {authorization : String}
    {handler : ReviewPrincipal → ReviewApi × ReviewAnswer}
    (h : ∀ principal, Handled components api append none (handler principal)) :
    Handled components api append none (components.withPrincipal api authorization handler) := by
  rw [withPrincipal]
  cases hprincipal : components.authenticated authorization with
  | error answer => exact .rejected answer (translated_of_authenticated hprincipal)
  | ok principal => exact h principal

theorem handled_change {principal : ReviewPrincipal} {call : ReviewCall}
    {observe : Option ReviewCase → ReviewApi → ReviewApi}
    (hcall : ∀ response createdAt updatedAt stamp,
      call ≠ .enqueue response createdAt updatedAt stamp)
    (hobserve : ∀ case event api',
      call.plan components.hashing api.repository = .ok (.commit case event) →
      (observe (some case) api').repository = api'.repository ∧
        (observe (some case) api').reviewBacklog = api'.reviewBacklog ∧
        (observe (some case) api').reviewEvents = api'.reviewEvents ∧
        (observe (some case) api').resolutionDurations.length = api'.resolutionDurations.length
          + if call.metric = "decided" then 1 else 0) :
    Handled components api append (some call)
      (components.change api principal call.metric call append observe) := by
  rw [change, ReviewCall.performLogged]
  cases hplan : call.plan components.hashing api.repository with
  | error error => exact .failed call error hplan
  | ok plan =>
    cases plan with
    | result found =>
      obtain ⟨response, createdAt, updatedAt, stamp, rfl, -⟩ := ReviewCall.result_of_plan hplan
      exact absurd rfl (hcall response createdAt updatedAt stamp)
    | commit case event =>
      by_cases happend : append = .done
      · simp only [if_pos happend, refreshBacklog_eq]
        obtain ⟨hrepository, hbacklog, hevents, hdurations⟩ := hobserve case event
          ((ReviewApi.setBacklog { api with repository := api.repository.commit case event }
            ).recordReviewEvent call.metric "success") hplan
        refine .committed call case event happend hplan _ _ hrepository ?_ hevents hdurations
        rw [hbacklog, hrepository]
        rfl
      · simp only [if_neg happend]
        exact .unlogged call case event hplan happend api.decisions

theorem resolvedAt_of_decide {caseId : String} {principal : ReviewPrincipal} {decision : Decision}
    {reasonCode : String} {now : DateTime} {stamp : Stamp} {case : ReviewCase}
    {event : ReviewAuditEvent}
    (h : (ReviewCall.decide caseId principal decision reasonCode now stamp).plan components.hashing
      api.repository = .ok (.commit case event)) : case.resolvedAt = some now := by
  cases ReviewCall.commits_of_plan h
  rfl

/-- **What a request does**, by the call that it comes to. -/
theorem handled (components : ReviewComponents) (api : ReviewApi) (request : ReviewRequest) :
    Handled components api request.append (components.callOf request)
      (components.handle api request) := by
  cases request with
  | moderated path response createdAt updatedAt stamp append =>
    rw [handle, callOf, moderated]
    by_cases hnone : components.authorizer = none
    · rw [if_pos hnone, if_pos hnone]
      exact .read _ _ rfl (.inl rfl) (.inl rfl) rfl
    · rw [if_neg hnone, if_neg hnone, ReviewCall.performLogged]
      cases hplan : (ReviewCall.enqueue response createdAt updatedAt stamp).plan components.hashing
          api.repository with
      | error error => cases hplan
      | ok plan =>
        cases plan with
        | result found =>
          cases found with
          | none => exact .passed _ none hplan _ _ rfl (.inl rfl) (.inl rfl) rfl
          | some existing => exact .passed _ _ hplan _ _ rfl (.inr rfl) (.inr rfl) rfl
        | commit case event =>
          by_cases happend : append = .done
          · simp only [if_pos happend]
            exact .committed _ case event happend hplan _ _ rfl rfl rfl rfl
          · simp only [if_neg happend]
            exact .unlogged _ case event hplan happend _
  | exportReviewFeedback authorization now =>
    refine handled_withPrincipal_read fun principal ↦ ?_
    rcases ReviewService.exportFeedback api.repository principal now with error | feedback
    · exact .rejected _ (translated_translate error)
    · exact .read _ _ rfl (.inl rfl) (.inr rfl) rfl
  | listReviewCases authorization state =>
    refine handled_withPrincipal_read fun principal ↦ ?_
    have hlist : ReviewService.listCases api.repository principal state
        = .ok (api.repository.listCases state) := by
      rw [ReviewService.listCases, principal.role.reads_eq_true]
      rfl
    simp only [hlist, refreshBacklog_eq]
    exact .read _ _ rfl (.inr rfl) (.inl rfl) rfl
  | getReviewCase authorization caseId =>
    refine handled_withPrincipal_read fun principal ↦ ?_
    rw [ReviewService.get, principal.role.reads_eq_true]
    cases api.repository.get caseId with
    | none => exact .rejected _ (translated_httpError (by decide) _)
    | some case => exact .read _ _ rfl (.inl rfl) (.inl rfl) rfl
  | claimReviewCase authorization caseId now stamp append =>
    exact handled_withPrincipal fun principal ↦
      handled_change (fun _ _ _ _ ↦ ReviewCall.noConfusion) fun _ _ _ _ ↦ ⟨rfl, rfl, rfl, rfl⟩
  | decideReviewCase authorization caseId decision reasonCode now stamp append =>
    rw [handle, callOf, decideReviewCase]
    cases components.readReasonCode reasonCode with
    | none => exact .rejected _ (.inl rfl)
    | some reasonCode =>
      refine handled_withPrincipal fun principal ↦
        handled_change (fun _ _ _ _ ↦ ReviewCall.noConfusion) fun case event api' hplan ↦ ?_
      rw [observeResolution, resolvedAt_of_decide hplan]
      exact ⟨rfl, rfl, rfl, List.length_append⟩
  | appealReviewCase authorization caseId reasonCode now stamp append =>
    rw [handle, callOf, appealReviewCase]
    cases components.readReasonCode reasonCode with
    | none => exact .rejected _ (.inl rfl)
    | some reasonCode =>
      exact handled_withPrincipal fun principal ↦
        handled_change (fun _ _ _ _ ↦ ReviewCall.noConfusion) fun _ _ _ _ ↦ ⟨rfl, rfl, rfl, rfl⟩
  | getReviewAudit authorization caseId =>
    refine handled_withPrincipal_read fun principal ↦ ?_
    rw [ReviewService.audit, principal.role.reads_eq_true]
    cases api.repository.get caseId with
    | none => exact .rejected _ (translated_httpError (by decide) _)
    | some case => exact .read _ _ rfl (.inl rfl) (.inl rfl) rfl

end ReviewComponents

end Sentinel
