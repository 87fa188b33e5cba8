import Sentinel.Api.Reviews
import Sentinel.Collections.Traversal

/-!
# Every human event has its request

An event of an audit log names its actor. At the service the actor is an argument; at the endpoints
it comes from a bearer token. So whatever ledger the service has started from, and whatever has been
asked for and refused since, each event that has come to a log since then and is not the system's
own stands for a request of its own: one with a token of that reviewer, to the endpoint of that
action, for that case and with that reason.

The requests of a run are one run of the service, of the calls that they come to. What each call
leaves behind is seen at the service, and the calls are traced back to their requests. Nothing is
assumed of the events that were there at the start; the cases are kept under their own ids whatever
the ledger says.
-/

namespace Sentinel

open Collections InMemoryReviewRepository Text Transition

variable {H : ReviewHashing} {start repository : InMemoryReviewRepository}

/-! ## Cases under their ids -/

def Keyed (repository : InMemoryReviewRepository) : Prop :=
  ∀ caseId case, repository.get caseId = some case → case.caseId = caseId

theorem keyed_empty : Keyed empty := fun _ _ h ↦ by cases h

theorem Keyed.commit (h : Keyed repository) (case : ReviewCase) (event : ReviewAuditEvent) :
    Keyed (repository.commit case event) := by
  intro caseId found hget
  by_cases hcase : caseId = case.caseId
  · subst hcase
    rw [get_commit_self] at hget
    rw [Option.some_inj.mp hget]
  · rw [get_commit_of_ne hcase] at hget
    exact h caseId found hget

theorem keyed_of_replay {schema : LedgerSchema} {lines : List (List Char)} {lineNumber : ℕ}
    (hstart : Keyed start) (h : replay schema H lineNumber start lines = .ok repository) :
    Keyed repository := by
  induction lines generalizing lineNumber start with
  | nil =>
    cases h
    exact hstart
  | cons line lines ih =>
    rw [replay] at h
    cases hline : replayLine schema H lineNumber start line with
    | error error =>
      rw [hline] at h
      cases h
    | ok memory =>
      rw [hline] at h
      refine ih ?_ h
      rw [replayLine] at hline
      split_ifs at hline
      · cases hline
        exact hstart
      · split at hline
        · cases hline
        · split_ifs at hline
          cases hline
          exact hstart.commit _ _

theorem keyed_of_openLedger {schema : LedgerSchema} {file : Option (List Char)}
    (h : openLedger schema H file = .ok repository) : Keyed repository := by
  cases file with
  | none =>
    cases h
    exact keyed_empty
  | some text => exact keyed_of_replay keyed_empty h

/-! ## Calls and events -/

def ReviewCall.Asks (H : ReviewHashing) (event : ReviewAuditEvent) : ReviewCall → Prop
  | .enqueue response _ _ _ => event.action = .created ∧ requiresReview response = true ∧
      event.caseId = caseIdOf H response.requestId response.policyVersion ∧
      event.actorId = "system" ∧ event.actorRole = none ∧
      event.reasonCode = "automated_review_required"
  | .claim caseId principal _ _ => event.action = .claimed ∧ event.caseId = caseId ∧
      event.actorId = principal.reviewerId ∧ event.actorRole = some principal.role ∧
      event.reasonCode = "reviewer_claimed"
  | .decide caseId principal _ reasonCode _ _ => event.action.Decides ∧ event.caseId = caseId ∧
      event.actorId = principal.reviewerId ∧ event.actorRole = some principal.role ∧
      event.reasonCode = reasonCode
  | .appeal caseId principal reasonCode _ _ => event.action = .appealed ∧ event.caseId = caseId ∧
      event.actorId = principal.reviewerId ∧ event.actorRole = some principal.role ∧
      event.reasonCode = reasonCode

theorem decides_decisionAction (events : List ReviewAuditEvent) :
    (decisionAction events).Decides := by
  rw [decisionAction]
  split_ifs
  · exact .inr rfl
  · exact .inl rfl

theorem Keyed.asks (h : Keyed repository) {call : ReviewCall} {case : ReviewCase}
    {event : ReviewAuditEvent} (hc : call.Commits H repository case event) : call.Asks H event := by
  cases hc with
  | created response createdAt updatedAt stamp hreview => exact ⟨rfl, hreview, rfl, rfl, rfl, rfl⟩
  | claimed caseId principal now stamp old hrole hget =>
    exact ⟨rfl, h caseId old hget, rfl, rfl, rfl⟩
  | decided caseId principal decision reasonCode now stamp old hrole hdecision hget =>
    exact ⟨decides_decisionAction _, h caseId old hget, rfl, rfl, rfl⟩
  | appealed caseId principal reasonCode now stamp old hrole hget =>
    exact ⟨rfl, h caseId old hget, rfl, rfl, rfl⟩

/-- What has come to a log since the start, and calls that have asked for it one by one. -/
def Traced (H : ReviewHashing) (start repository : InMemoryReviewRepository)
    (calls : List ReviewCall) (caseId : String) : Prop :=
  ∃ added asked, repository.audit caseId = start.audit caseId ++ added ∧
    asked.Sublist calls ∧ List.Forall₂ (fun event call ↦ call.Asks H event) added asked

theorem Traced.concat {calls : List ReviewCall} {caseId : String}
    (h : Traced H start repository calls caseId) (hkeyed : Keyed repository) (call : ReviewCall) :
    Traced H start (call.perform H repository).1 (calls ++ [call]) caseId := by
  obtain ⟨added, asked, haudit, hsublist, hasks⟩ := h
  have hlonger : asked.Sublist (calls ++ [call]) :=
    hsublist.trans (List.sublist_append_left _ _)
  rw [ReviewCall.perform]
  split
  · exact ⟨added, asked, haudit, hlonger, hasks⟩
  · exact ⟨added, asked, haudit, hlonger, hasks⟩
  · rename_i case event hplan
    by_cases hcase : caseId = case.caseId
    · subst hcase
      refine ⟨added ++ [event], asked ++ [call], ?_, hsublist.append (List.Sublist.refl _), ?_⟩
      · rw [audit_commit_self, haudit, List.append_assoc]
      · exact List.rel_append hasks
          (.cons (hkeyed.asks (ReviewCall.commits_of_plan hplan)) .nil)
    · refine ⟨added, asked, ?_, hlonger, hasks⟩
      rw [audit_commit_of_ne hcase, haudit]

theorem Keyed.perform (h : Keyed repository) (call : ReviewCall) :
    Keyed (call.perform H repository).1 := by
  rw [ReviewCall.perform]
  split
  · exact h
  · exact h
  · exact h.commit _ _

/-- **Every event has been asked for.** -/
theorem traced_of_run (hstart : Keyed start) {calls : List ReviewCall}
    (hrun : run (ReviewCall.step H) start calls = some repository) (caseId : String) :
    Traced H start repository calls caseId := by
  have hboth : Keyed repository ∧ Traced H start repository calls caseId := by
    refine run_history (P := fun calls repository ↦ Keyed repository ∧
      Traced H start repository calls caseId)
      ⟨hstart, [], [], (List.append_nil _).symm, List.Sublist.refl _, .nil⟩ ?_ hrun
    rintro calls repository _ call - ⟨hkeyed, htraced⟩ ⟨⟩
    exact ⟨hkeyed.perform call, htraced.concat hkeyed call⟩
  exact hboth.2

/-! ## Requests and calls -/

namespace ReviewComponents

variable {components : ReviewComponents} {api api' : ReviewApi} {requests : List ReviewRequest}

/-- The repository after a request is that after its call, if the append succeeds. -/
theorem repository_handle (components : ReviewComponents) (api : ReviewApi)
    (request : ReviewRequest) : (components.handle api request).1.repository
      = ((components.loggedCall request).map fun call ↦
        (call.perform components.hashing api.repository).1).getD api.repository := by
  have hhandled := components.handled api request
  rw [loggedCall]
  generalize components.callOf request = call at hhandled
  generalize components.handle api request = result at hhandled
  generalize request.append = append at hhandled
  cases hhandled with
  | rejected => split_ifs <;> rfl
  | read api' body hrepository =>
    rw [ite_self]
    exact hrepository
  | failed call error hplan =>
    split_ifs
    · rw [Option.map_some, Option.getD_some, ReviewCall.perform, hplan]
      rfl
    · rfl
  | passed call found hplan api' body hrepository =>
    split_ifs
    · rw [Option.map_some, Option.getD_some, ReviewCall.perform, hplan]
      exact hrepository
    · exact hrepository
  | unlogged call case event hplan happend decisions =>
    rw [if_neg happend]
    rfl
  | committed call case event happend hplan api' body hrepository =>
    rw [if_pos happend, Option.map_some, Option.getD_some, ReviewCall.perform, hplan]
    exact hrepository

/-- **A run of requests is a run of the service.** -/
theorem run_calls {start : InMemoryReviewRepository}
    (hrun : run components.step (.starting start) requests = some api) :
    run (ReviewCall.step components.hashing) start (requests.filterMap components.loggedCall)
      = some api.repository := by
  refine run_history (P := fun requests api ↦ run (ReviewCall.step components.hashing) start
    (requests.filterMap components.loggedCall) = some api.repository) rfl ?_ hrun
  intro requests api api' request _ ih hstep
  obtain rfl := Option.some_inj.mp hstep
  rw [repository_handle, List.filterMap_append]
  cases hcall : components.loggedCall request with
  | none =>
    rw [List.filterMap_cons_none hcall, List.filterMap_nil, List.append_nil]
    exact ih
  | some call =>
    rw [List.filterMap_cons_some hcall, List.filterMap_nil]
    exact run_concat_eq_some.mpr ⟨_, ih, rfl⟩

/-- The bearer of a token of the request. -/
def Bears (components : ReviewComponents) (authorization : String) (principal : ReviewPrincipal) :
    Prop :=
  ∃ authorizer token, components.authorizer = some authorizer ∧
    components.bearerToken authorization = some token ∧
    authorizer.authenticate components.hashing.sha256 token = .ok principal

theorem bears_of_authenticated {authorization : String} {principal : ReviewPrincipal}
    (h : components.authenticated authorization = .ok principal) :
    components.Bears authorization principal := by
  rw [authenticated] at h
  split at h
  · cases h
  · rename_i authorizer hauthorizer
    rw [ReviewComponents.principal] at h
    split at h
    · cases h
    · rename_i token htoken
      split at h
      · cases h
      · rename_i found hfound
        cases h
        exact ⟨authorizer, token, hauthorizer, htoken, hfound⟩

end ReviewComponents

/-- The request asks for the event, with a token of its actor where it has one. -/
def ReviewRequest.Asks (components : ReviewComponents) (event : ReviewAuditEvent) :
    ReviewRequest → Prop
  | .moderated _ response _ _ _ _ => event.action = .created ∧ requiresReview response = true ∧
      event.caseId = caseIdOf components.hashing response.requestId response.policyVersion ∧
      event.actorId = "system" ∧ event.actorRole = none
  | .claimReviewCase authorization caseId _ _ _ => event.action = .claimed ∧ event.caseId = caseId ∧
      ∃ role, event.actorRole = some role ∧ components.Bears authorization ⟨event.actorId, role⟩
  | .decideReviewCase authorization caseId _ reasonCode _ _ _ => event.action.Decides ∧
      event.caseId = caseId ∧ components.readReasonCode reasonCode = some event.reasonCode ∧
      ∃ role, event.actorRole = some role ∧ components.Bears authorization ⟨event.actorId, role⟩
  | .appealReviewCase authorization caseId reasonCode _ _ _ => event.action = .appealed ∧
      event.caseId = caseId ∧ components.readReasonCode reasonCode = some event.reasonCode ∧
      ∃ role, event.actorRole = some role ∧ components.Bears authorization ⟨event.actorId, role⟩
  | _ => False

namespace ReviewComponents

variable {components : ReviewComponents} {api : ReviewApi} {requests : List ReviewRequest}
  {request : ReviewRequest} {call : ReviewCall} {event : ReviewAuditEvent}

theorem bears_of_map {authorization : String} {call : ReviewPrincipal → ReviewCall}
    {made : ReviewCall}
    (h : (components.authenticated authorization).toOption.map call = some made) :
    ∃ principal, components.Bears authorization principal ∧ made = call principal := by
  cases hprincipal : components.authenticated authorization with
  | error answer =>
    rw [hprincipal] at h
    cases h
  | ok principal =>
    rw [hprincipal] at h
    cases h
    exact ⟨principal, bears_of_authenticated hprincipal, rfl⟩

theorem isReasonCode_of_read {raw text : String} (h : components.readReasonCode raw = some text) :
    isReasonCode text = true := by
  rw [readReasonCode] at h
  split_ifs at h with hcode
  exact Option.some_inj.mp h ▸ hcode

theorem asks_of_callOf (hcall : components.callOf request = some call)
    (hasks : call.Asks components.hashing event) :
    request.Asks components event ∧ isReasonCode event.reasonCode = true := by
  cases request with
  | moderated path response createdAt updatedAt stamp append =>
    rw [callOf] at hcall
    split_ifs at hcall
    obtain rfl := Option.some_inj.mp hcall
    obtain ⟨haction, hreview, hcase, hactor, hrole, hreason⟩ := hasks
    refine ⟨⟨haction, hreview, hcase, hactor, hrole⟩, ?_⟩
    rw [hreason]
    decide +kernel
  | claimReviewCase authorization caseId now stamp append =>
    obtain ⟨principal, hbears, rfl⟩ := bears_of_map hcall
    obtain ⟨haction, hcase, hactor, hrole, hreason⟩ := hasks
    refine ⟨⟨haction, hcase, principal.role, hrole, hactor ▸ hbears⟩, ?_⟩
    rw [hreason]
    decide +kernel
  | decideReviewCase authorization caseId decision reasonCode now stamp append =>
    obtain ⟨text, htext, hmap⟩ := Option.bind_eq_some_iff.mp hcall
    obtain ⟨principal, hbears, rfl⟩ := bears_of_map hmap
    obtain ⟨haction, hcase, hactor, hrole, hreason⟩ := hasks
    refine ⟨⟨haction, hcase, hreason ▸ htext, principal.role, hrole, hactor ▸ hbears⟩, ?_⟩
    rw [hreason]
    exact isReasonCode_of_read htext
  | appealReviewCase authorization caseId reasonCode now stamp append =>
    obtain ⟨text, htext, hmap⟩ := Option.bind_eq_some_iff.mp hcall
    obtain ⟨principal, hbears, rfl⟩ := bears_of_map hmap
    obtain ⟨haction, hcase, hactor, hrole, hreason⟩ := hasks
    refine ⟨⟨haction, hcase, hreason ▸ htext, principal.role, hrole, hactor ▸ hbears⟩, ?_⟩
    rw [hreason]
    exact isReasonCode_of_read htext
  | exportReviewFeedback | listReviewCases | getReviewCase | getReviewAudit => cases hcall

theorem callOf_of_loggedCall (h : components.loggedCall request = some call) :
    components.callOf request = some call := by
  rw [loggedCall] at h
  split_ifs at h
  exact h

/-- **Every event of every audit log has its request.** Whatever ledger the service has opened: the
events that a log has gained since then stand, in this order, for requests of their own, and a
reviewer's event for one with a token of that reviewer. -/
theorem audit_authentic (components : ReviewComponents) {schema : LedgerSchema}
    {file : Option (List Char)} {start : InMemoryReviewRepository}
    (hopen : openLedger schema components.hashing file = .ok start)
    {requests : List ReviewRequest} {api : ReviewApi}
    (hrun : run components.step (.starting start) requests = some api) (caseId : String) :
    ∃ added asked, api.repository.audit caseId = start.audit caseId ++ added ∧
      asked.Sublist requests ∧ List.Forall₂ (fun event request ↦
        ReviewRequest.Asks components event request ∧ isReasonCode event.reasonCode = true)
        added asked := by
  obtain ⟨added, calls, haudit, hsublist, hasks⟩ :=
    traced_of_run (keyed_of_openLedger hopen) (run_calls hrun) caseId
  obtain ⟨within, hwithin, rfl⟩ := List.sublist_filterMap_iff.mp hsublist
  obtain ⟨asked, hasked, hrequests⟩ := exists_forall₂_of_filterMap hasks
  refine ⟨added, asked, haudit, hasked.trans hwithin, hrequests.imp ?_⟩
  rintro event request ⟨call, hcall, hevent⟩
  exact asks_of_callOf (callOf_of_loggedCall hcall) hevent

/-! ## A sample -/

/-- The sample of the service, where a reviewer has a token. -/
def sample : ReviewComponents where
  hashing := { ReviewSample.hashing with
    sha256 := ReviewSample.hashing.sha256
      ∘ Equiv.swap "reviewer-secret" ReviewAuthorizer.sampleDigest }
  lower text := String.ofList (text.toList.map Char.toLower)
  isWhitespace := Text.isSpace
  authorizer := some ⟨Dict.ofItems [(ReviewAuthorizer.sampleDigest, ReviewSample.reviewer)]⟩

/-- What an earlier process has written. -/
def sampleRecord : Record :=
  let case := createdCase sample.hashing ReviewSample.response ReviewSample.response.evaluatedAt
    ReviewSample.response.evaluatedAt
  (case, auditEvent sample.hashing [] case .created "system" none none "automated_review_required"
    ⟨ReviewSample.created.eventId, ReviewSample.created.occurredAt⟩)

/-- The response of that record comes again. Then the case is claimed with a wrong token, with the
ledger out of reach, and once more, and it is decided. -/
def sampleRequests : List ReviewRequest :=
  [.moderated "synchronous" ReviewSample.response ReviewSample.response.evaluatedAt
      ReviewSample.response.evaluatedAt
      ⟨ReviewSample.created.eventId, ReviewSample.created.occurredAt⟩ .done,
    .claimReviewCase "Bearer wrong-secret" ReviewSample.caseId ReviewSample.claimed.occurredAt
      ⟨ReviewSample.claimed.eventId, ReviewSample.claimed.occurredAt⟩ .done,
    .claimReviewCase "Bearer reviewer-secret" ReviewSample.caseId ReviewSample.claimed.occurredAt
      ⟨ReviewSample.claimed.eventId, ReviewSample.claimed.occurredAt⟩ .refused,
    .claimReviewCase "Bearer reviewer-secret" ReviewSample.caseId ReviewSample.claimed.occurredAt
      ⟨ReviewSample.claimed.eventId, ReviewSample.claimed.occurredAt⟩ .done,
    .decideReviewCase "bearer reviewer-secret" ReviewSample.caseId .block " confirmed_abuse "
      ReviewSample.decided.occurredAt
      ⟨ReviewSample.decided.eventId, ReviewSample.decided.occurredAt⟩ .done]

theorem run_sampleRequests : ∃ api,
    run sample.step (.starting (commitAll [sampleRecord])) sampleRequests = some api ∧
    (api.repository.audit ReviewSample.caseId).map (·.actorId)
      = ["system", "reviewer-1", "reviewer-1"] := by
  have hactors : ((run sample.step (.starting (commitAll [sampleRecord])) sampleRequests).map
      fun api ↦ (api.repository.audit ReviewSample.caseId).map (·.actorId))
        = some ["system", "reviewer-1", "reviewer-1"] := by decide +kernel
  exact Option.map_eq_some_iff.mp hactors

theorem openLedger_sampleRecord : openLedger ReviewSample.ledgerSchema sample.hashing
    (some (unlines ([sampleRecord].map (serialize ReviewSample.ledgerSchema))))
      = .ok (commitAll [sampleRecord]) := by
  refine openLedger_of_chained ReviewSample.lawful ?_
  exact chained_concat.mpr ⟨chained_nil, auditEvent_follows _ _ _ _ _ _ _ _ _⟩

theorem audit_authentic_sample : ∃ api added asked,
    run sample.step (.starting (commitAll [sampleRecord])) sampleRequests = some api ∧
    added.map (·.actorId) = ["reviewer-1", "reviewer-1"] ∧ asked.Sublist sampleRequests ∧
    List.Forall₂ (fun event request ↦ ReviewRequest.Asks sample event request) added asked := by
  obtain ⟨api, hrun, hactors⟩ := run_sampleRequests
  obtain ⟨added, asked, haudit, hsublist, hasks⟩ :=
    audit_authentic sample openLedger_sampleRecord hrun ReviewSample.caseId
  rw [haudit, List.map_append] at hactors
  have hstart : ((commitAll [sampleRecord]).audit ReviewSample.caseId).map (·.actorId)
      = ["system"] := by decide +kernel
  rw [hstart] at hactors
  exact ⟨api, added, asked, hrun, List.append_cancel_left hactors, hsublist,
    hasks.imp fun _ _ h ↦ h.1⟩

end ReviewComponents

end Sentinel
