import Sentinel.Review.Authority

/-!
# The projection and the feedback export

A case has five optional fields. Each of them is a reading of the history of the case: who has
claimed it last, how and why it was decided last, why it was appealed last. A method sets those
fields that its event is about and leaves the others as they are, except that an appeal takes the
case away from its reviewer. The export reads the fields and passes over a resolved case in silence
if one of them is missing, so what it delivers depends on the readings being right after any number
of appeals.

An event does not say which way a case was decided. That the field does is a statement about the
calls: the run contains the call of `decide` that has made the last decision event.
-/

namespace Sentinel

open InMemoryReviewRepository

/-! ## The last event of a kind -/

/-- The last event with an action of the kind. -/
def lastEvent (kind : ReviewAction → Prop) [DecidablePred kind] (events : List ReviewAuditEvent) :
    Option ReviewAuditEvent :=
  (events.filter fun event ↦ kind event.action).getLast?

section LastEvent

variable {kind : ReviewAction → Prop} [DecidablePred kind] {events : List ReviewAuditEvent}
  {event : ReviewAuditEvent}

theorem lastEvent_concat (h : kind event.action) :
    lastEvent kind (events ++ [event]) = some event := by
  rw [lastEvent, List.filter_append, List.filter_cons_of_pos (by simpa using h), List.filter_nil,
    List.getLast?_concat]

theorem lastEvent_concat_of_not (h : ¬kind event.action) :
    lastEvent kind (events ++ [event]) = lastEvent kind events := by
  rw [lastEvent, List.filter_append, List.filter_cons_of_neg (by simpa using h), List.filter_nil,
    List.append_nil, lastEvent]

theorem lastEvent_eq_none : lastEvent kind events = none ↔
    ∀ event ∈ events, ¬kind event.action := by
  rw [lastEvent, List.getLast?_eq_none_iff, List.filter_eq_nil_iff]
  simp

theorem isSome_lastEvent : (lastEvent kind events).isSome ↔
    ∃ event ∈ events, kind event.action := by
  rw [← Option.ne_none_iff_isSome, ne_eq, lastEvent_eq_none]
  push Not
  rfl

end LastEvent

/-! ## The projection -/

/-- The calls contain the call of `decide` that has committed the event, for this decision. -/
def DecidedBy (H : ReviewHashing) (calls : List ReviewCall) (decision : Decision)
    (event : ReviewAuditEvent) : Prop :=
  ∃ before after caseId principal reasonCode now stamp repository case,
    calls = before ++ .decide caseId principal decision reasonCode now stamp :: after ∧
      Transition.run (ReviewCall.step H) empty before = some repository ∧
      ReviewCall.plan H repository (.decide caseId principal decision reasonCode now stamp)
        = .ok (.commit case event)

/-- The optional fields of the case are those that its history gives. -/
structure Projects (H : ReviewHashing) (calls : List ReviewCall) (case : ReviewCase)
    (events : List ReviewAuditEvent) : Prop where
  /-- A reviewer is assigned in two of the states. -/
  assigned_iff : case.assignedReviewerId.isSome ↔ case.state = .claimed ∨ case.state = .resolved
  /-- The reviewer is the actor of the last claim. -/
  assigned : ∀ reviewerId ∈ case.assignedReviewerId,
    (lastEvent (· = .claimed) events).map (fun event ↦ event.actorId) = some reviewerId
  /-- The reason is that of the last decision. -/
  reason : case.decisionReasonCode
    = (lastEvent ReviewAction.Decides events).map fun event ↦ event.reasonCode
  resolvedAt_iff : case.resolvedAt.isSome ↔ ∃ event ∈ events, event.action.Decides
  final_iff : case.finalDecision.isSome ↔ ∃ event ∈ events, event.action.Decides
  /-- The decision is the one that the call behind the last decision has brought. -/
  final : ∀ decision ∈ case.finalDecision, decision ≠ .review ∧
    ∀ event ∈ lastEvent ReviewAction.Decides events, DecidedBy H calls decision event
  /-- The reason of an appeal is that of the last one. -/
  appeal : case.appealReasonCode
    = (lastEvent (· = .appealed) events).map fun event ↦ event.reasonCode
  /-- A resolved case has been decided. -/
  decided : case.state = .resolved → ∃ event ∈ events, event.action.Decides

variable {H : ReviewHashing} {calls : List ReviewCall} {call : ReviewCall} {case : ReviewCase}
  {events : List ReviewAuditEvent} {event : ReviewAuditEvent} {caseId : String}
  {repository : InMemoryReviewRepository}

theorem DecidedBy.concat {decision : Decision} (h : DecidedBy H calls decision event)
    (call : ReviewCall) : DecidedBy H (calls ++ [call]) decision event := by
  obtain ⟨before, after, caseId, principal, reasonCode, now, stamp, repository, case, rfl, hmade⟩ :=
    h
  refine ⟨before, after ++ [call], caseId, principal, reasonCode, now, stamp, repository, case, ?_,
    hmade⟩
  rw [List.append_assoc, List.cons_append]

theorem Projects.mono (h : Projects H calls case events) (call : ReviewCall) :
    Projects H (calls ++ [call]) case events where
  assigned_iff := h.assigned_iff
  assigned := h.assigned
  reason := h.reason
  resolvedAt_iff := h.resolvedAt_iff
  final_iff := h.final_iff
  final decision hdecision :=
    ⟨(h.final decision hdecision).1, fun event hevent ↦
      ((h.final decision hdecision).2 event hevent).concat call⟩
  appeal := h.appeal
  decided := h.decided

/-! ### The four commits -/

theorem projects_created (response : ModerationResponse) (createdAt updatedAt : DateTime)
    (haction : event.action = .created) :
    Projects H calls (createdCase H response createdAt updatedAt) [event] := by
  have hnone : ∀ {kind : ReviewAction → Prop} [DecidablePred kind], ¬kind .created →
      lastEvent kind [event] = none := by
    intro kind _ hkind
    refine lastEvent_eq_none.mpr fun other hother ↦ ?_
    rwa [List.mem_singleton.mp hother, haction]
  have hdecides : lastEvent ReviewAction.Decides [event] = none := hnone (by decide)
  constructor
  · simp [createdCase]
  · simp [createdCase]
  · rw [hdecides]; rfl
  · rw [← isSome_lastEvent, hdecides]; rfl
  · rw [← isSome_lastEvent, hdecides]; rfl
  · simp [createdCase]
  · rw [hnone (by decide)]; rfl
  · simp [createdCase]

theorem Projects.claimed (h : Projects H calls case events) (principal : ReviewPrincipal)
    (now : DateTime) (haction : event.action = .claimed)
    (hactor : event.actorId = principal.reviewerId) :
    Projects H calls (claimedCase case principal now) (events ++ [event]) := by
  have hdecides : lastEvent ReviewAction.Decides (events ++ [event])
      = lastEvent ReviewAction.Decides events :=
    lastEvent_concat_of_not (by rw [haction]; decide)
  have happeal : lastEvent (· = .appealed) (events ++ [event]) = lastEvent (· = .appealed) events :=
    lastEvent_concat_of_not (by rw [haction]; decide)
  constructor
  · exact iff_of_true rfl (.inl rfl)
  · rintro reviewerId ⟨⟩
    rw [lastEvent_concat haction, Option.map_some, hactor]
  · rw [hdecides]; exact h.reason
  · rw [← isSome_lastEvent, hdecides, isSome_lastEvent]; exact h.resolvedAt_iff
  · rw [← isSome_lastEvent, hdecides, isSome_lastEvent]; exact h.final_iff
  · rw [hdecides]; exact h.final
  · rw [happeal]; exact h.appeal
  · exact fun hstate ↦ ReviewState.noConfusion hstate

theorem Projects.decided_commit (h : Projects H calls case events) {decision : Decision}
    {reasonCode : String} {now : DateTime} (hstate : case.state = .claimed)
    (haction : event.action.Decides) (hreason : event.reasonCode = reasonCode)
    (hdecision : decision ≠ .review) (hby : DecidedBy H calls decision event) :
    Projects H calls (resolvedCase case decision reasonCode now) (events ++ [event]) := by
  have hdecides : lastEvent ReviewAction.Decides (events ++ [event]) = some event :=
    lastEvent_concat haction
  have hexists : ∃ event' ∈ events ++ [event], event'.action.Decides :=
    ⟨event, List.mem_append_right _ List.mem_cons_self, haction⟩
  have hclaim : lastEvent (· = .claimed) (events ++ [event]) = lastEvent (· = .claimed) events :=
    lastEvent_concat_of_not (by rcases haction with haction | haction <;> rw [haction] <;> decide)
  have happeal : lastEvent (· = .appealed) (events ++ [event]) = lastEvent (· = .appealed) events :=
    lastEvent_concat_of_not (by rcases haction with haction | haction <;> rw [haction] <;> decide)
  constructor
  · exact iff_of_true (h.assigned_iff.mpr (.inl hstate)) (.inr rfl)
  · rw [hclaim]; exact h.assigned
  · rw [hdecides, Option.map_some, hreason]; rfl
  · exact iff_of_true rfl hexists
  · exact iff_of_true rfl hexists
  · rw [hdecides]
    rintro _ ⟨⟩
    refine ⟨hdecision, ?_⟩
    rintro _ ⟨⟩
    exact hby
  · rw [happeal]; exact h.appeal
  · exact fun _ ↦ hexists

theorem Projects.appealed (h : Projects H calls case events) {reasonCode : String}
    {now : DateTime} (haction : event.action = .appealed)
    (hreason : event.reasonCode = reasonCode) :
    Projects H calls (appealedCase case reasonCode now) (events ++ [event]) := by
  have hdecides : lastEvent ReviewAction.Decides (events ++ [event])
      = lastEvent ReviewAction.Decides events :=
    lastEvent_concat_of_not (by rw [haction]; decide)
  constructor
  · simp [appealedCase]
  · simp [appealedCase]
  · rw [hdecides]; exact h.reason
  · rw [← isSome_lastEvent, hdecides, isSome_lastEvent]; exact h.resolvedAt_iff
  · rw [← isSome_lastEvent, hdecides, isSome_lastEvent]; exact h.final_iff
  · rw [hdecides]; exact h.final
  · rw [lastEvent_concat haction, Option.map_some, hreason]; rfl
  · exact fun hstate ↦ ReviewState.noConfusion hstate

/-! ### Runs -/

/-- Every case is the projection of its log. -/
def Projected (H : ReviewHashing) (calls : List ReviewCall)
    (repository : InMemoryReviewRepository) : Prop :=
  ∀ caseId case, repository.get caseId = some case →
    Projects H calls case (repository.audit caseId)

theorem audit_eq_nil_of_created (hc : Committable H repository case event)
    (haction : event.action = .created) : repository.audit case.caseId = [] := by
  have hallowed := hc.extend.allowed
  rw [Allowed] at hallowed
  -- after an event no other event creates the case
  cases hlast : (repository.audit case.caseId).getLast? with
  | none => exact List.getLast?_eq_none_iff.mp hlast
  | some last =>
    rw [hlast] at hallowed
    have htransition := hallowed.transition
    rw [haction] at htransition
    cases htransition

/-- **A commit keeps the projections.** -/
theorem Projected.commit (hH : H.Uuid5Sound) (hconsistent : Consistent H repository)
    (h : Projected H calls repository) (hcolon : call.ColonFree)
    (hrun : Transition.run (ReviewCall.step H) empty calls = some repository)
    (hplan : call.plan H repository = .ok (.commit case event)) :
    Projected H (calls ++ [call]) (repository.commit case event) := by
  have hcommits := ReviewCall.commits_of_plan hplan
  have hcommittable := hconsistent.committable hH hcolon hcommits
  intro caseId' case' hget'
  by_cases hcase : caseId' = case.caseId
  · subst hcase
    rw [get_commit_self] at hget'
    cases hget'
    rw [audit_commit_self]
    cases hcommits with
    | created response createdAt updatedAt stamp =>
      -- nothing has been logged under the new id
      rw [audit_eq_nil_of_created hcommittable rfl]
      exact projects_created response createdAt updatedAt rfl
    | claimed caseId principal now stamp old hrole hget =>
      obtain rfl := (hconsistent.kept hget).caseId_eq
      exact ((h _ _ hget).mono _).claimed principal now rfl rfl
    | decided caseId principal decision reasonCode now stamp old hrole hdecision hget hstate =>
      obtain rfl := (hconsistent.kept hget).caseId_eq
      refine ((h _ _ hget).mono _).decided_commit hstate ?_ rfl hdecision ?_
      · show (decisionAction _).Decides
        rw [decisionAction]
        split_ifs
        · exact .inr rfl
        · exact .inl rfl
      · exact ⟨calls, [], _, principal, reasonCode, now, stamp, repository, _, rfl, hrun, hplan⟩
    | appealed caseId principal reasonCode now stamp old hrole hget hstate =>
      obtain rfl := (hconsistent.kept hget).caseId_eq
      exact ((h _ _ hget).mono _).appealed rfl rfl
  · rw [get_commit_of_ne hcase] at hget'
    rw [audit_commit_of_ne hcase]
    exact (h _ _ hget').mono call

/-- **The projections hold after every run.** -/
theorem projected_of_run (hH : H.Uuid5Sound) (hcolon : ∀ call ∈ calls, call.ColonFree)
    (hrun : Transition.run (ReviewCall.step H) empty calls = some repository) :
    Projected H calls repository := by
  refine Transition.run_history (P := fun calls repository ↦
    (∀ call ∈ calls, call.ColonFree) → Projected H calls repository) ?_ ?_ hrun hcolon
  · rintro - caseId case hget
    cases hget
  · intro calls repository repository' call hrun ih hstep hcolon
    have hcolons : ∀ call ∈ calls, call.ColonFree := fun call hcall ↦
      hcolon call (List.mem_append_left _ hcall)
    have h := ih hcolons
    have hunchanged : Projected H (calls ++ [call]) repository := fun caseId case hget ↦
      (h caseId case hget).mono call
    cases hstep
    rw [ReviewCall.perform]
    split
    · exact hunchanged
    · exact hunchanged
    · rename_i hplan
      exact h.commit hH (consistent_of_run hH hcolons hrun)
        (hcolon call (List.mem_append_right _ List.mem_cons_self)) hrun hplan

/-! ## The export -/

theorem mem_listCases {state : ReviewState} :
    case ∈ repository.listCases (some state) ↔
      case.state = state ∧ ∃ caseId, repository.get caseId = some case := by
  rw [listCases, List.mem_insertionSort, List.mem_filter, Collections.Dict.mem_values, and_comm]
  simp [InMemoryReviewRepository.get]

theorem Consistent.nodup_listCases (h : Consistent H repository) (state : Option ReviewState) :
    ((repository.listCases state).map ReviewCase.caseId).Nodup := by
  have hkeys : repository.cases.values.map ReviewCase.caseId
      = repository.cases.items.map Prod.fst := by
    rw [Collections.Dict.values, List.map_map]
    refine List.map_congr_left fun item hitem ↦ ?_
    exact (h.kept (Collections.Dict.get_eq_some.mpr hitem)).caseId_eq
  have hnodup : (repository.cases.values.map ReviewCase.caseId).Nodup :=
    hkeys ▸ repository.cases.nodup
  refine ((List.perm_insertionSort _ _).map _).nodup_iff.mpr ?_
  exact hnodup.sublist (List.filter_sublist.map _)

/-- What the export of a case contains. -/
structure Exports (H : ReviewHashing) (calls : List ReviewCall)
    (repository : InMemoryReviewRepository) (case : ReviewCase) (record : FeedbackRecord) :
    Prop where
  caseId_eq : record.caseId = case.caseId
  requestId_eq : record.requestId = case.requestId
  automatedDecision_eq : record.automatedDecision = case.automatedDecision
  automatedRiskScore_eq : record.automatedRiskScore = case.automatedRiskScore
  signalCategories_eq : record.signalCategories = case.signalCategories
  policyVersion_eq : record.policyVersion = case.policyVersion
  resolvedAt_eq : case.resolvedAt = some record.resolvedAt
  humanDecision_eq : case.finalDecision = some record.humanDecision
  /-- Decision and reason are those of the last decision. -/
  decided : ∃ event, lastEvent ReviewAction.Decides (repository.audit case.caseId) = some event ∧
    DecidedBy H calls record.humanDecision event ∧ record.decisionReasonCode = event.reasonCode
  appealed_iff : record.appealed = true ↔
    ∃ event ∈ repository.audit case.caseId, event.action = .appealed

/-- A resolved case is never passed over. -/
theorem Projects.exports (h : Projects H calls case (repository.audit case.caseId))
    (hstate : case.state = .resolved) :
    ∃ record, ReviewService.feedbackRecord repository case = some record ∧
      Exports H calls repository case record := by
  have hdecided := h.decided hstate
  obtain ⟨event, hevent⟩ := Option.isSome_iff_exists.mp (isSome_lastEvent.mpr hdecided)
  obtain ⟨decision, hdecision⟩ := Option.isSome_iff_exists.mp (h.final_iff.mpr hdecided)
  obtain ⟨resolvedAt, hresolvedAt⟩ := Option.isSome_iff_exists.mp (h.resolvedAt_iff.mpr hdecided)
  have hreason : case.decisionReasonCode = some event.reasonCode := by
    rw [h.reason, hevent, Option.map_some]
  refine ⟨_, by rw [ReviewService.feedbackRecord, hdecision, hreason, hresolvedAt],
    rfl, rfl, rfl, rfl, rfl, rfl, hresolvedAt, hdecision, ⟨event, hevent, ?_, rfl⟩,
    isAppeal_eq_true_iff⟩
  exact (h.final decision hdecision).2 event hevent

/-- The export has one record for each resolved case, and no others. -/
structure Complete (H : ReviewHashing) (calls : List ReviewCall)
    (repository : InMemoryReviewRepository) (records : List FeedbackRecord) : Prop where
  nodup : (records.map FeedbackRecord.caseId).Nodup
  mem_iff : ∀ caseId, caseId ∈ records.map FeedbackRecord.caseId ↔
    ∃ case, repository.get caseId = some case ∧ case.state = .resolved
  exports : ∀ record ∈ records, ∃ case, repository.get record.caseId = some case ∧
    Exports H calls repository case record

theorem map_caseId_filterMap {cases : List ReviewCase}
    (h : ∀ case ∈ cases, ∃ record, ReviewService.feedbackRecord repository case = some record ∧
      Exports H calls repository case record) :
    (cases.filterMap (ReviewService.feedbackRecord repository)).map FeedbackRecord.caseId
      = cases.map ReviewCase.caseId := by
  induction cases with
  | nil => rfl
  | cons case cases ih =>
    obtain ⟨record, hrecord, hexports⟩ := h case List.mem_cons_self
    rw [List.filterMap_cons_some hrecord, List.map_cons, List.map_cons, hexports.caseId_eq,
      ih fun other hother ↦ h other (List.mem_cons_of_mem case hother)]

theorem Projected.complete (hconsistent : Consistent H repository)
    (h : Projected H calls repository) :
    Complete H calls repository ((repository.listCases (some .resolved)).filterMap
      (ReviewService.feedbackRecord repository)) := by
  have hexports : ∀ case ∈ repository.listCases (some .resolved),
      ∃ record, ReviewService.feedbackRecord repository case = some record ∧
        Exports H calls repository case record := by
    intro case hcase
    obtain ⟨hstate, caseId, hget⟩ := mem_listCases.mp hcase
    obtain rfl := (hconsistent.kept hget).caseId_eq
    exact (h _ _ hget).exports hstate
  refine ⟨?_, fun caseId ↦ ?_, fun record hrecord ↦ ?_⟩
  · rw [map_caseId_filterMap hexports]
    exact hconsistent.nodup_listCases _
  · rw [map_caseId_filterMap hexports, List.mem_map]
    constructor
    · rintro ⟨case, hcase, rfl⟩
      obtain ⟨hstate, caseId, hget⟩ := mem_listCases.mp hcase
      exact ⟨case, (hconsistent.kept hget).caseId_eq.symm ▸ hget, hstate⟩
    · rintro ⟨case, hget, hstate⟩
      exact ⟨case, mem_listCases.mpr ⟨hstate, caseId, hget⟩, (hconsistent.kept hget).caseId_eq⟩
  · obtain ⟨case, hcase, hfound⟩ := List.mem_filterMap.mp hrecord
    obtain ⟨record', hrecord', hexports'⟩ := hexports case hcase
    obtain rfl := Option.some_inj.mp (hfound.symm.trans hrecord')
    obtain ⟨-, caseId, hget⟩ := mem_listCases.mp hcase
    refine ⟨case, ?_, hexports'⟩
    rw [hexports'.caseId_eq, (hconsistent.kept hget).caseId_eq]
    exact hget

/-- **The projection agrees with the history, and the feedback export is complete.** After every
run each optional field of each case is what the log of the case says, and an auditor's export has
exactly one record for each resolved case, with the last decision and its reason. -/
theorem projection_and_feedback (H : ReviewHashing) (hH : H.Uuid5Sound) (calls : List ReviewCall)
    (hcolon : ∀ call ∈ calls, call.ColonFree) (repository : InMemoryReviewRepository)
    (hrun : Transition.run (ReviewCall.step H) empty calls = some repository) :
    (∀ caseId case, repository.get caseId = some case →
      Projects H calls case (repository.audit caseId)) ∧
    ∀ (principal : ReviewPrincipal) (now : DateTime), principal.role = .auditor →
      ∃ feedback, ReviewService.exportFeedback repository principal now = .ok feedback ∧
        Complete H calls repository feedback.records := by
  have hconsistent := consistent_of_run hH hcolon hrun
  have h := projected_of_run hH hcolon hrun
  refine ⟨h, fun principal now hrole ↦ ?_⟩
  have hok : ReviewService.exportFeedback repository principal now = .ok _ :=
    if_neg (not_not.mpr hrole)
  exact ⟨_, hok, h.complete hconsistent⟩

/-- The sample run leaves one record to export. -/
theorem projection_and_feedback_sample : ∃ repository feedback,
    Transition.run (ReviewCall.step ReviewSample.hashing) empty ReviewSample.calls
      = some repository ∧
    ReviewService.exportFeedback repository ⟨"auditor-1", .auditor⟩ ReviewSample.decided.occurredAt
      = .ok feedback ∧
    ReviewSample.caseId ∈ feedback.records.map FeedbackRecord.caseId := by
  obtain ⟨repository, hrun, hget⟩ := ReviewSample.run_calls
  obtain ⟨-, hexport⟩ := projection_and_feedback ReviewSample.hashing ReviewSample.uuid5Sound
    ReviewSample.calls (by decide) repository hrun
  obtain ⟨feedback, hok, hcomplete⟩ := hexport ⟨"auditor-1", .auditor⟩
    ReviewSample.decided.occurredAt rfl
  exact ⟨repository, feedback, hrun, hok,
    (hcomplete.mem_iff _).mpr ⟨ReviewSample.resolved, hget, rfl⟩⟩

end Sentinel
