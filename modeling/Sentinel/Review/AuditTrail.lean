import Sentinel.Review.Service
import Sentinel.Text.Lines
import Sentinel.Transition.Run

/-!
# The audit trail

The audit log of a case is a run of the review state machine, and the case is where the run has
ended. The service never looks at the log as a whole: it reads the state and the assigned reviewer
off the case, the number and the hash of the next event off the length and the end of the log, and
whether there was an appeal off a scan of it. That these agree is an invariant of the repository.

## The invariant

`Extends` says which event may come next in the log of a case. A log built in this way determines
what the service needs to know about the case, and the other way round: `Recorded` is the part of
this that a step preserves. The rest of `Consistent` is about keys. A case id is computed from a
request id and a policy version, and with colon-free policy versions no two requests share one, so
that a new case always begins a log of its own.
-/

namespace Sentinel

open Chain InMemoryReviewRepository

/-! ## The state machine -/

/-- The moves of a case. -/
inductive ReviewTransition : ReviewAction → ReviewState → ReviewState → Prop
  | claim : ReviewTransition .claimed .pending .claimed
  | claimAppeal : ReviewTransition .claimed .appealed .claimed
  | decide : ReviewTransition .decided .claimed .resolved
  | decideAppeal : ReviewTransition .appealDecided .claimed .resolved
  | appeal : ReviewTransition .appealed .resolved .appealed

def ReviewAction.target : ReviewAction → ReviewState
  | .created => .pending
  | .claimed => .claimed
  | .decided | .appealDecided => .resolved
  | .appealed => .appealed

theorem ReviewTransition.target_eq {action : ReviewAction} {fromState toState : ReviewState}
    (h : ReviewTransition action fromState toState) : toState = action.target := by
  cases h <;> rfl

theorem ReviewTransition.ne_pending {action : ReviewAction} {fromState toState : ReviewState}
    (h : ReviewTransition action fromState toState) : toState ≠ .pending := by
  cases h <;> exact ReviewState.noConfusion

structure Opens (event : ReviewAuditEvent) : Prop where
  action_eq : event.action = .created
  actorId_eq : event.actorId = "system"
  actorRole_eq : event.actorRole = none
  fromState_eq : event.fromState = none
  toState_eq : event.toState = .pending

/-- An event that takes a case on from the last event of its history. -/
structure Continues (history : List ReviewAuditEvent) (last event : ReviewAuditEvent) : Prop where
  fromState_eq : event.fromState = some last.toState
  transition : ReviewTransition event.action last.toState event.toState
  reviews : ∃ role : ReviewerRole, event.actorRole = some role ∧ role.reviews = true
  /-- Only who has claimed a case decides it. -/
  owner : last.toState = .claimed → event.actorId = last.actorId
  kind : last.toState = .claimed → event.action = decisionAction history
  senior : isAppeal history = true → event.action ≠ .appealed →
    event.actorRole = some .seniorReviewer

/-- The event may follow the history under the rules of the review. -/
def Allowed (history : List ReviewAuditEvent) (event : ReviewAuditEvent) : Prop :=
  match history.getLast? with
  | none => Opens event
  | some last => Continues history last event

/-- The event may come next in the log of the case. -/
structure Extends (H : ReviewHashing) (caseId : String) (history : List ReviewAuditEvent)
    (event : ReviewAuditEvent) : Prop where
  caseId_eq : event.caseId = caseId
  follows : (auditChain H.sha256).Follows history event
  allowed : Allowed history event

/-- A log of the case. -/
abbrev Trail (H : ReviewHashing) (caseId : String) : List ReviewAuditEvent → Prop :=
  Built (Extends H caseId)

variable {H : ReviewHashing} {caseId : String} {history : List ReviewAuditEvent}
  {last event : ReviewAuditEvent}

theorem isAppeal_eq_true_iff :
    isAppeal history = true ↔ ∃ event ∈ history, event.action = .appealed := by
  simp [isAppeal]

theorem allowed_of_eq_nil (hnil : history = []) (h : Opens event) : Allowed history event := by
  rw [hnil]
  exact h

theorem allowed_concat :
    Allowed (history ++ [last]) event ↔ Continues (history ++ [last]) last event := by
  rw [Allowed, List.getLast?_concat]

theorem allowed_of_getLast? (hlast : history.getLast? = some last)
    (h : Continues history last event) : Allowed history event := by
  rw [Allowed, hlast]
  exact h

/-! ## The events one by one -/

theorem Trail.chain (h : Trail H caseId history) : Built (auditChain H.sha256).Follows history :=
  h.mono fun hextends ↦ hextends.follows

theorem Trail.caseId_eq (h : Trail H caseId history) (hevent : event ∈ history) :
    event.caseId = caseId := by
  obtain ⟨i, hi, rfl⟩ := List.getElem_of_mem hevent
  exact (h.rel_take hi).caseId_eq

theorem Trail.opens (h : Trail H caseId history) (hi : 0 < history.length) : Opens history[0] :=
  (h.rel_take hi).allowed

theorem Trail.continues (h : Trail H caseId history) {i : ℕ} (hi : i + 1 < history.length) :
    Continues (history.take (i + 1)) history[i] history[i + 1] := by
  have hallowed := (h.rel_succ hi).allowed
  rw [allowed_concat] at hallowed
  rwa [List.take_succ_eq_append_getElem (Nat.lt_of_succ_lt hi)]

/-- Nothing comes back to the pending state, so a pending case has no appeal behind it. -/
theorem Trail.isAppeal_of_pending (h : Trail H caseId history)
    (hlast : history.getLast? = some last) (hpending : last.toState = .pending) :
    isAppeal history = false := by
  obtain ⟨earlier, event, rfl, hextends⟩ := h.exists_last (by rintro rfl; cases hlast)
  obtain rfl : event = last := by simpa using hlast
  have hallowed := hextends.allowed
  rw [Allowed] at hallowed
  cases hearlier : earlier.getLast? with
  | none =>
    rw [hearlier] at hallowed
    rw [List.getLast?_eq_none_iff.mp hearlier]
    simp [isAppeal, hallowed.action_eq]
  | some before =>
    rw [hearlier] at hallowed
    exact absurd hpending hallowed.transition.ne_pending

/-! ## The invariant of the repository -/

/-- The case is where its log has left it. -/
structure Recorded (H : ReviewHashing) (case : ReviewCase) (history : List ReviewAuditEvent) :
    Prop where
  trail : Trail H case.caseId history
  ends : ∃ last, history.getLast? = some last ∧ case.state = last.toState ∧
    (case.state = .claimed → case.assignedReviewerId = some last.actorId)

/-- The case id is the one of the request and of a policy version without colons. -/
def Derived (H : ReviewHashing) (case : ReviewCase) : Prop :=
  case.caseId = caseIdOf H case.requestId case.policyVersion ∧ ':' ∉ case.policyVersion.toList

/-- What holds of a case that the repository has. -/
structure Kept (H : ReviewHashing) (repository : InMemoryReviewRepository) (caseId : String)
    (case : ReviewCase) : Prop where
  caseId_eq : case.caseId = caseId
  recorded : Recorded H case (repository.audit caseId)
  derived : Derived H case
  indexed : repository.requestIndex.get case.requestId = some caseId

/-- The cases, the index and the logs belong together. -/
structure Consistent (H : ReviewHashing) (repository : InMemoryReviewRepository) : Prop where
  kept : ∀ {caseId case}, repository.get caseId = some case → Kept H repository caseId case
  unrecorded : ∀ {caseId}, repository.get caseId = none → repository.audit caseId = []
  index_sound : ∀ {requestId caseId}, repository.requestIndex.get requestId = some caseId →
    ∃ case, repository.get caseId = some case ∧ case.requestId = requestId

theorem consistent_empty : Consistent H empty where
  kept h := by cases h
  unrecorded _ := rfl
  index_sound h := by cases h

/-- What a commit has to satisfy for the invariant to survive it. -/
structure Committable (H : ReviewHashing) (repository : InMemoryReviewRepository)
    (case : ReviewCase) (event : ReviewAuditEvent) : Prop where
  extend : Extends H case.caseId (repository.audit case.caseId) event
  state_eq : case.state = event.toState
  assigned : case.state = .claimed → case.assignedReviewerId = some event.actorId
  derived : Derived H case
  /-- The case and the request go together in what the repository already has. -/
  unique : ∀ {caseId' case'}, repository.get caseId' = some case' →
    (case'.requestId = case.requestId ↔ caseId' = case.caseId)

variable {repository : InMemoryReviewRepository} {case : ReviewCase}

theorem Consistent.commit (h : Consistent H repository) (hc : Committable H repository case event) :
    Consistent H (repository.commit case event) where
  kept := by
    intro caseId' case' hget
    by_cases heq : caseId' = case.caseId
    · subst heq
      rw [get_commit_self] at hget
      cases hget
      refine ⟨rfl, ⟨?_, event, ?_, hc.state_eq, hc.assigned⟩, hc.derived, ?_⟩
      · have htrail : Trail H case.caseId (repository.audit case.caseId) := by
          cases hold : repository.get case.caseId with
          | none => rw [h.unrecorded hold]; exact .nil
          | some old => exact (h.kept hold).caseId_eq ▸ (h.kept hold).recorded.trail
        rw [audit_commit_self]
        exact htrail.snoc hc.extend
      · rw [audit_commit_self, List.getLast?_concat]
      · rw [index_commit, if_pos rfl]
    · rw [get_commit_of_ne heq] at hget
      obtain ⟨hcaseId, hrecorded, hderived, hindexed⟩ := h.kept hget
      refine ⟨hcaseId, ?_, hderived, ?_⟩
      · rw [audit_commit_of_ne heq]
        exact hrecorded
      · rw [index_commit, if_neg (mt (hc.unique hget).mp heq)]
        exact hindexed
  unrecorded := by
    intro caseId' hget
    by_cases heq : caseId' = case.caseId
    · rw [heq, get_commit_self] at hget
      cases hget
    · rw [get_commit_of_ne heq] at hget
      rw [audit_commit_of_ne heq]
      exact h.unrecorded hget
  index_sound := by
    intro requestId caseId' hindex
    rw [index_commit] at hindex
    split_ifs at hindex with hrequest
    · cases hindex
      exact ⟨case, get_commit_self, hrequest.symm⟩
    · obtain ⟨case', hget, hrequest'⟩ := h.index_sound hindex
      have hne : caseId' ≠ case.caseId := fun heq ↦
        hrequest (hrequest' ▸ (hc.unique hget).mpr heq)
      exact ⟨case', (get_commit_of_ne hne).trans hget, hrequest'⟩

/-! ## What the service commits -/

/-- The functions from outside do what the service relies on: `uuid5` gives different names
different ids, none of them empty. -/
structure ReviewHashing.Uuid5Sound (H : ReviewHashing) : Prop where
  injective : Function.Injective H.uuid5
  ne_empty : ∀ name, H.uuid5 name ≠ ""

/-- A call of `enqueue` has a colon-free policy version, as the constants of the engines are. -/
def ReviewCall.ColonFree : ReviewCall → Prop
  | .enqueue response _ _ _ => ':' ∉ response.policyVersion.toList
  | _ => True

instance : DecidablePred ReviewCall.ColonFree
  | .enqueue response _ _ _ => inferInstanceAs (Decidable (':' ∉ response.policyVersion.toList))
  | .claim .. | .decide .. | .appeal .. => .isTrue trivial

/-- With colon-free policy versions the case id determines the request. -/
theorem caseIdOf_inj (hH : H.Uuid5Sound) {requestId requestId' policy policy' : String}
    (hpolicy : ':' ∉ policy.toList) (hpolicy' : ':' ∉ policy'.toList)
    (h : caseIdOf H requestId policy = caseIdOf H requestId' policy') : requestId = requestId' := by
  have hname := congrArg String.toList (hH.injective h)
  simp only [String.toList_append, List.append_assoc] at hname
  have hrest := List.append_cancel_left hname
  exact String.toList_inj.mp (Text.append_last_separator_inj hpolicy hpolicy' hrest).1

theorem Consistent.findByRequestId_eq (hH : H.Uuid5Sound) (h : Consistent H repository)
    (hget : repository.get caseId = some case) :
    repository.findByRequestId case.requestId = some case := by
  have hkept := h.kept hget
  have hne : caseId ≠ "" := by
    rw [← hkept.caseId_eq, hkept.derived.1]
    exact hH.ne_empty _
  rw [findByRequestId, hkept.indexed]
  exact (if_neg hne).trans hget

theorem Consistent.requestId_of_find (h : Consistent H repository) {requestId : String}
    (hfind : repository.findByRequestId requestId = some case) :
    repository.get case.caseId = some case ∧ case.requestId = requestId := by
  rw [findByRequestId] at hfind
  cases hindex : repository.requestIndex.get requestId with
  | none => simp only [hindex] at hfind; cases hfind
  | some caseId =>
    simp only [hindex] at hfind
    split_ifs at hfind
    obtain ⟨case', hget, hrequest⟩ := h.index_sound hindex
    obtain rfl : case = case' := Option.some_inj.mp (hfind.symm.trans hget)
    exact ⟨(h.kept hget).caseId_eq.symm ▸ hget, hrequest⟩

theorem Consistent.committable_moved (h : Consistent H repository)
    (hget : repository.get caseId = some case) {moved : ReviewCase} {action : ReviewAction}
    {actorId reasonCode : String} {role : ReviewerRole} {fromState : ReviewState} {stamp : Stamp}
    (hfrom : case.state = fromState) (hcaseId : moved.caseId = case.caseId)
    (hrequestId : moved.requestId = case.requestId)
    (hpolicy : moved.policyVersion = case.policyVersion)
    (htransition : ReviewTransition action fromState moved.state) (hreviews : role.reviews = true)
    (howner : fromState = .claimed → case.assignedReviewerId = some actorId)
    (hkind : fromState = .claimed → action = decisionAction (repository.audit caseId))
    (hsenior : fromState ≠ .pending → isAppeal (repository.audit caseId) = true →
      action ≠ .appealed → role = .seniorReviewer)
    (hassigned : moved.state = .claimed → moved.assignedReviewerId = some actorId) :
    Committable H repository moved (auditEvent H (repository.audit case.caseId) moved action actorId
      (some role) (some fromState) reasonCode stamp) := by
  subst hfrom
  obtain ⟨rfl, ⟨htrail, last, hlast, hstate, hlastActor⟩, hderived, hindexed⟩ := h.kept hget
  refine ⟨⟨rfl, ?_, ?_⟩, rfl, hassigned, ?_, ?_⟩
  · rw [hcaseId]
    exact auditEvent_follows _ _ _ _ _ _ _ _ _
  · rw [hcaseId]
    refine allowed_of_getLast? hlast
      ⟨congrArg some hstate, hstate ▸ htransition, ⟨role, rfl, hreviews⟩, ?_, ?_, ?_⟩
    · intro hclaimed
      rw [← hstate] at hclaimed
      exact Option.some_inj.mp ((howner hclaimed).symm.trans (hlastActor hclaimed))
    · exact fun hclaimed ↦ hkind (hstate.trans hclaimed)
    · intro happeal hne
      refine congrArg some (hsenior ?_ happeal hne)
      intro hpending
      rw [htrail.isAppeal_of_pending hlast (hstate.symm.trans hpending)] at happeal
      cases happeal
  · rw [Derived, hcaseId, hrequestId, hpolicy]
    exact hderived
  · intro caseId' case' hget'
    rw [hrequestId, hcaseId]
    constructor
    · intro hrequest
      have hindexed' := (h.kept hget').indexed
      rw [hrequest, hindexed, Option.some_inj] at hindexed'
      exact hindexed'.symm
    · rintro rfl
      rw [Option.some_inj.mp (hget'.symm.trans hget)]

theorem Consistent.committable_created (hH : H.Uuid5Sound) (h : Consistent H repository)
    {response : ModerationResponse} {createdAt updatedAt : DateTime} {stamp : Stamp}
    (hcolon : ':' ∉ response.policyVersion.toList)
    (hfree : repository.findByRequestId response.requestId = none) :
    Committable H repository (createdCase H response createdAt updatedAt)
      (auditEvent H (repository.audit (createdCase H response createdAt updatedAt).caseId)
        (createdCase H response createdAt updatedAt) .created "system" none none
        "automated_review_required" stamp) := by
  have hother : ∀ {caseId' case'}, repository.get caseId' = some case' →
      case'.requestId ≠ response.requestId ∧
        caseId' ≠ caseIdOf H response.requestId response.policyVersion := by
    intro caseId' case' hget
    have hkept := h.kept hget
    have hrequest : case'.requestId ≠ response.requestId := by
      intro heq
      have hfound := h.findByRequestId_eq hH hget
      rw [heq, hfree] at hfound
      cases hfound
    refine ⟨hrequest, fun heq ↦ hrequest ?_⟩
    rw [← hkept.caseId_eq, hkept.derived.1] at heq
    exact caseIdOf_inj hH hkept.derived.2 hcolon heq
  have hnew : repository.audit (caseIdOf H response.requestId response.policyVersion) = [] := by
    refine h.unrecorded (Option.eq_none_iff_forall_ne_some.mpr ?_)
    exact fun case' hget ↦ (hother hget).2 rfl
  refine ⟨⟨rfl, auditEvent_follows _ _ _ _ _ _ _ _ _, ?_⟩, rfl, fun hclaimed ↦ ?_,
    ⟨rfl, hcolon⟩, ?_⟩
  · exact allowed_of_eq_nil hnew ⟨rfl, rfl, rfl, rfl, rfl⟩
  · cases hclaimed
  · exact fun hget ↦ iff_of_false (hother hget).1 (hother hget).2

/-- **Whatever the service commits keeps the invariant.** -/
theorem Consistent.committable (hH : H.Uuid5Sound) (h : Consistent H repository)
    {call : ReviewCall} (hcolon : call.ColonFree) (hc : call.Commits H repository case event) :
    Committable H repository case event := by
  cases hc with
  | created response createdAt updatedAt stamp hreview hfree =>
    exact h.committable_created hH hcolon hfree
  | claimed caseId principal now stamp old hrole hget hsenior hstate =>
    have hne : old.state ≠ .claimed := by
      rcases hstate with hstate | hstate <;> rw [hstate] <;> exact ReviewState.noConfusion
    refine h.committable_moved hget rfl rfl rfl rfl ?_ hrole (absurd · hne) (absurd · hne) ?_
      fun _ ↦ rfl
    · rcases hstate with hstate | hstate <;> rw [hstate]
      · exact .claim
      · exact .claimAppeal
    · exact fun hpending _ _ ↦ hsenior (hstate.resolve_left hpending)
  | decided caseId principal decision reasonCode now stamp old hrole hdecision hget hstate hassigned
      hsenior =>
    refine h.committable_moved hget hstate rfl rfl rfl ?_ hrole (fun _ ↦ hassigned) (fun _ ↦ rfl)
      (fun _ happeal _ ↦ hsenior happeal) ?_
    · rw [decisionAction]
      split_ifs
      · exact .decideAppeal
      · exact .decide
    · exact fun hclaimed ↦ ReviewState.noConfusion hclaimed
  | appealed caseId principal reasonCode now stamp old hrole hget hstate =>
    refine h.committable_moved hget hstate rfl rfl rfl .appeal hrole ?_ ?_
      (fun _ _ hne ↦ absurd rfl hne) ?_
    all_goals exact fun hclaimed ↦ ReviewState.noConfusion hclaimed

/-! ## Runs -/

theorem Consistent.perform (hH : H.Uuid5Sound) (h : Consistent H repository) {call : ReviewCall}
    (hcolon : call.ColonFree) : Consistent H (call.perform H repository).1 := by
  rw [ReviewCall.perform]
  split
  · exact h
  · exact h
  · rename_i hplan
    exact h.commit (h.committable hH hcolon (ReviewCall.commits_of_plan hplan))

/-- **The invariant holds after every run.** -/
theorem consistent_of_run (hH : H.Uuid5Sound) {calls : List ReviewCall}
    (hcolon : ∀ call ∈ calls, call.ColonFree)
    (hrun : Transition.run (ReviewCall.step H) empty calls = some repository) :
    Consistent H repository := by
  have halong : Transition.Along (ReviewCall.step H) (fun _ call ↦ call.ColonFree) empty calls :=
    Transition.along_of_forall (fun hcall ↦ hcall) empty hcolon
  refine Transition.run_invariant_along ?_ consistent_empty halong hrun
  intro repository call repository' h hcall hstep
  cases hstep
  exact h.perform hH hcall

/-- A case and its log are those of a run of the review state machine. -/
structure FaithfulTrail (H : ReviewHashing) (caseId : String) (case : ReviewCase)
    (events : List ReviewAuditEvent) : Prop where
  caseId_eq : case.caseId = caseId
  event_caseId : ∀ event ∈ events, event.caseId = caseId
  sequence : ∀ i (hi : i < events.length), events[i].sequence = i + 1
  nonempty : 0 < events.length
  first : Opens events[0] ∧ events[0].previousHash = genesisHash
  next : ∀ i (hi : i + 1 < events.length),
    events[i + 1].fromState = some events[i].toState ∧
      ReviewTransition events[i + 1].action events[i].toState events[i + 1].toState ∧
      events[i + 1].previousHash = events[i].eventHash
  hash : ∀ event ∈ events, event.eventHash = auditEventDigest H.sha256 event.toAuditPayload
  state : events.getLast?.map (fun event ↦ event.toState) = some case.state

theorem Kept.faithfulTrail (h : Kept H repository caseId case) :
    FaithfulTrail H caseId case (repository.audit caseId) := by
  obtain ⟨rfl, ⟨htrail, last, hlast, hstate, -⟩, -, -⟩ := h
  have hpos : 0 < (repository.audit case.caseId).length :=
    List.length_pos_of_mem (List.mem_of_getLast? hlast)
  refine ⟨rfl, fun event ↦ htrail.caseId_eq, fun i hi ↦ HashChain.sequence_getElem htrail.chain hi,
    hpos, ⟨htrail.opens hpos, HashChain.previousHash_zero htrail.chain hpos⟩, fun i hi ↦ ?_,
    fun event ↦ HashChain.hash_eq_digest htrail.chain, ?_⟩
  · have hcontinues := htrail.continues hi
    exact ⟨hcontinues.fromState_eq, hcontinues.transition,
      HashChain.previousHash_succ htrail.chain hi⟩
  · rw [hlast, Option.map_some, hstate]

/-- What a call does to the repository, and what the caller gets. -/
inductive Effect (repository : InMemoryReviewRepository) (call : ReviewCall) :
    InMemoryReviewRepository × Except ReviewError (Option ReviewCase) → Prop
  | raised (error : ReviewError) : Effect repository call (repository, .error error)
  /-- The response of `enqueue` needs no review. -/
  | passed (response : ModerationResponse) (createdAt updatedAt : DateTime) (stamp : Stamp)
      (hcall : call = .enqueue response createdAt updatedAt stamp)
      (hreview : requiresReview response = false) : Effect repository call (repository, .ok none)
  /-- The request of `enqueue` has its case. -/
  | found (response : ModerationResponse) (createdAt updatedAt : DateTime) (stamp : Stamp)
      (existing : ReviewCase) (hcall : call = .enqueue response createdAt updatedAt stamp)
      (hexisting : repository.get existing.caseId = some existing)
      (hrequest : existing.requestId = response.requestId) :
      Effect repository call (repository, .ok (some existing))
  /-- One event more, in the log of one case. -/
  | appended (repository' : InMemoryReviewRepository) (case : ReviewCase) (event : ReviewAuditEvent)
      (hcase : repository'.get case.caseId = some case)
      (haudit : repository'.audit case.caseId = repository.audit case.caseId ++ [event])
      (hindex : repository'.requestIndex.get case.requestId = some case.caseId)
      (hothers : ∀ caseId ≠ case.caseId, repository'.get caseId = repository.get caseId ∧
        repository'.audit caseId = repository.audit caseId)
      (hrequests : ∀ requestId ≠ case.requestId,
        repository'.requestIndex.get requestId = repository.requestIndex.get requestId) :
      Effect repository call (repository', .ok (some case))

theorem Consistent.effect (h : Consistent H repository) (call : ReviewCall) :
    Effect repository call (call.perform H repository) := by
  rw [ReviewCall.perform]
  split
  · exact .raised _
  · rename_i found hplan
    obtain ⟨response, createdAt, updatedAt, stamp, rfl, hfound⟩ := ReviewCall.result_of_plan hplan
    rcases hfound with ⟨hreview, rfl⟩ | ⟨existing, hfind, rfl⟩
    · exact .passed response createdAt updatedAt stamp rfl hreview
    · obtain ⟨hget, hrequest⟩ := h.requestId_of_find hfind
      exact .found response createdAt updatedAt stamp existing rfl hget hrequest
  · rename_i case event _
    refine .appended _ case event get_commit_self audit_commit_self ?_ ?_ ?_
    · rw [index_commit, if_pos rfl]
    · exact fun caseId hne ↦ ⟨get_commit_of_ne hne, audit_commit_of_ne hne⟩
    · exact fun requestId hne ↦ by rw [index_commit, if_neg hne]

/-- **The audit trail is a faithful run of the review state machine**, and a call that does not
append to it does nothing. -/
theorem audit_trail_faithful (H : ReviewHashing) (hH : H.Uuid5Sound) (calls : List ReviewCall)
    (hcolon : ∀ call ∈ calls, call.ColonFree) (repository : InMemoryReviewRepository)
    (hrun : Transition.run (ReviewCall.step H) empty calls = some repository) :
    (∀ caseId case, repository.get caseId = some case →
      FaithfulTrail H caseId case (repository.audit caseId)) ∧
      ∀ call, Effect repository call (call.perform H repository) := by
  have h := consistent_of_run hH hcolon hrun
  exact ⟨fun caseId case hget ↦ (h.kept hget).faithfulTrail, h.effect⟩

theorem ReviewSample.uuid5Sound : ReviewSample.hashing.Uuid5Sound where
  injective := by
    have hhead : ∀ name : String, ReviewSample.caseId ≠ "u" ++ name := by
      intro name h
      have hchars := congrArg (fun s : String ↦ s.toList.head?) h
      simp [ReviewSample.caseId] at hchars
    intro name name' h
    simp only [ReviewSample.hashing] at h
    split_ifs at h with hname hname' hname'
    · exact hname.trans hname'.symm
    · exact absurd h (hhead _)
    · exact absurd h.symm (hhead _)
    · simpa using h
  ne_empty := by
    intro name h
    simp only [ReviewSample.hashing] at h
    split_ifs at h
    · exact absurd h (by decide)
    · simp at h

theorem ReviewSample.run_calls : ∃ repository,
    Transition.run (ReviewCall.step ReviewSample.hashing) empty ReviewSample.calls
      = some repository ∧ repository.get ReviewSample.caseId = some ReviewSample.resolved := by
  have hget : ((Transition.run (ReviewCall.step ReviewSample.hashing) empty
      ReviewSample.calls).bind fun repository ↦ repository.get ReviewSample.caseId)
        = some ReviewSample.resolved := rfl
  exact Option.bind_eq_some_iff.mp hget

/-- The log of the sample case. -/
theorem audit_trail_faithful_sample : ∃ repository,
    Transition.run (ReviewCall.step ReviewSample.hashing) empty ReviewSample.calls
      = some repository ∧
    FaithfulTrail ReviewSample.hashing ReviewSample.caseId ReviewSample.resolved
      (repository.audit ReviewSample.caseId) := by
  obtain ⟨repository, hrun, hget⟩ := ReviewSample.run_calls
  exact ⟨repository, hrun, (audit_trail_faithful ReviewSample.hashing ReviewSample.uuid5Sound
    ReviewSample.calls (by decide) repository hrun).1 _ _ hget⟩

end Sentinel
