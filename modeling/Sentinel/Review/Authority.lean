import Sentinel.Review.AuditTrail

/-!
# Authority over a case

Who has decided a case, and with what right, can be read off its log. The service asks only for the
state of the case, the reviewer it is assigned to, the role of the caller at that moment and whether
there has been an appeal. That these questions are enough comes from the shape of a log: the action
of an event determines the state it leaves the case in, hence which actions may come next, and the
actions of a log go round one cycle, claim, decision and appeal.

So the reviewer a case is assigned to when it is decided is the actor of the event just before, an
appeal divides a log into a part with at most one decision and a part that senior reviewers act in,
and while a case is claimed nobody else claims it.
-/

namespace Sentinel

open InMemoryReviewRepository

/-! ## The order of the actions -/

def ReviewAction.Decides (action : ReviewAction) : Prop :=
  action = .decided ∨ action = .appealDecided

instance : DecidablePred ReviewAction.Decides := fun _ ↦ inferInstanceAs (Decidable (_ ∨ _))

theorem ReviewAction.target_eq_claimed {action : ReviewAction} :
    action.target = .claimed ↔ action = .claimed := by
  cases action <;> decide

theorem ReviewAction.target_eq_resolved {action : ReviewAction} :
    action.target = .resolved ↔ action.Decides := by
  cases action <;> decide

theorem ReviewAction.target_eq_appealed {action : ReviewAction} :
    action.target = .appealed ↔ action = .appealed := by
  cases action <;> decide

section Transitions

variable {action : ReviewAction} {fromState toState : ReviewState}

theorem ReviewTransition.decides_iff (h : ReviewTransition action fromState toState) :
    action.Decides ↔ fromState = .claimed := by
  cases h <;> decide

theorem ReviewTransition.appealed_iff (h : ReviewTransition action fromState toState) :
    action = .appealed ↔ fromState = .resolved := by
  cases h <;> decide

theorem ReviewTransition.claimed_iff (h : ReviewTransition action fromState toState) :
    action = .claimed ↔ fromState = .pending ∨ fromState = .appealed := by
  cases h <;> decide

end Transitions

variable {H : ReviewHashing} {caseId : String} {events : List ReviewAuditEvent}

theorem Trail.toState_eq (h : Trail H caseId events) {i : ℕ} (hi : i < events.length) :
    events[i].toState = events[i].action.target := by
  cases i with
  | zero => rw [(h.opens hi).toState_eq, (h.opens hi).action_eq, ReviewAction.target]
  | succ i => exact (h.continues hi).transition.target_eq

theorem Trail.decides_succ (h : Trail H caseId events) {i : ℕ} (hi : i < events.length)
    (hsucc : i + 1 < events.length) :
    events[i + 1].action.Decides ↔ events[i].action = .claimed := by
  rw [(h.continues hsucc).transition.decides_iff, h.toState_eq, ReviewAction.target_eq_claimed]

theorem Trail.appealed_succ (h : Trail H caseId events) {i : ℕ} (hi : i < events.length)
    (hsucc : i + 1 < events.length) :
    events[i + 1].action = .appealed ↔ events[i].action.Decides := by
  rw [(h.continues hsucc).transition.appealed_iff, h.toState_eq, ReviewAction.target_eq_resolved]

theorem Trail.claimed_succ (h : Trail H caseId events) {i : ℕ} (hi : i < events.length)
    (hsucc : i + 1 < events.length) (happealed : events[i].action = .appealed) :
    events[i + 1].action = .claimed := by
  rw [(h.continues hsucc).transition.claimed_iff, h.toState_eq]
  exact .inr (ReviewAction.target_eq_appealed.mpr happealed)

theorem isAppeal_take {i : ℕ} (hi : i < events.length) : isAppeal (events.take i) = true ↔
    ∃ j, ∃ hj : j < i, events[j].action = .appealed := by
  rw [isAppeal_eq_true_iff]
  constructor
  · rintro ⟨event, hevent, haction⟩
    obtain ⟨j, hj, rfl⟩ := List.getElem_of_mem hevent
    rw [List.length_take_of_le (Nat.le_of_lt hi)] at hj
    rw [List.getElem_take] at haction
    exact ⟨j, hj, haction⟩
  · rintro ⟨j, hj, haction⟩
    exact ⟨events[j], List.mem_take_iff_getElem.mpr ⟨j, by omega, rfl⟩, haction⟩

/-! ## What a log says about authority -/

/-- The events of a case were caused by those who had the right to. -/
structure Authorized (events : List ReviewAuditEvent) : Prop where
  /-- Who decides has claimed, with no event in between. -/
  owner : ∀ i (_ : i < events.length), events[i].action.Decides →
    ∃ j, ∃ hj : j + 1 = i, events[j].action = .claimed ∧ events[j].actorId = events[i].actorId
  kind : ∀ i (_ : i < events.length), events[i].action.Decides →
    (events[i].action = .appealDecided ↔ ∃ j, ∃ hj : j < i, events[j].action = .appealed)
  decidedOnce : ∀ i j (_ : i < events.length) (_ : j < events.length),
    events[i].action = .decided → events[j].action = .decided → i = j
  senior : ∀ i (_ : i < events.length),
    events[i].action = .claimed ∨ events[i].action = .appealDecided →
    (∃ j, ∃ hj : j < i, events[j].action = .appealed) → events[i].actorRole = some .seniorReviewer
  notAuditor : ∀ event ∈ events, event.actorRole ≠ some .auditor
  /-- Between one claim and the next there are a decision and an appeal, and nothing else. -/
  cycle : ∀ i k (_ : i < k) (_ : k < events.length), events[i].action = .claimed →
    events[k].action = .claimed →
    (∀ j (_ : i < j) (_ : j < k), events[j].action ≠ .claimed) →
    ∃ _ : k = i + 3, events[i + 1].action.Decides ∧ events[i + 2].action = .appealed

theorem Trail.ne_zero_of_action_ne (h : Trail H caseId events) {i : ℕ} (hi : i < events.length)
    (hne : events[i].action ≠ .created) : ∃ j, i = j + 1 := by
  cases i with
  | zero => exact absurd (h.opens hi).action_eq hne
  | succ j => exact ⟨j, rfl⟩

theorem ReviewAction.Decides.ne_created {action : ReviewAction} (h : action.Decides) :
    action ≠ .created := by
  rcases h with rfl | rfl <;> exact ReviewAction.noConfusion

theorem Trail.owner (h : Trail H caseId events) {i : ℕ} (hi : i < events.length)
    (hsucc : i + 1 < events.length) (hdecides : events[i + 1].action.Decides) :
    events[i].action = .claimed ∧ events[i].actorId = events[i + 1].actorId := by
  have hclaimed := (h.decides_succ hi hsucc).mp hdecides
  refine ⟨hclaimed, ((h.continues hsucc).owner ?_).symm⟩
  rw [h.toState_eq, hclaimed, ReviewAction.target]

theorem Trail.kind (h : Trail H caseId events) {i : ℕ} (hi : i < events.length)
    (hdecides : events[i].action.Decides) :
    events[i].action = .appealDecided ↔ ∃ j, ∃ hj : j < i, events[j].action = .appealed := by
  obtain ⟨i, rfl⟩ := h.ne_zero_of_action_ne hi hdecides.ne_created
  have hkind := (h.continues hi).kind <| by
    rw [h.toState_eq, (h.owner (Nat.lt_of_succ_lt hi) hi hdecides).1,
      ReviewAction.target]
  rw [← isAppeal_take hi, hkind, decisionAction]
  by_cases happeal : isAppeal (events.take (i + 1)) = true
  · rw [if_pos happeal]
    exact iff_of_true rfl happeal
  · rw [if_neg happeal]
    exact iff_of_false (by decide) happeal

/-- After a first decision there is an appeal before anything else is decided. -/
theorem Trail.decided_lt (h : Trail H caseId events) {i j : ℕ} (hij : i < j)
    (hj : j < events.length) (hi : events[i].action = .decided) : events[j].action ≠ .decided := by
  intro hdecided
  have happealed : events[i + 1].action = .appealed :=
    (h.appealed_succ (by omega) (by omega)).mpr (.inl hi)
  have hne : i + 1 ≠ j := by
    rintro rfl
    rw [happealed] at hdecided
    cases hdecided
  have happealDecided := (h.kind hj (.inl hdecided)).mpr ⟨i + 1, by omega, happealed⟩
  rw [hdecided] at happealDecided
  cases happealDecided

theorem Trail.senior (h : Trail H caseId events) {i : ℕ} (hi : i < events.length)
    (haction : events[i].action = .claimed ∨ events[i].action = .appealDecided)
    (happealed : ∃ j, ∃ hj : j < i, events[j].action = .appealed) :
    events[i].actorRole = some .seniorReviewer := by
  have hne : events[i].action ≠ .created ∧ events[i].action ≠ .appealed := by
    rcases haction with haction | haction <;> rw [haction] <;> decide
  obtain ⟨i, rfl⟩ := h.ne_zero_of_action_ne hi hne.1
  exact (h.continues hi).senior ((isAppeal_take hi).mpr happealed) hne.2

theorem Trail.not_auditor (h : Trail H caseId events) {i : ℕ} (hi : i < events.length) :
    events[i].actorRole ≠ some .auditor := by
  cases i with
  | zero =>
    rw [(h.opens hi).actorRole_eq]
    exact (Option.some_ne_none _).symm
  | succ i =>
    obtain ⟨role, hrole, hreviews⟩ := (h.continues hi).reviews
    rw [hrole]
    rintro ⟨⟩
    cases hreviews

theorem Trail.cycle (h : Trail H caseId events) {i k : ℕ} (hik : i < k) (hk : k < events.length)
    (hclaimed : events[i].action = .claimed) (hclaimed' : events[k].action = .claimed)
    (hbetween : ∀ j (_ : i < j) (_ : j < k), events[j].action ≠ .claimed) :
    ∃ _ : k = i + 3, events[i + 1].action.Decides ∧ events[i + 2].action = .appealed := by
  have hdecides : events[i + 1].action.Decides :=
    (h.decides_succ (by omega) (by omega)).mpr hclaimed
  -- The next claim is not where the decision is, nor where the appeal is.
  have hk1 : k ≠ i + 1 := by
    rintro rfl
    rw [hclaimed'] at hdecides
    revert hdecides
    decide
  have happealed : events[i + 2].action = .appealed :=
    (h.appealed_succ (by omega) (by omega)).mpr hdecides
  have hk2 : k ≠ i + 2 := by
    rintro rfl
    rw [hclaimed'] at happealed
    cases happealed
  have hnext : events[i + 3].action = .claimed := h.claimed_succ (by omega) (by omega) happealed
  have hk3 : k = i + 3 := by
    by_contra hne
    exact hbetween (i + 3) (by omega) (by omega) hnext
  exact ⟨hk3, hdecides, happealed⟩

theorem Trail.authorized (h : Trail H caseId events) : Authorized events where
  owner i hi hdecides := by
    obtain ⟨j, rfl⟩ := h.ne_zero_of_action_ne hi hdecides.ne_created
    exact ⟨j, rfl, h.owner (Nat.lt_of_succ_lt hi) hi hdecides⟩
  kind _ hi hdecides := h.kind hi hdecides
  decidedOnce i j hi hj hdecided hdecided' := by
    rcases Nat.lt_trichotomy i j with hlt | heq | hlt
    · exact absurd hdecided' (h.decided_lt hlt hj hdecided)
    · exact heq
    · exact absurd hdecided (h.decided_lt hlt hi hdecided')
  senior _ hi haction happealed := h.senior hi haction happealed
  notAuditor event hevent := by
    obtain ⟨i, hi, rfl⟩ := List.getElem_of_mem hevent
    exact h.not_auditor hi
  cycle _ _ hik hk hclaimed hclaimed' hbetween := h.cycle hik hk hclaimed hclaimed' hbetween

/-! ## Competing claims -/

variable {repository : InMemoryReviewRepository} {case : ReviewCase}

theorem claim_of_claimed (hget : repository.get caseId = some case) (hstate : case.state = .claimed)
    (principal : ReviewPrincipal) (now : DateTime) (stamp : Stamp) :
    ∃ error, (ReviewCall.claim caseId principal now stamp).perform H repository
      = (repository, .error error) := by
  have hplan : ∃ error,
      ReviewService.claim H repository caseId principal now stamp = .error error := by
    rw [ReviewService.claim, hget]
    simp only [hstate]
    split_ifs with hrole hsenior hfree
    · exact ⟨_, rfl⟩
    · exact ⟨_, rfl⟩
    · exact ⟨_, rfl⟩
    · exact absurd ⟨by decide, by decide⟩ hfree
  obtain ⟨error, hplan⟩ := hplan
  refine ⟨error, ?_⟩
  rw [ReviewCall.perform, ReviewCall.plan, hplan]

/-- Calls of `claim` for one case. -/
def competingClaims (caseId : String) (claims : List (ReviewPrincipal × DateTime × Stamp)) :
    List ReviewCall :=
  claims.map fun claim ↦ .claim caseId claim.1 claim.2.1 claim.2.2

theorem no_claim_succeeds (hget : repository.get caseId = some case)
    (hstate : case.state = .claimed) (claims : List (ReviewPrincipal × DateTime × Stamp)) :
    (ReviewCall.outcomes H repository (competingClaims caseId claims)).countP Except.isOk = 0 := by
  induction claims with
  | nil => rfl
  | cons claim claims ih =>
    obtain ⟨error, hperform⟩ := claim_of_claimed (H := H) hget hstate claim.1 claim.2.1 claim.2.2
    rw [competingClaims, List.map_cons, ReviewCall.outcomes, hperform, List.countP_cons]
    exact ih

theorem Consistent.claimed_of_claim (h : Consistent H repository) {principal : ReviewPrincipal}
    {now : DateTime} {stamp : Stamp} {repository' : InMemoryReviewRepository}
    {found : Option ReviewCase}
    (hperform : (ReviewCall.claim caseId principal now stamp).perform H repository
      = (repository', .ok found)) :
    ∃ case, repository'.get caseId = some case ∧ case.state = .claimed := by
  rw [ReviewCall.perform] at hperform
  split at hperform
  · cases hperform
  · rename_i hplan
    obtain ⟨response, createdAt, updatedAt, stamp', hcall, -⟩ := ReviewCall.result_of_plan hplan
    cases hcall
  · rename_i case event hplan
    have hcommits := ReviewCall.commits_of_plan hplan
    cases hperform
    cases hcommits with
    | claimed _ _ _ _ old hrole hget hsenior hstate =>
      have hcaseId : old.caseId = caseId := (h.kept hget).caseId_eq
      refine ⟨claimedCase old principal now, ?_, rfl⟩
      rw [← hcaseId]
      exact get_commit_self

theorem Consistent.claims_succeed_le_one (h : Consistent H repository) (caseId : String)
    (claims : List (ReviewPrincipal × DateTime × Stamp)) :
    (ReviewCall.outcomes H repository (competingClaims caseId claims)).countP Except.isOk ≤ 1 := by
  induction claims with
  | nil => exact Nat.zero_le 1
  | cons claim claims ih =>
    rw [competingClaims, List.map_cons, ReviewCall.outcomes, List.countP_cons]
    -- A claim that raises leaves the others where they were; behind one that succeeds none does.
    cases hperform : (ReviewCall.claim caseId claim.1 claim.2.1 claim.2.2).perform H repository with
    | mk repository' outcome =>
      cases outcome with
      | error error =>
        have hsame : repository' = repository :=
          ReviewCall.perform_error hperform
        rw [hsame]
        exact ih
      | ok found =>
        obtain ⟨case, hget, hstate⟩ := h.claimed_of_claim hperform
        have hrest := no_claim_succeeds (H := H) hget hstate claims
        rw [competingClaims] at hrest
        rw [hrest]
        exact Nat.le_refl 1

/-- **Only the reviewer who has claimed a case decides it**, with the authority that its history
asks for, and of competing claims at most one succeeds. -/
theorem authority_over_histories (H : ReviewHashing) (hH : H.Uuid5Sound) (calls : List ReviewCall)
    (hcolon : ∀ call ∈ calls, call.ColonFree) (repository : InMemoryReviewRepository)
    (hrun : Transition.run (ReviewCall.step H) empty calls = some repository) :
    (∀ caseId case, repository.get caseId = some case → Authorized (repository.audit caseId)) ∧
      ∀ caseId claims, (ReviewCall.outcomes H repository (competingClaims caseId claims)).countP
        Except.isOk ≤ 1 := by
  have h := consistent_of_run hH hcolon hrun
  refine ⟨fun caseId case hget ↦ ?_, h.claims_succeed_le_one⟩
  exact (h.kept hget).recorded.trail.authorized

/-- The log of the sample case. -/
theorem authority_over_histories_sample : ∃ repository,
    Transition.run (ReviewCall.step ReviewSample.hashing) empty ReviewSample.calls
      = some repository ∧ Authorized (repository.audit ReviewSample.caseId) := by
  obtain ⟨repository, hrun, hget⟩ := ReviewSample.run_calls
  exact ⟨repository, hrun, (authority_over_histories ReviewSample.hashing ReviewSample.uuid5Sound
    ReviewSample.calls (by decide) repository hrun).1 _ _ hget⟩

end Sentinel
