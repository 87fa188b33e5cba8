import Mathlib.Tactic.IntervalCases
import Sentinel.Distributed.Consistency

/-!
# When an accepted job is queued

The record of a job exists before its event does. In between, the job is owed by one call, the one
that has created the record: it is going to publish the event, or to record that it could not. All
other calls find the record, take it at its word and return it. As long as the call that owes the
job survives, the debt is paid. If it dies, nobody else knows of the debt: until then no other call
had anything to do with the job, and from then on every call returns the record as it is. So the
job is queued in the end exactly if that call has not died owing it.

Only submissions act in this file. A worker needs an event to do anything.
-/

namespace Sentinel

/-- The action is one of a call of `submit`. -/
def Action.isSubmission : Action → Bool
  | .submit _ _ _ _ | .submitStep _ _ _ | .submitCrash _ => true
  | _ => false

/-- The call has created the record, and has neither published the event nor recorded the failure
to do so. -/
def SubmitPoint.owes : SubmitPoint → Bool
  | .publish _ false | .saveFailed _ false => true
  | _ => false

def System.creatorSurvives (H : Hashing) (jobId : String) (s : System) : Action → Bool
  | .submitCrash client =>
    !(s.submits client).any fun call ↦ decide (call.jobId H = jobId) && call.point.owes
  | _ => true

def SubmitPoint.holds : SubmitPoint → Bool
  | .publish _ _ | .saveFailed _ _ | .saveAccepted _ => true
  | _ => false

theorem SubmitPoint.holds_of_owes {point : SubmitPoint} (h : point.owes = true) :
    point.holds = true := by
  cases point <;> first | rfl | cases h

theorem SubmitPoint.inProgress_of_owes {point : SubmitPoint} (h : point.owes = true) :
    point.inProgress = true := by
  cases point <;> first | rfl | cases h

def Cluster.Queued (c : Cluster) (jobId : String) : Prop :=
  ∃ event, event.jobId = jobId ∧ c.Published .input jobId (.event event)

/-- The record says that a replay has to publish the event. -/
def StoredModerationJob.QueuePublishFailed (record : StoredModerationJob) : Prop :=
  record.job.state = .failed ∧ record.job.errorCode = some "queue_publish_failed"

/-- The job has no record, or somebody sees to it that it is queued: an event has been
acknowledged, a replay is asked for, or a call owes it. -/
def System.SeenTo (H : Hashing) (s : System) (jobId : String) : Prop :=
  (s.cluster.store.get jobId).isSome →
    s.cluster.Queued jobId ∨
    (∃ record, s.cluster.store.get jobId = some record ∧ record.QueuePublishFailed) ∨
    ∃ client call, s.submits client = some call ∧ call.jobId H = jobId ∧ call.point.owes = true

/-- What a call has achieved at the points where it matters. -/
def SubmitAchieved (H : Hashing) (c : Cluster) (call : SubmitCall) : Prop :=
  match call.point with
  | .saveFailed record _ => record.QueuePublishFailed
  | .saveAccepted _ => c.Queued (call.jobId H)
  | .returned _ => ∃ original ∈ c.created, original.job.jobId = call.jobId H
  | _ => True

theorem Cluster.Queued.mono {c c' : Cluster} {jobId : String} (hgrows : c.Grows c')
    (h : c.Queued jobId) : c'.Queued jobId := by
  obtain ⟨event, hid, hpublished⟩ := h
  exact ⟨event, hid, hpublished.mono hgrows⟩

theorem Backed.exists_created {c : Cluster} {jobId : String} {record : StoredModerationJob}
    (h : Backed c jobId record) : ∃ original ∈ c.created, original.job.jobId = jobId := by
  obtain ⟨original, hmem, hsame⟩ := h.created
  exact ⟨original, hmem, hsame.jobId.symm.trans h.jobId_eq⟩

namespace SubmitAchieved

variable {H : Hashing} {c c' : Cluster} {call : SubmitCall} {point : SubmitPoint}

theorem mono (hgrows : c.Grows c') (h : SubmitAchieved H c call) : SubmitAchieved H c' call := by
  rw [SubmitAchieved] at h ⊢
  split at h
  · exact h
  · exact h.mono hgrows
  · obtain ⟨original, hmem, hid⟩ := h
    exact ⟨original, hgrows.created.subset hmem, hid⟩
  · trivial

theorem moves (hstore : StoreBacked c) (hcall : SubmitBacked H c call)
    (hmoves : call.Moves H c c' point) : SubmitAchieved H c' { call with point := point } := by
  have hgrows := hmoves.grows
  cases hmoves with
  | created | taken | disappeared | conflict | replay | failed => trivial
  | existing existing hpoint hget => exact (hstore _ _ hget).exists_created
  | published storedJob hpoint =>
    rw [SubmitBacked, hpoint] at hcall
    exact (hcall.1.mono hgrows).exists_created
  | republished => exact ⟨call.event H, rfl, c.published_append _ _ _⟩
  | unpublished => exact ⟨rfl, rfl⟩
  | accepted record hpoint =>
    rw [SubmitBacked, hpoint] at hcall
    exact (hcall.1.mono hgrows).exists_created

end SubmitAchieved

theorem isInductive_achieved (H : Hashing) (maxAttempts : ℤ) :
    System.IsInductive H maxAttempts (fun _ ↦ True) StoreBacked
      (fun c call ↦ SubmitBacked H c call ∧ SubmitAchieved H c call) DeliveryBacked where
  submit_mono hgrows h := ⟨h.1.mono hgrows, h.2.mono hgrows⟩
  delivery_mono := DeliveryBacked.mono
  submit _ _ now _ := ⟨⟨now, rfl⟩, trivial⟩
  submitStep h hcall hmoves := by
    obtain ⟨hstore, hbacked⟩ := hcall.1.moves h hmoves
    exact ⟨hstore, hbacked, SubmitAchieved.moves h hcall.1 hmoves⟩
  submitCrash _ := ⟨trivial, trivial⟩
  poll _ _ := trivial
  processStep := DeliveryBacked.moves
  commit h _ _ := h.congr (Cluster.grows_commit _ _) rfl
  expire jobId _ h := h.expire jobId

theorem SubmitCall.Moves.get_of_ne {H : Hashing} {c c' : Cluster} {call : SubmitCall}
    {point : SubmitPoint} {jobId : String} (hcall : SubmitBacked H c call)
    (hmoves : call.Moves H c c' point) (hne : jobId ≠ call.jobId H) :
    c'.store.get jobId = c.store.get jobId := by
  cases hmoves with
  | created storedJob hpoint hfree =>
    rw [SubmitBacked, hpoint] at hcall
    obtain ⟨now, rfl⟩ := hcall
    exact (RedisJobStore.get_set _ _ _).trans (if_neg hne)
  | taken | disappeared | conflict | replay | existing | published | republished => rfl
  | unpublished storedJob replay now c' hpoint hc' => rcases hc' with rfl | rfl <;> rfl
  | failed record replay hpoint | accepted record hpoint =>
    rw [SubmitBacked, hpoint] at hcall
    exact RedisJobStore.get_save_of_ne (hcall.1.jobId_eq.symm ▸ hne)

theorem SubmitCall.Moves.queued_of_ne {H : Hashing} {c c' : Cluster} {call : SubmitCall}
    {point : SubmitPoint} {jobId : String} (hmoves : call.Moves H c c' point)
    (hne : jobId ≠ call.jobId H) (h : c'.Queued jobId) : c.Queued jobId := by
  have happend : ∀ {acknowledged},
      (c.append ⟨.input, call.jobId H, .event (call.event H), acknowledged⟩).Queued jobId →
        c.Queued jobId := by
    rintro acknowledged ⟨event, hid, hmem⟩
    rcases List.mem_append.mp hmem with hmem | hmem
    · exact ⟨event, hid, hmem⟩
    · cases List.mem_singleton.mp hmem
      exact absurd rfl hne
  cases hmoves with
  | created | taken | disappeared | conflict | replay | existing | failed | accepted => exact h
  | published | republished => exact happend h
  | unpublished storedJob replay now c' hpoint hc' =>
    rcases hc' with rfl | rfl
    · exact h
    · exact happend h

theorem SubmitCall.Moves.get_eq_none {H : Hashing} {c c' : Cluster} {call : SubmitCall}
    {point : SubmitPoint} {jobId : String} (hmoves : call.Moves H c c' point)
    (h : c'.store.get jobId = none) : c.store.get jobId = none := by
  have hsave : ∀ {record}, (c.save record).store.get jobId = none → c.store.get jobId = none := by
    intro record hnone
    rw [Cluster.save, RedisJobStore.get_save] at hnone
    split_ifs at hnone
    exact hnone
  cases hmoves with
  | created storedJob =>
    rw [RedisJobStore.get_set] at h
    split_ifs at h
    exact h
  | taken | disappeared | conflict | replay | existing | published | republished => exact h
  | unpublished storedJob replay now c' hpoint hc' => rcases hc' with rfl | rfl <;> exact h
  | failed | accepted => exact hsave h

namespace System

variable {H : Hashing} {maxAttempts : ℤ} {s s' : System} {a : Action} {jobId : String}

/-- A job stays seen to if its record and the calls that owe it stay. -/
theorem SeenTo.transfer (h : s.SeenTo H jobId) (hgrows : s.cluster.Grows s'.cluster)
    (hget : s'.cluster.store.get jobId = s.cluster.store.get jobId)
    (howes : ∀ client call, s.submits client = some call → call.jobId H = jobId →
      call.point.owes = true → s'.submits client = some call) : s'.SeenTo H jobId := by
  intro hsome
  rw [hget] at hsome ⊢
  rcases h hsome with hqueued | hfailed | ⟨client, call, hcall, hid, hpoint⟩
  · exact Or.inl (hqueued.mono hgrows)
  · exact Or.inr (Or.inl hfailed)
  · exact Or.inr (Or.inr ⟨client, call, howes client call hcall hid hpoint, hid, hpoint⟩)

theorem SeenTo.submitStep {c' : Cluster} {client : ℕ} {call : SubmitCall} {point : SubmitPoint}
    (h : s.SeenTo H (call.jobId H)) (hsubmit : s.submits client = some call)
    (hcall : SubmitBacked H s.cluster call) (hachieved : SubmitAchieved H s.cluster call)
    (hmoves : call.Moves H s.cluster c' point) :
    SeenTo H
      { s with
        cluster := c'
        submits := Function.update s.submits client (some { call with point := point }) }
      (call.jobId H) := by
  have hgrows := hmoves.grows
  -- a call that owes nothing may move without anything being lost
  have hothers : call.point.owes = false → ∀ client' call', s.submits client' = some call' →
      call'.jobId H = call.jobId H → call'.point.owes = true →
      Function.update s.submits client (some { call with point := point }) client'
        = some call' := by
    intro hpoint client' call' hcall' hid howes
    have hne : client' ≠ client := by
      rintro rfl
      cases hsubmit.symm.trans hcall'
      rw [hpoint] at howes
      cases howes
    rw [Function.update_of_ne hne]
    exact hcall'
  cases hmoves with
  | created storedJob =>
    exact fun _ ↦ Or.inr (Or.inr ⟨client, _, Function.update_self .., rfl, rfl⟩)
  | taken storedJob hpoint => exact h.transfer hgrows rfl (hothers (by rw [hpoint]; rfl))
  | disappeared hpoint => exact h.transfer hgrows rfl (hothers (by rw [hpoint]; rfl))
  | conflict existing hpoint | replay existing hpoint | existing existing hpoint =>
    exact h.transfer hgrows rfl (hothers (by rw [hpoint]; rfl))
  | published | republished =>
    exact fun _ ↦ Or.inl ⟨call.event H, rfl, s.cluster.published_append _ _ _⟩
  | unpublished storedJob replay now c' hpoint hc' =>
    cases replay with
    | false => exact fun _ ↦ Or.inr (Or.inr ⟨client, _, Function.update_self .., rfl, rfl⟩)
    | true =>
      have hsame : c'.store = s.cluster.store := by rcases hc' with rfl | rfl <;> rfl
      exact h.transfer hgrows (by rw [hsame]) (hothers (by rw [hpoint]; rfl))
  | failed record replay hpoint =>
    rw [SubmitBacked, hpoint] at hcall
    rw [SubmitAchieved, hpoint] at hachieved
    intro hsome
    rw [Cluster.save, RedisJobStore.isSome_get_save] at hsome
    refine Or.inr (Or.inl ⟨record, ?_, hachieved⟩)
    rw [Cluster.save, RedisJobStore.get_save, if_pos ⟨hcall.1.jobId_eq.symm, hsome⟩]
  | accepted record hpoint =>
    rw [SubmitAchieved, hpoint] at hachieved
    exact fun _ ↦ Or.inl (hachieved.mono hgrows)

/-- **A job stays seen to** while no call dies that owes it. -/
theorem Moves.seenTo
    (hs : s.Holds StoreBacked (fun c call ↦ SubmitBacked H c call ∧ SubmitAchieved H c call)
      DeliveryBacked)
    (h : s.SeenTo H jobId) (hsubmission : a.isSubmission = true)
    (hsurvives : s.creatorSurvives H jobId a = true) (hmoves : s.Moves H maxAttempts a s') :
    s'.SeenTo H jobId := by
  have hgrows := hmoves.grows
  cases hmoves with
  | submit client request uuid4 now hfree =>
    refine h.transfer hgrows rfl fun client' call' hcall' _ _ ↦ ?_
    have hne : client' ≠ client := by
      rintro rfl
      cases hfree.symm.trans hcall'
    exact (Function.update_of_ne hne _ _).trans hcall'
  | submitStep client now outcome call cluster point hcall hmoves =>
    obtain ⟨hbacked, hachieved⟩ := hs.submits hcall
    by_cases hid : jobId = call.jobId H
    · subst hid
      exact h.submitStep hcall hbacked hachieved hmoves
    · refine h.transfer hgrows (hmoves.get_of_ne hbacked hid) fun client' call' hcall' hid' _ ↦ ?_
      have hne : client' ≠ client := by
        rintro rfl
        cases hcall.symm.trans hcall'
        exact hid hid'.symm
      exact (Function.update_of_ne hne _ _).trans hcall'
  | submitCrash client call hcall hin =>
    refine h.transfer hgrows rfl fun client' call' hcall' hid howes ↦ ?_
    have hne : client' ≠ client := by
      rintro rfl
      rw [creatorSurvives, hcall'] at hsurvives
      simp [hid, howes] at hsurvives
    exact (Function.update_of_ne hne _ _).trans hcall'
  | poll | processStep | commit | workerCrash | expire => cases hsubmission

/-! ## A debt that nobody pays -/

/-- No call is at work on the job, except perhaps the one of the owner. -/
def QuietExcept (H : Hashing) (submits : ℕ → Option SubmitCall) (jobId : String)
    (owner : Option ℕ) : Prop :=
  ∀ client call, some client ≠ owner → submits client = some call → call.jobId H = jobId →
    call.point.holds = false

/-- The job has a record that asks for no replay, no event of it has been acknowledged, and only the
owner may be at work on it. -/
structure Unqueued (H : Hashing) (s : System) (jobId : String) (owner : Option ℕ) : Prop where
  stored : ∃ record, s.cluster.store.get jobId = some record ∧ ¬record.QueuePublishFailed
  unpublished : ¬s.cluster.Queued jobId
  quiet : QuietExcept H s.submits jobId owner

/-- While the job has no record, nothing has been done about it; and while a call owes the job,
nobody else does anything about it. -/
structure Owned (H : Hashing) (s : System) (jobId : String) : Prop where
  unpublished : s.cluster.store.get jobId = none → ¬s.cluster.Queued jobId
  quiet : s.cluster.store.get jobId = none → QuietExcept H s.submits jobId none
  owes : ∀ client call, s.submits client = some call → call.jobId H = jobId →
    call.point.owes = true → s.Unqueued H jobId (some client)

theorem QuietExcept.update {submits : ℕ → Option SubmitCall} {owner owner' : Option ℕ} {client : ℕ}
    {call : SubmitCall} (h : QuietExcept H submits jobId owner)
    (howner : ∀ client', client' ≠ client → some client' ≠ owner' → some client' ≠ owner)
    (hnew : some client ≠ owner' → call.jobId H = jobId → call.point.holds = false) :
    QuietExcept H (Function.update submits client (some call)) jobId owner' := by
  intro client' call' hne hcall' hid
  rw [Function.update_apply] at hcall'
  split_ifs at hcall' with hclient
  · cases hcall'
    exact hnew (hclient ▸ hne) hid
  · exact h client' call' (howner client' hclient hne) hcall' hid

/-- Nobody queues an unqueued job: not the other calls, if one owes it, and no call at all, if that
one is dead. -/
theorem Unqueued.submitStep {owner : Option ℕ} {c' : Cluster} {client : ℕ} {call : SubmitCall}
    {point : SubmitPoint} (h : s.Unqueued H jobId owner) (hne : some client ≠ owner)
    (hsubmit : s.submits client = some call) (hcall : SubmitBacked H s.cluster call)
    (hmoves : call.Moves H s.cluster c' point) :
    Unqueued H
      { s with
        cluster := c'
        submits := Function.update s.submits client (some { call with point := point }) }
      jobId owner := by
  by_cases hid : jobId = call.jobId H
  · subst hid
    have hholds : call.point.holds = false := h.quiet client call hne hsubmit rfl
    obtain ⟨record, hget, hrecord⟩ := h.stored
    cases hmoves with
    | created storedJob hpoint hfree =>
      rw [SubmitBacked, hpoint] at hcall
      obtain ⟨now, rfl⟩ := hcall
      cases hfree.symm.trans hget
    | replay existing hpoint hget' heq hfailed =>
      cases hget.symm.trans hget'
      exact absurd hfailed hrecord
    | taken | disappeared | conflict | existing =>
      exact ⟨h.stored, h.unpublished, h.quiet.update (fun _ _ ↦ id) fun _ _ ↦ rfl⟩
    | published storedJob hpoint | republished storedJob now hpoint
    | unpublished storedJob replay now c' hpoint | failed record replay hpoint
    | accepted record hpoint =>
      rw [hpoint] at hholds
      cases hholds
  · -- the call is about another job
    obtain ⟨record, hget, hrecord⟩ := h.stored
    exact ⟨⟨record, (hmoves.get_of_ne hcall hid).trans hget, hrecord⟩,
      fun hqueued ↦ h.unpublished (hmoves.queued_of_ne hid hqueued),
      h.quiet.update (fun _ _ ↦ id) fun _ hid' ↦ absurd hid'.symm hid⟩

theorem Unqueued.update {owner : Option ℕ} (h : s.Unqueued H jobId owner) (client : ℕ)
    {call : SubmitCall} (hpoint : call.point.holds = false) :
    Unqueued H { s with submits := Function.update s.submits client (some call) } jobId owner :=
  ⟨h.stored, h.unpublished, h.quiet.update (fun _ _ ↦ id) fun _ _ ↦ hpoint⟩

theorem Unqueued.moves (hsound : s.Sound H) (h : s.Unqueued H jobId none)
    (hsubmission : a.isSubmission = true) (hmoves : s.Moves H maxAttempts a s') :
    s'.Unqueued H jobId none := by
  cases hmoves with
  | submit client request uuid4 now hfree => exact h.update client rfl
  | submitCrash client call hcall hin => exact h.update client rfl
  | submitStep client now outcome call cluster point hcall hmoves =>
    exact h.submitStep (by simp) hcall (hsound.submits hcall) hmoves
  | poll | processStep | commit | workerCrash | expire => cases hsubmission

/-- A step of a call about a job that has no record, and still has none afterwards. -/
theorem Owned.without_record {c' : Cluster} {client : ℕ} {call : SubmitCall} {point : SubmitPoint}
    (h : s.Owned H (call.jobId H)) (hsubmit : s.submits client = some call)
    (hcall : SubmitBacked H s.cluster call) (hmoves : call.Moves H s.cluster c' point)
    (hnone : c'.store.get (call.jobId H) = none) :
    c' = s.cluster ∧ point.holds = false := by
  have hbefore : s.cluster.store.get (call.jobId H) = none := hmoves.get_eq_none hnone
  have hholds : call.point.holds = false := h.quiet hbefore client call (by simp) hsubmit rfl
  cases hmoves with
  | created storedJob hpoint hfree =>
    rw [SubmitBacked, hpoint] at hcall
    obtain ⟨now, rfl⟩ := hcall
    rw [RedisJobStore.get_set, if_pos (by rfl)] at hnone
    cases hnone
  | taken | disappeared => exact ⟨rfl, rfl⟩
  | conflict existing hpoint hget | replay existing hpoint hget | existing existing hpoint hget =>
    cases hbefore.symm.trans hget
  | published storedJob hpoint | republished storedJob now hpoint
  | unpublished storedJob replay now c' hpoint | failed record replay hpoint
  | accepted record hpoint =>
    rw [hpoint] at hholds
    cases hholds

theorem Owned.unqueued_self {c' : Cluster} {client : ℕ} {call : SubmitCall} {point : SubmitPoint}
    (h : s.Owned H (call.jobId H)) (hsubmit : s.submits client = some call)
    (hcall : SubmitBacked H s.cluster call) (hmoves : call.Moves H s.cluster c' point)
    (howes : point.owes = true) :
    Unqueued H
      { s with
        cluster := c'
        submits := Function.update s.submits client (some { call with point := point }) }
      (call.jobId H) (some client) := by
  have hself : some client ≠ some client → call.jobId H = call.jobId H → point.holds = false :=
    fun hne _ ↦ absurd rfl hne
  cases hmoves with
  | created storedJob hpoint hfree =>
    rw [SubmitBacked, hpoint] at hcall
    obtain ⟨now, rfl⟩ := hcall
    refine ⟨⟨call.storedJob H now, ?_, ?_⟩, h.unpublished hfree,
      (h.quiet hfree).update (fun _ _ _ ↦ by simp) hself⟩
    · exact (RedisJobStore.get_set _ _ _).trans (if_pos rfl)
    · rintro ⟨hstate, hcode⟩
      cases hstate
  | unpublished storedJob replay now c' hpoint hc' =>
    have hbefore : call.point.owes = true := by
      rw [hpoint]
      cases replay with
      | false => rfl
      | true => cases howes
    have hunqueued := h.owes client call hsubmit rfl hbefore
    have hsame : c'.store = s.cluster.store := by rcases hc' with rfl | rfl <;> rfl
    refine ⟨hsame ▸ hunqueued.stored, ?_, hunqueued.quiet.update (fun _ _ ↦ id) hself⟩
    rcases hc' with rfl | rfl
    · exact hunqueued.unpublished
    · -- the broker has the event, but nobody has been told
      rintro ⟨event, hid, hmem⟩
      rcases List.mem_append.mp hmem with hmem | hmem
      · exact hunqueued.unpublished ⟨event, hid, hmem⟩
      · cases List.mem_singleton.mp hmem
  | taken | disappeared | conflict | replay | existing | published | republished | failed
  | accepted => cases howes

theorem Owned.moves (hsound : s.Sound H) (h : s.Owned H jobId)
    (hsubmission : a.isSubmission = true) (hmoves : s.Moves H maxAttempts a s') :
    s'.Owned H jobId := by
  -- a call has moved to a point where it owes nothing, and has done nothing
  have hidle : ∀ client (call : SubmitCall), call.point.holds = false →
      Owned H { s with submits := Function.update s.submits client (some call) } jobId := by
    intro client call hpoint
    refine ⟨h.unpublished, fun hnone ↦ ?_, fun client' call' hcall' hid howes ↦ ?_⟩
    · exact (h.quiet hnone).update (fun _ _ ↦ id) fun _ _ ↦ hpoint
    · simp only [Function.update_apply] at hcall'
      split_ifs at hcall'
      · cases hcall'
        rw [SubmitPoint.holds_of_owes howes] at hpoint
        cases hpoint
      · exact (h.owes client' call' hcall' hid howes).update client hpoint
  cases hmoves with
  | submit client request uuid4 now hfree => exact hidle client _ rfl
  | submitCrash client call hcall hin => exact hidle client _ rfl
  | submitStep client now outcome call cluster point hcall hmoves =>
    have hbacked := hsound.submits hcall
    refine ⟨fun hnone ↦ ?_, fun hnone ↦ ?_, fun client' call' hcall' hid howes ↦ ?_⟩
    · by_cases hid : jobId = call.jobId H
      · subst hid
        rw [(h.without_record hcall hbacked hmoves hnone).1]
        exact h.unpublished (hmoves.get_eq_none hnone)
      · exact fun hqueued ↦ h.unpublished (hmoves.get_eq_none hnone)
          (hmoves.queued_of_ne hid hqueued)
    · refine (h.quiet (hmoves.get_eq_none hnone)).update (fun _ _ ↦ id) fun _ hid ↦ ?_
      have hid' : jobId = call.jobId H := hid.symm
      subst hid'
      exact (h.without_record hcall hbacked hmoves hnone).2
    · simp only [Function.update_apply] at hcall'
      split_ifs at hcall' with hclient
      · cases hcall'
        have hid' : jobId = call.jobId H := hid.symm
        subst hclient hid'
        exact h.unqueued_self hcall hbacked hmoves howes
      · exact (h.owes client' call' hcall' hid howes).submitStep
          (fun heq ↦ hclient (Option.some_inj.mp heq).symm) hcall hbacked hmoves
  | poll | processStep | commit | workerCrash | expire => cases hsubmission

/-- A run of submissions kills no call that owes the job, or the job is never queued. -/
theorem along_or_unqueued {as : List Action} {t : System} (hsound : s.Sound H)
    (h : s.Owned H jobId) (hsubmission : ∀ a ∈ as, a.isSubmission = true)
    (hrun : run H maxAttempts s as = some t) :
    Transition.Along (step H maxAttempts) (fun s a ↦ s.creatorSurvives H jobId a = true) s as ∨
      t.Unqueued H jobId none := by
  induction as generalizing s with
  | nil => exact Or.inl trivial
  | cons a as ih =>
    obtain ⟨s', hstep, hrun'⟩ := Transition.run_cons_eq_some.mp hrun
    have ha : a.isSubmission = true := hsubmission a List.mem_cons_self
    have has : ∀ b ∈ as, b.isSubmission = true := fun b hb ↦
      hsubmission b (List.mem_cons_of_mem a hb)
    by_cases hsurvives : s.creatorSurvives H jobId a = true
    · rcases ih (hsound.step hstep) (h.moves hsound ha (moves_of_step hstep)) has hrun' with
        halong | hunqueued
      · refine Or.inl ⟨hsurvives, fun s'' hs'' ↦ ?_⟩
        cases hstep.symm.trans hs''
        exact halong
      · exact Or.inr hunqueued
    · right
      -- the call that owes the job dies, and the job is left to nobody
      have hdead : s'.Sound H ∧ s'.Unqueued H jobId none := by
        refine ⟨hsound.step hstep, ?_⟩
        cases moves_of_step hstep with
        | submitCrash client call hcall hin =>
          rw [creatorSurvives, hcall] at hsurvives
          simp only [Option.any_some, Bool.not_eq_true', Bool.not_eq_false, Bool.and_eq_true,
            decide_eq_true_eq] at hsurvives
          have howed := h.owes client call hcall hsurvives.1 hsurvives.2
          exact ⟨howed.stored, howed.unpublished, howed.quiet.update
            (fun _ hne _ heq ↦ hne (Option.some_inj.mp heq)) fun _ _ ↦ rfl⟩
        | _ => exact absurd rfl hsurvives
      refine (Transition.run_invariant_along (P := fun s ↦ s.Sound H ∧ s.Unqueued H jobId none)
        (C := fun _ a ↦ a.isSubmission = true) ?_ hdead
        (Transition.along_of_forall id s' has) hrun').2
      exact fun hs hC hstep ↦ ⟨hs.1.step hstep, hs.2.moves hs.1 hC (moves_of_step hstep)⟩

theorem seenTo_of_along {as : List Action} (hrun : run H maxAttempts init as = some s)
    (hsubmission : ∀ a ∈ as, a.isSubmission = true)
    (hsurvives : Transition.Along (step H maxAttempts)
      (fun s a ↦ s.creatorSurvives H jobId a = true) init as) : s.SeenTo H jobId := by
  have hboth : Transition.Along (step H maxAttempts)
      (fun s a ↦ a.isSubmission = true ∧ s.creatorSurvives H jobId a = true) init as :=
    (Transition.along_of_forall id init hsubmission).and hsurvives
  have hinit : init.SeenTo H jobId := fun hsome ↦ by cases hsome
  refine (Transition.run_invariant_along (P := fun s ↦ s.Holds StoreBacked
    (fun c call ↦ SubmitBacked H c call ∧ SubmitAchieved H c call) DeliveryBacked ∧
      s.SeenTo H jobId) ?_ ⟨Holds.init fun _ _ hget ↦ (by cases hget), hinit⟩ hboth hrun).2
  intro s a s' hs hC hstep
  have hmoves := moves_of_step hstep
  exact ⟨(isInductive_achieved H maxAttempts).moves hs.1 trivial hmoves,
    hmoves.seenTo hs.1 hs.2 hC.1 hC.2⟩

theorem isSome_get_of_returned {as : List Action} (hrun : run H maxAttempts init as = some s)
    (hkeeps : ∀ a ∈ as, a.keepsKeys = true) {client : ℕ} {call : SubmitCall} {job : ModerationJob}
    (hcall : s.submits client = some call) (hreturned : call.point = .returned job) :
    (s.cluster.store.get (call.jobId H)).isSome := by
  have hholds := (isInductive_achieved H maxAttempts).run
    (Holds.init fun _ _ hget ↦ (by cases hget)) (fun _ _ ↦ trivial) hrun
  have hachieved := (hholds.submits hcall).2
  rw [SubmitAchieved, hreturned] at hachieved
  obtain ⟨original, hmem, hid⟩ := hachieved
  have honce : CreatedOnce s.cluster := createdOnce_of_run hkeeps hrun
  exact hid ▸ honce.isSome_get original hmem

end System

/-- **When an accepted job is really queued.** Submissions run in any order, their publications fail
or not, and any of them may die. Once a call has returned the job and no call for it is in progress
any more, an event for the job has been acknowledged or its record asks for a replay, if and only
if no call has died between the creation of the record and the publication or the record of its
failure. -/
theorem accepted_job_queued_iff (H : Hashing) (maxAttempts : ℤ) {as : List Action} {s : System}
    (hsubmission : ∀ a ∈ as, a.isSubmission = true)
    (hrun : System.run H maxAttempts System.init as = some s) {client : ℕ} {call : SubmitCall}
    {job : ModerationJob} (hcall : s.submits client = some call)
    (hreturned : call.point = .returned job)
    (hidle : ∀ client' call', s.submits client' = some call' → call'.jobId H = call.jobId H →
      call'.point.inProgress = false) :
    (s.cluster.Queued (call.jobId H) ∨
      ∃ record, s.cluster.store.get (call.jobId H) = some record ∧ record.QueuePublishFailed) ↔
    Transition.Along (System.step H maxAttempts)
      (fun s a ↦ s.creatorSurvives H (call.jobId H) a = true) System.init as := by
  constructor
  · intro houtcome
    have howned : System.init.Owned H (call.jobId H) := by
      refine ⟨fun _ hqueued ↦ ?_, fun _ client call _ hcall ↦ ?_, fun client call hcall ↦ ?_⟩
      · obtain ⟨event, hid, hmem⟩ := hqueued
        cases hmem
      · cases hcall
      · cases hcall
    have hempty : System.run H maxAttempts System.init [] = some System.init := rfl
    rcases System.along_or_unqueued (holds_backed hempty) howned hsubmission hrun with
      halong | hunqueued
    · exact halong
    · exfalso
      rcases houtcome with hqueued | ⟨record, hget, hfailed⟩
      · exact hunqueued.unpublished hqueued
      · obtain ⟨record', hget', hnot⟩ := hunqueued.stored
        cases hget.symm.trans hget'
        exact hnot hfailed
  · intro hsurvives
    have hkeeps : ∀ a ∈ as, a.keepsKeys = true := by
      intro a ha
      have hsub := hsubmission a ha
      cases a <;> first | rfl | cases hsub
    have hsome := System.isSome_get_of_returned hrun hkeeps hcall hreturned
    rcases System.seenTo_of_along hrun hsubmission hsurvives hsome with
      hqueued | hfailed | ⟨client', call', hcall', hid, howes⟩
    · exact Or.inl hqueued
    · exact Or.inr hfailed
    · have hidle' := hidle client' call' hcall' hid
      rw [SubmitPoint.inProgress_of_owes howes] at hidle'
      cases hidle'

/-- Two clients submit the request at once, and the one that finds the record returns first. -/
def System.sampleOverlap : List Action :=
  [.submit 0 sampleRequest "" sampleNow, .submit 1 sampleRequest "" sampleNow, sampleSubmit 0,
    sampleSubmit 1, sampleSubmit 1, sampleSubmit 0]

/-- Both clients have returned, and the event is out. -/
theorem accepted_job_queued_iff_sample : ∃ s,
    System.run Hashing.sample 3 System.init System.sampleOverlap = some s ∧
    (s.cluster.Queued System.sampleJobId ∨ ∃ record,
      s.cluster.store.get System.sampleJobId = some record ∧ record.QueuePublishFailed) := by
  let job : ModerationJob := { System.sampleRecord.job with state := .accepted, result := none }
  obtain ⟨s, hrun, hs⟩ := Option.bind_eq_some_iff.mp
    (show ((System.run Hashing.sample 3 System.init System.sampleOverlap).bind fun s ↦
      (s.submits 0).bind fun first ↦ (s.submits 1).map fun call ↦
        (first.point, call.jobId Hashing.sample, call.point)) =
          some (.returned job, System.sampleJobId, .returned job) by decide)
  obtain ⟨first, hfirst, hs⟩ := Option.bind_eq_some_iff.mp hs
  obtain ⟨call, hcall, hs⟩ := Option.map_eq_some_iff.mp hs
  obtain ⟨hfirstPoint, hid, hpoint⟩ : first.point = .returned job ∧
      call.jobId Hashing.sample = System.sampleJobId ∧ call.point = .returned job := by
    simpa only [Prod.mk.injEq] using hs
  obtain ⟨hothers, -⟩ := System.others_of_run
    (show ∀ a ∈ System.sampleOverlap, System.among 2 0 a = true by decide) hrun
  have hidle : ∀ client' call', s.submits client' = some call' →
      call'.jobId Hashing.sample = call.jobId Hashing.sample →
        call'.point.inProgress = false := by
    intro client' call' hcall' _
    rcases lt_or_ge client' 2 with hlt | hge
    · interval_cases client'
      · cases hfirst.symm.trans hcall'
        rw [hfirstPoint]
        rfl
      · cases hcall.symm.trans hcall'
        rw [hpoint]
        rfl
    · rw [hothers client' hge] at hcall'
      cases hcall'
  refine ⟨s, hrun, hid ▸ ?_⟩
  exact (accepted_job_queued_iff Hashing.sample 3 (by decide) hrun hcall hpoint hidle).mpr
    (by rw [hid]; decide)

/-- The first call dies after it has created the record, and the second call finds the record. -/
def System.sampleAbandoned : List Action :=
  [.submit 0 sampleRequest "" sampleNow, sampleSubmit 0, .submitCrash 0,
    .submit 1 sampleRequest "" sampleNow, sampleSubmit 1, sampleSubmit 1]

/-- **An accepted job with nothing behind it.** The second call returns the job as accepted, no
call is in progress, nothing has been published, and the record does not ask for a replay. -/
theorem accepted_job_abandoned : ∃ s call job,
    System.run Hashing.sample 3 System.init System.sampleAbandoned = some s ∧
    s.submits 1 = some call ∧ call.point = .returned job ∧ job.state = .accepted ∧
    (∀ client' call', s.submits client' = some call' → call'.point.inProgress = false) ∧
    ¬(s.cluster.Queued (call.jobId Hashing.sample) ∨ ∃ record,
      s.cluster.store.get (call.jobId Hashing.sample) = some record ∧
        record.QueuePublishFailed) := by
  let job : ModerationJob := { System.sampleRecord.job with state := .accepted, result := none }
  obtain ⟨s, hrun, hs⟩ := Option.bind_eq_some_iff.mp
    (show ((System.run Hashing.sample 3 System.init System.sampleAbandoned).bind fun s ↦
      (s.submits 0).bind fun dead ↦ (s.submits 1).bind fun call ↦
        (s.cluster.store.get (call.jobId Hashing.sample)).map fun record ↦
          (dead.point, call.point, record, s.cluster.log)) =
        some (.crashed, .returned job, { System.sampleRecord with job := job }, []) by decide)
  obtain ⟨dead, hdead, hs⟩ := Option.bind_eq_some_iff.mp hs
  obtain ⟨call, hcall, hs⟩ := Option.bind_eq_some_iff.mp hs
  obtain ⟨record, hget, hs⟩ := Option.map_eq_some_iff.mp hs
  obtain ⟨hdeadPoint, hpoint, rfl, hlog⟩ : dead.point = .crashed ∧ call.point = .returned job ∧
      record = { System.sampleRecord with job := job } ∧ s.cluster.log = [] := by
    simpa only [Prod.mk.injEq] using hs
  obtain ⟨hothers, -⟩ := System.others_of_run
    (show ∀ a ∈ System.sampleAbandoned, System.among 2 0 a = true by decide) hrun
  refine ⟨s, call, job, hrun, hcall, hpoint, rfl, ?_, ?_⟩
  · intro client' call' hcall'
    rcases lt_or_ge client' 2 with hlt | hge
    · interval_cases client'
      · cases hdead.symm.trans hcall'
        rw [hdeadPoint]
        rfl
      · cases hcall.symm.trans hcall'
        rw [hpoint]
        rfl
    · rw [hothers client' hge] at hcall'
      cases hcall'
  · rintro (⟨event, hid, hmem⟩ | ⟨record', hget', hfailed⟩)
    · rw [Cluster.Published, hlog] at hmem
      cases hmem
    · cases hget.symm.trans hget'
      cases hfailed.1

end Sentinel
