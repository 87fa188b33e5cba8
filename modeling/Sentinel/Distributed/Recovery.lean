import Sentinel.Distributed.Queued

/-!
# When replays do not multiply work

The first submission of a request is protected by the `SET NX`: one call creates the record, and as
long as the record does not say that the publication has failed, everybody else leaves the job to
that call. The recovery from a failed publication has no such protection. It reads the record,
publishes and saves, and until the save the record goes on asking for a replay, so that a second
call that reads it in the meantime recovers the job as well.

Take away this one overlap, and at any time at most one call is *holding* the job, that is, stands
before a publication or a save of its record. Who holds it determines how many events there can be:
none while the publication is still to come, one once it has been acknowledged, and the save that
follows makes sure that nobody publishes again.
-/

namespace Sentinel

/-- How many input events of the job the broker has acknowledged. -/
def Cluster.acknowledged (c : Cluster) (jobId : String) : ℕ :=
  c.log.countP fun message ↦
    message.topic = .input ∧ message.key = jobId ∧ message.acknowledged = true

def Action.replays (requestId : String) : Action → Bool
  | .submit _ request uuid4 _ => (SubmitCall.mk request uuid4 .get).requestId = requestId
  | .submitStep _ _ _ => true
  | _ => false

/-- The call is recovering a job whose publication has failed: it has read the record, and its last
save is still to come. -/
def SubmitPoint.recovers : SubmitPoint → Bool
  | .publish _ true | .saveFailed _ true | .saveAccepted _ => true
  | _ => false

/-- A call begins to recover a job only if no other call is recovering it. -/
def System.RecoversAlone (H : Hashing) (s : System) : Action → Prop
  | .submitStep client _ _ => ∀ call record, s.submits client = some call → call.point = .get →
      s.cluster.store.get (call.jobId H) = some record → record.QueuePublishFailed →
      ∀ client' call', s.submits client' = some call' → call'.jobId H = call.jobId H →
        call'.point.recovers = false
  | _ => True

namespace Cluster

variable {c : Cluster} {jobId : String}

theorem acknowledged_append (payload : Payload) :
    (c.append ⟨.input, jobId, payload, true⟩).acknowledged jobId = c.acknowledged jobId + 1 := by
  rw [acknowledged, append, List.countP_append, acknowledged]
  simp

theorem acknowledged_append_of_not (topic : Topic) (key : String) (payload : Payload) :
    (c.append ⟨topic, key, payload, false⟩).acknowledged jobId = c.acknowledged jobId := by
  rw [acknowledged, append, List.countP_append, acknowledged]
  simp

end Cluster

/-! ## The invariant -/

/-- What holds while a call stands at the point. -/
def SubmitPoint.Due (c : Cluster) (jobId : String) : SubmitPoint → Prop
  | .publish _ replay | .saveFailed _ replay => c.acknowledged jobId = 0 ∧
      (replay = false → ∀ record, c.store.get jobId = some record → ¬record.QueuePublishFailed)
  | .saveAccepted record => c.acknowledged jobId ≤ 1 ∧ ¬record.QueuePublishFailed
  | .create _ | .get | .returned _ | .raised _ | .crashed => True

theorem SubmitPoint.due_of_not_holds {c : Cluster} {jobId : String} {point : SubmitPoint}
    (h : point.holds = false) : point.Due c jobId := by
  cases point with
  | publish _ _ | saveFailed _ _ | saveAccepted _ => cases h
  | _ => trivial

theorem SubmitPoint.Due.le {c : Cluster} {jobId : String} {point : SubmitPoint}
    (h : point.Due c jobId) (hholds : point.holds = true) : c.acknowledged jobId ≤ 1 := by
  cases point with
  | publish _ _ | saveFailed _ _ => exact h.1.le.trans (Nat.zero_le 1)
  | saveAccepted _ => exact h.1
  | _ => cases hholds

/-- At most one call holds the job, and what has been published is due to it. -/
structure System.Single (H : Hashing) (requestId : String) (s : System) : Prop where
  same : ∀ {client call}, s.submits client = some call → call.requestId = requestId
  alone : ∀ {client client' call call'}, s.submits client = some call →
    s.submits client' = some call' → call.point.holds = true → call'.point.holds = true →
    client = client'
  due : ∀ {client call}, s.submits client = some call →
    call.point.Due s.cluster (jobIdOf H requestId)
  /-- A job that is held has a record. -/
  stored : ∀ {client call}, s.submits client = some call → call.point.holds = true →
    s.cluster.store.get (jobIdOf H requestId) ≠ none
  idle : (∀ client call, s.submits client = some call → call.point.holds = false) →
    s.cluster.acknowledged (jobIdOf H requestId) ≤ 1
  /-- While nobody holds the job, it has no event unless its record says so. -/
  unpublished : (∀ client call, s.submits client = some call → call.point.holds = false) →
    (∀ record, s.cluster.store.get (jobIdOf H requestId) = some record →
      record.QueuePublishFailed) → s.cluster.acknowledged (jobIdOf H requestId) = 0

namespace System

variable {H : Hashing} {maxAttempts : ℤ} {requestId : String} {s s' : System} {a : Action}
  {client : ℕ} {call : SubmitCall} {point : SubmitPoint} {c' : Cluster}

theorem single_init : init.Single H requestId where
  same h := by cases h
  alone h := by cases h
  due h := by cases h
  stored h := by cases h
  idle _ := Nat.zero_le 1
  unpublished _ _ := rfl

def afterSubmitStep (s : System) (client : ℕ) (call : SubmitCall) (point : SubmitPoint)
    (c' : Cluster) : System :=
  { s with
    cluster := c'
    submits := Function.update s.submits client (some { call with point := point }) }

namespace Single

theorem rest (h : s.Single H requestId) (hcall : s.submits client = some call)
    (hholds : call.point.holds = true) {client' : ℕ} {call' : SubmitCall} (hne : client' ≠ client)
    (hcall' : s.submits client' = some call') : call'.point.holds = false := by
  rw [← Bool.not_eq_true]
  exact fun hholds' ↦ hne (h.alone hcall' hcall hholds' hholds)

theorem le (h : s.Single H requestId) : s.cluster.acknowledged (jobIdOf H requestId) ≤ 1 := by
  by_cases hidle : ∀ client call, s.submits client = some call → call.point.holds = false
  · exact h.idle hidle
  · push Not at hidle
    obtain ⟨client, call, hcall, hholds⟩ := hidle
    exact (h.due hcall).le (Bool.of_not_eq_false hholds)

theorem moved (h : s.Single H requestId) (hcall : call.requestId = requestId)
    (hrest : ∀ client' call', client' ≠ client → s.submits client' = some call' →
      call'.point.holds = false)
    (hdue : point.Due c' (jobIdOf H requestId))
    (hstored : point.holds = true → c'.store.get (jobIdOf H requestId) ≠ none)
    (hidle : point.holds = false → c'.acknowledged (jobIdOf H requestId) ≤ 1 ∧
      ((∀ record, c'.store.get (jobIdOf H requestId) = some record →
        record.QueuePublishFailed) → c'.acknowledged (jobIdOf H requestId) = 0)) :
    (s.afterSubmitStep client call point c').Single H requestId := by
  have hself : (s.afterSubmitStep client call point c').submits client
      = some { call with point := point } := Function.update_self ..
  have hothers : ∀ {client' call'},
      (s.afterSubmitStep client call point c').submits client' = some call' →
      (client' = client ∧ call' = { call with point := point }) ∨
        (s.submits client' = some call' ∧ call'.point.holds = false) := by
    intro client' call' hcall'
    simp only [afterSubmitStep, Function.update_apply] at hcall'
    split_ifs at hcall' with hclient
    · exact .inl ⟨hclient, (Option.some_inj.mp hcall').symm⟩
    · exact .inr ⟨hcall', hrest client' call' hclient hcall'⟩
  -- if anybody holds the job now, it is this call
  have hholder : ∀ {client' call'},
      (s.afterSubmitStep client call point c').submits client' = some call' →
      call'.point.holds = true → client' = client ∧ point.holds = true := by
    intro client' call' hcall' hholds
    rcases hothers hcall' with ⟨rfl, rfl⟩ | ⟨-, hnot⟩
    · exact ⟨rfl, hholds⟩
    · rw [hholds] at hnot
      cases hnot
  refine ⟨fun hcall' ↦ ?_, fun hcall₁ hcall₂ hholds₁ hholds₂ ↦ ?_, fun hcall' ↦ ?_,
    fun hcall' hholds ↦ hstored (hholder hcall' hholds).2, fun hnobody ↦ ?_, fun hnobody ↦ ?_⟩
  · rcases hothers hcall' with ⟨rfl, rfl⟩ | ⟨hbefore, -⟩
    · exact hcall
    · exact h.same hbefore
  · exact (hholder hcall₁ hholds₁).1.trans (hholder hcall₂ hholds₂).1.symm
  · rcases hothers hcall' with ⟨rfl, rfl⟩ | ⟨-, hnot⟩
    · exact hdue
    · exact SubmitPoint.due_of_not_holds hnot
  · exact (hidle (hnobody _ _ hself)).1
  · exact (hidle (hnobody _ _ hself)).2

theorem passed (h : s.Single H requestId) (hcall : call.requestId = requestId)
    (hbefore : ∀ call', s.submits client = some call' → call'.point.holds = false)
    (hafter : point.holds = false) :
    (s.afterSubmitStep client call point s.cluster).Single H requestId := by
  have hothers : ∀ {client' call'},
      (s.afterSubmitStep client call point s.cluster).submits client' = some call' →
      call' = { call with point := point } ∨ s.submits client' = some call' := by
    intro client' call' hcall'
    simp only [afterSubmitStep, Function.update_apply] at hcall'
    split_ifs at hcall'
    · exact .inl (Option.some_inj.mp hcall').symm
    · exact .inr hcall'
  -- whoever holds the job now held it before
  have hholder : ∀ {client' call'},
      (s.afterSubmitStep client call point s.cluster).submits client' = some call' →
      call'.point.holds = true → s.submits client' = some call' := by
    intro client' call' hcall' hholds
    refine (hothers hcall').resolve_left ?_
    rintro rfl
    rw [hafter] at hholds
    cases hholds
  have hnobody : (∀ client' call',
      (s.afterSubmitStep client call point s.cluster).submits client' = some call' →
        call'.point.holds = false) →
      ∀ client' call', s.submits client' = some call' → call'.point.holds = false := by
    intro hnone client' call' hcall'
    by_cases hclient : client' = client
    · exact hbefore call' (hclient ▸ hcall')
    · exact hnone client' call' ((Function.update_of_ne hclient _ _).trans hcall')
  refine ⟨fun hcall' ↦ ?_, fun hcall₁ hcall₂ hholds₁ hholds₂ ↦ ?_, fun hcall' ↦ ?_,
    fun hcall' hholds ↦ h.stored (hholder hcall' hholds) hholds,
    fun hnone ↦ h.idle (hnobody hnone), fun hnone ↦ h.unpublished (hnobody hnone)⟩
  · rcases hothers hcall' with rfl | hsame
    · exact hcall
    · exact h.same hsame
  · exact h.alone (hholder hcall₁ hholds₁) (hholder hcall₂ hholds₂) hholds₁ hholds₂
  · rcases hothers hcall' with rfl | hsame
    · exact SubmitPoint.due_of_not_holds hafter
    · exact h.due hsame

theorem holds_of_free (h : s.Single H requestId)
    (hfree : s.cluster.store.get (jobIdOf H requestId) = none) {client' : ℕ} {call' : SubmitCall}
    (hcall' : s.submits client' = some call') : call'.point.holds = false := by
  rw [← Bool.not_eq_true]
  exact fun hholds ↦ h.stored hcall' hholds hfree

theorem holds_of_failed (h : s.Single H requestId) {record : StoredModerationJob}
    (hget : s.cluster.store.get (jobIdOf H requestId) = some record)
    (hfailed : record.QueuePublishFailed) {client' : ℕ} {call' : SubmitCall}
    (hcall' : s.submits client' = some call') (hrecovers : call'.point.recovers = false) :
    call'.point.holds = false := by
  have hdue := h.due hcall'
  cases hpoint : call'.point with
  | publish storedJob replay | saveFailed storedJob replay =>
    cases replay with
    | true =>
      rw [hpoint] at hrecovers
      cases hrecovers
    | false =>
      -- a first publication is only under way while the record does not say that it failed
      rw [hpoint] at hdue
      exact absurd hfailed (hdue.2 rfl record hget)
  | saveAccepted storedJob =>
    rw [hpoint] at hrecovers
    cases hrecovers
  | create _ | get | returned _ | raised _ | crashed => rfl

/-- **A step of a call keeps the job in one hand**, if nobody begins a recovery beside another. -/
theorem submitStep (hsound : s.Sound H) (h : s.Single H requestId)
    (hcall : s.submits client = some call) {now : DateTime} {outcome : PublishOutcome}
    (halone : s.RecoversAlone H (.submitStep client now outcome))
    (hmoves : call.Moves H s.cluster c' point) :
    (s.afterSubmitStep client call point c').Single H requestId := by
  obtain rfl := h.same hcall
  have hbacked := hsound.submits hcall
  have hdue := h.due hcall
  have hstored := h.stored hcall
  have hcount :
      (s.cluster.append ⟨.input, call.jobId H, .event (call.event H), true⟩).acknowledged
        (jobIdOf H call.requestId) = s.cluster.acknowledged (jobIdOf H call.requestId) + 1 :=
    Cluster.acknowledged_append _
  -- a call whose point is known to hold nothing
  have hidle : call.point.holds = false →
      ∀ call', s.submits client = some call' → call'.point.holds = false := by
    rintro hpoint call' hcall'
    cases hcall.symm.trans hcall'
    exact hpoint
  cases hmoves with
  | created storedJob hpoint hfree =>
    rw [SubmitBacked, hpoint] at hbacked
    obtain ⟨now, rfl⟩ := hbacked
    have hnobody : ∀ client' call', s.submits client' = some call' →
        call'.point.holds = false := fun client' call' ↦ h.holds_of_free hfree
    have hnone : s.cluster.acknowledged (jobIdOf H call.requestId) = 0 :=
      h.unpublished hnobody fun record hget ↦ by cases hfree.symm.trans hget
    have hget : (s.cluster.store.set (call.storedJob H now)).get (jobIdOf H call.requestId)
        = some (call.storedJob H now) := (RedisJobStore.get_set _ _ _).trans (if_pos rfl)
    refine h.moved rfl (fun client' call' _ ↦ hnobody client' call') ⟨hnone, ?_⟩ ?_
      (fun h ↦ by cases h)
    · rintro - record hrecord ⟨hstate, -⟩
      cases hget.symm.trans hrecord
      cases hstate
    · exact fun _ hget' ↦ by cases hget.symm.trans hget'
  | taken storedJob hpoint | disappeared hpoint | conflict existing hpoint
  | existing existing hpoint =>
    exact h.passed rfl (hidle (by rw [hpoint]; rfl)) rfl
  | replay existing hpoint hget heq hfailed =>
    have hnobody : ∀ client' call', s.submits client' = some call' →
        call'.point.holds = false := by
      intro client' call' hcall'
      have hjob : call'.jobId H = call.jobId H := congrArg (jobIdOf H) (h.same hcall')
      have hrecovers := halone call existing hcall hpoint hget hfailed client' call' hcall' hjob
      exact h.holds_of_failed hget hfailed hcall' hrecovers
    have hnone : s.cluster.acknowledged (jobIdOf H call.requestId) = 0 := by
      refine h.unpublished hnobody fun record hget' ↦ ?_
      cases hget.symm.trans hget'
      exact hfailed
    refine h.moved rfl (fun client' call' _ ↦ hnobody client' call')
      ⟨hnone, fun h ↦ by cases h⟩ ?_ (fun h ↦ by cases h)
    exact fun _ hget' ↦ by cases hget.symm.trans hget'
  | published storedJob hpoint =>
    rw [hpoint] at hdue hstored
    refine h.moved rfl (fun _ _ ↦ h.rest hcall (by rw [hpoint]; rfl)) trivial
      (fun h ↦ by cases h) fun _ ↦ ?_
    refine ⟨by rw [hcount, hdue.1], fun hfailed ↦ ?_⟩
    obtain ⟨record, hget⟩ := Option.ne_none_iff_exists'.mp (hstored rfl)
    exact absurd (hfailed record hget) (hdue.2 rfl record hget)
  -- a recovery that has published still holds the job, until its record says so
  | republished storedJob now hpoint =>
    rw [hpoint] at hdue hstored
    refine h.moved rfl (fun _ _ ↦ h.rest hcall (by rw [hpoint]; rfl))
      ⟨by rw [hcount, hdue.1], ?_⟩ (fun _ ↦ hstored rfl) (fun h ↦ by cases h)
    rintro ⟨hstate, -⟩
    cases hstate
  | unpublished storedJob replay now c' hpoint hc' =>
    rw [hpoint] at hdue hstored
    -- a message that the broker has not acknowledged does not count
    have hsame : c'.store = s.cluster.store ∧ c'.acknowledged (jobIdOf H call.requestId)
        = s.cluster.acknowledged (jobIdOf H call.requestId) := by
      rcases hc' with rfl | rfl
      · exact ⟨rfl, rfl⟩
      · exact ⟨rfl, Cluster.acknowledged_append_of_not _ _ _⟩
    refine h.moved rfl (fun _ _ ↦ h.rest hcall (by rw [hpoint]; rfl)) ?_ (fun _ ↦ ?_)
      (fun h ↦ by cases h)
    · rw [SubmitPoint.Due, hsame.1, hsame.2]
      exact hdue
    · rw [hsame.1]
      exact hstored rfl
  | failed record replay hpoint =>
    rw [hpoint] at hdue
    exact h.moved rfl (fun _ _ ↦ h.rest hcall (by rw [hpoint]; rfl)) trivial (fun h ↦ by cases h)
      fun _ ↦ ⟨hdue.1.le.trans (Nat.zero_le 1), fun _ ↦ hdue.1⟩
  | accepted record hpoint =>
    rw [hpoint] at hdue hstored
    rw [SubmitBacked, hpoint] at hbacked
    refine h.moved rfl (fun _ _ ↦ h.rest hcall (by rw [hpoint]; rfl)) trivial (fun h ↦ by cases h)
      fun _ ↦ ⟨hdue.1, fun hfailed ↦ ?_⟩
    have hget : (s.cluster.save record).store.get (jobIdOf H call.requestId) = some record := by
      refine (RedisJobStore.get_save _ _ _).trans (if_pos ⟨hbacked.1.jobId_eq.symm, ?_⟩)
      exact Option.isSome_iff_ne_none.mpr (hstored rfl)
    exact absurd (hfailed record hget) hdue.2

theorem moves (hsound : s.Sound H) (h : s.Single H requestId)
    (hreplays : a.replays requestId = true) (halone : s.RecoversAlone H a)
    (hmoves : s.Moves H maxAttempts a s') : s'.Single H requestId := by
  cases hmoves with
  | submit client request uuid4 now hfree =>
    have hid : (Sentinel.submit H request uuid4 now).requestId = requestId :=
      of_decide_eq_true hreplays
    have hpassed : (s.afterSubmitStep client (Sentinel.submit H request uuid4 now)
        (Sentinel.submit H request uuid4 now).point s.cluster).Single H requestId :=
      h.passed hid (fun call' hcall' ↦ by cases hfree.symm.trans hcall') rfl
    exact hpassed
  | submitStep client now outcome call cluster point hcall hmoves =>
    exact h.submitStep hsound hcall halone hmoves
  | submitCrash | poll | processStep | commit | workerCrash | expire => cases hreplays

end Single

theorem isInductive_returned (H : Hashing) (maxAttempts : ℤ) :
    IsInductive H maxAttempts (fun _ ↦ True) StoreBacked
      (fun c call ↦ SubmitBacked H c call ∧
        ∀ job, call.point = .returned job → job.jobId = call.jobId H) DeliveryBacked where
  submit_mono hgrows h := ⟨h.1.mono hgrows, h.2⟩
  delivery_mono := DeliveryBacked.mono
  submit _ _ now _ := ⟨⟨now, rfl⟩, fun _ hpoint ↦ SubmitPoint.noConfusion hpoint⟩
  submitStep := by
    intro c c' call point hstore hcall hmoves
    obtain ⟨hstore', hbacked'⟩ := hcall.1.moves hstore hmoves
    refine ⟨hstore', hbacked', ?_⟩
    have hbacked := hcall.1
    cases hmoves with
    | existing existing hpoint hget =>
      rintro job ⟨⟩
      exact (hstore _ _ hget).jobId_eq
    | published record hpoint | accepted record hpoint =>
      rw [SubmitBacked, hpoint] at hbacked
      rintro job ⟨⟩
      exact hbacked.1.jobId_eq
    | created | taken | disappeared | conflict | replay | republished | unpublished | failed =>
      exact fun _ hpoint ↦ SubmitPoint.noConfusion hpoint
  submitCrash _ := ⟨trivial, fun _ hpoint ↦ SubmitPoint.noConfusion hpoint⟩
  poll _ _ := trivial
  processStep := DeliveryBacked.moves
  commit h _ _ := h.congr (Cluster.grows_commit _ _) rfl
  expire jobId _ h := h.expire jobId

end System

/-- **When replays do not multiply work.** Any number of calls of `submit` with one request id make
their requests in any order, and their publications fail or not. If no call begins to recover the
job while another one is recovering it, then at most one event of the job is ever acknowledged; and
all calls that return, return the same job id. -/
theorem replays_publish_once (H : Hashing) (maxAttempts : ℤ) {requestId : String}
    {as : List Action} {s : System} (hreplays : ∀ a ∈ as, a.replays requestId = true)
    (hrun : System.run H maxAttempts System.init as = some s)
    (halone : Transition.Along (System.step H maxAttempts) (System.RecoversAlone H)
      System.init as) :
    s.cluster.acknowledged (jobIdOf H requestId) ≤ 1 ∧
      ∀ client call job, s.submits client = some call → call.point = .returned job →
        job.jobId = jobIdOf H requestId := by
  have hboth := (Transition.along_of_forall id System.init hreplays).and halone
  have hempty : System.run H maxAttempts System.init [] = some System.init := rfl
  have hsingle : s.Single H requestId := by
    refine (Transition.run_invariant_along (P := fun s ↦ s.Sound H ∧ s.Single H requestId) ?_
      ⟨holds_backed hempty, System.single_init⟩ hboth hrun).2
    intro s a s' hs hC hstep
    exact ⟨hs.1.step hstep, hs.2.moves hs.1 hC.1 hC.2 (System.moves_of_step hstep)⟩
  refine ⟨hsingle.le, fun client call job hcall hreturned ↦ ?_⟩
  have hholds := (System.isInductive_returned H maxAttempts).run
    (System.Holds.init fun _ _ hget ↦ (by cases hget)) (fun _ _ ↦ trivial) hrun
  rw [(hholds.submits hcall).2 job hreturned]
  exact congrArg (jobIdOf H) (hsingle.same hcall)

def System.readsNoFailure (H : Hashing) (s : System) : Action → Bool
  | .submitStep client _ _ => (s.submits client).all fun call ↦ call.point ≠ .get ∨
      (s.cluster.store.get (call.jobId H)).all fun record ↦
        ¬(record.job.state = .failed ∧ record.job.errorCode = some "queue_publish_failed")
  | _ => true

theorem System.RecoversAlone.of_readsNoFailure {H : Hashing} {s : System} {a : Action}
    (h : s.readsNoFailure H a = true) : s.RecoversAlone H a := by
  cases a with
  | submitStep client now outcome =>
    intro call record hcall hpoint hget hfailed
    exfalso
    rw [readsNoFailure, hcall, Option.all_some, hpoint, hget, Option.all_some] at h
    simp [hfailed.1, hfailed.2] at h
  | _ => trivial

def System.sampleFailure : List Action :=
  [.submit 0 sampleRequest "" sampleNow, sampleSubmit 0, sampleSubmit 0 .lost, sampleSubmit 0]

/-- The calls of the clients up to the point where they have found the record taken. -/
def System.sampleReplay (client : ℕ) : List Action :=
  [.submit client sampleRequest "" sampleNow, sampleSubmit client]

/-- The second client of the sample is alone with the recovery. -/
theorem System.recoversAlone_sample : Transition.Along (System.step Hashing.sample 3)
    (System.RecoversAlone Hashing.sample) System.init
    (System.sampleFailure ++ System.sampleReplay 1 ++
      List.replicate 3 (System.sampleSubmit 1)) := by
  let before : List Action := System.sampleFailure ++ System.sampleReplay 1
  obtain ⟨s, hrun, hs⟩ := Option.bind_eq_some_iff.mp
    (show ((System.run Hashing.sample 3 System.init before).bind fun s ↦ (s.submits 0).bind
      fun call ↦ (s.submits 1).map fun call' ↦ (call.point, call'.point)) = some
        (.raised (.queueUnavailable "broker did not acknowledge moderation job"), .get) by decide)
  obtain ⟨call₀, hcall₀, hmap⟩ := Option.bind_eq_some_iff.mp hs
  obtain ⟨call₁, hcall₁, hpair⟩ := Option.map_eq_some_iff.mp hmap
  obtain ⟨hpoint₀, hpoint₁⟩ := Prod.mk.inj hpair
  obtain ⟨hothers, -⟩ := System.others_of_run
    (show ∀ a ∈ before, System.among 2 0 a = true by decide) hrun
  refine (Transition.along_append hrun).mpr ⟨?_, ?_, fun s' hs' ↦ ?_⟩
  · apply Transition.Along.mono System.RecoversAlone.of_readsNoFailure
    decide
  · rintro call record - - - - client' call' hcall' -
    match client' with
    | 0 =>
      cases hcall₀.symm.trans hcall'
      rw [hpoint₀]
      rfl
    | 1 =>
      cases hcall₁.symm.trans hcall'
      rw [hpoint₁]
      rfl
    | client' + 2 =>
      rw [hothers (client' + 2) (Nat.le_add_left 2 client')] at hcall'
      cases hcall'
  · apply Transition.Along.mono System.RecoversAlone.of_readsNoFailure
    have hlast : (System.run Hashing.sample 3 System.init
        (before ++ [System.sampleSubmit 1])).any (fun s ↦ decide
          (Transition.Along (System.step Hashing.sample 3)
            (fun s a ↦ s.readsNoFailure Hashing.sample a = true) s
            (List.replicate 2 (System.sampleSubmit 1)))) = true := by decide
    have hrun' : System.run Hashing.sample 3 System.init (before ++ [System.sampleSubmit 1])
        = some s' := Transition.run_concat_eq_some.mpr ⟨s, hrun, hs'⟩
    rw [hrun', Option.any_some] at hlast
    exact of_decide_eq_true hlast

/-- The sample request is published once, by the second of two calls. -/
theorem replays_publish_once_sample : ∃ s,
    System.run Hashing.sample 3 System.init (System.sampleFailure ++ System.sampleReplay 1 ++
      List.replicate 3 (System.sampleSubmit 1)) = some s ∧
    s.cluster.acknowledged System.sampleJobId ≤ 1 := by
  obtain ⟨s, hrun⟩ := Option.isSome_iff_exists.mp
    (show (System.run Hashing.sample 3 System.init (System.sampleFailure ++
      System.sampleReplay 1 ++ List.replicate 3 (System.sampleSubmit 1))).isSome by decide)
  have hreplays : ∀ a ∈ System.sampleFailure ++ System.sampleReplay 1 ++
      List.replicate 3 (System.sampleSubmit 1), a.replays "stable-request" = true := by decide
  have hid : jobIdOf Hashing.sample "stable-request" = System.sampleJobId := by decide
  exact ⟨s, hrun, hid ▸ (replays_publish_once Hashing.sample 3 hreplays hrun
    System.recoversAlone_sample).1⟩

/-- **Two replays publish the same job twice.** Both read the record before either has saved it. -/
theorem replays_publish_twice : ∃ s,
    (∀ a ∈ System.sampleFailure ++ System.sampleReplay 1 ++ System.sampleReplay 2 ++
      [System.sampleSubmit 1, System.sampleSubmit 2, System.sampleSubmit 1, System.sampleSubmit 2],
      a.replays "stable-request" = true) ∧
    System.run Hashing.sample 3 System.init (System.sampleFailure ++ System.sampleReplay 1 ++
      System.sampleReplay 2 ++ [System.sampleSubmit 1, System.sampleSubmit 2,
        System.sampleSubmit 1, System.sampleSubmit 2]) = some s ∧
    s.cluster.acknowledged System.sampleJobId = 2 := by
  obtain ⟨s, hrun, hcount⟩ := Option.map_eq_some_iff.mp
    (show (System.run Hashing.sample 3 System.init (System.sampleFailure ++
      System.sampleReplay 1 ++ System.sampleReplay 2 ++ [System.sampleSubmit 1,
        System.sampleSubmit 2, System.sampleSubmit 1, System.sampleSubmit 2])).map
          (fun s ↦ s.cluster.acknowledged System.sampleJobId) = some 2 by decide)
  exact ⟨s, by decide, hrun, hcount⟩

end Sentinel
