import Sentinel.Distributed.Content

/-!
# The job endpoints

`submit_moderation_job` and `get_moderation_job`. A client submits a request, is told the job and
asks for it until it is done; meanwhile other clients submit, perhaps under the same request id, and
workers process. What a client may rely on is that the job it was told of is still there, under the
same ids and with the time of its creation, and that a result is about the request. A client that is
told of a conflict has used the id of a request with another text, and only such a client is.
-/

namespace Sentinel

/-! ## The handlers -/

/-- How a request to the job endpoints is answered. -/
inductive JobReply
  | job (statusCode : ℕ) (job : ModerationJob)
  /-- `HTTPException`. -/
  | httpError (statusCode : ℕ) (detail : String)
deriving DecidableEq

namespace JobReply

/-- What both endpoints answer without a job service. -/
def disabled : JobReply := .httpError 503 "distributed moderation is not enabled"

/-- The answer to an `IdempotencyConflictError`. -/
def conflict : JobReply := .httpError 409 "request_id was already used with different content"

/-- The answer to a `QueueUnavailableError`. -/
def unavailable : JobReply := .httpError 503 "moderation queue is unavailable"

end JobReply

/-- `submit_moderation_job` after `submit`: the outcome it records and its answer. A call that has
died has none. -/
def submitModerationJob : SubmitPoint → Option (String × JobReply)
  | .returned job => some ("accepted", .job 202 job)
  | .raised (.idempotencyConflict _) => some ("idempotency_conflict", .conflict)
  | .raised (.queueUnavailable _) => some ("queue_unavailable", .unavailable)
  | _ => none

/-- `DistributedModerationService.get`. -/
def Cluster.getJob (c : Cluster) (jobId : String) : Option ModerationJob :=
  (c.store.get jobId).map fun storedJob ↦ storedJob.job

/-- `get_moderation_job`, with a job service or without. -/
def getModerationJob (service : Option Cluster) (jobId : String) : JobReply :=
  match service with
  | none => .disabled
  | some c =>
    match c.getJob jobId with
    | none => .httpError 404 "job not found"
    | some job => .job 200 job

/-! ## What has been returned -/

variable {H : Hashing} {maxAttempts : ℤ}

/-- A job that a call has returned comes from a record that is backed. -/
def SubmitReturned (H : Hashing) (c : Cluster) (call : SubmitCall) : Prop :=
  ∀ job, call.point = .returned job →
    ∃ requestFingerprint, Backed c (call.jobId H) ⟨job, requestFingerprint⟩

theorem SubmitReturned.mono {c c' : Cluster} {call : SubmitCall} (hgrows : c.Grows c')
    (h : SubmitReturned H c call) : SubmitReturned H c' call := by
  intro job hpoint
  obtain ⟨requestFingerprint, hbacked⟩ := h job hpoint
  exact ⟨requestFingerprint, hbacked.mono hgrows⟩

theorem SubmitCall.Moves.submitReturned {c c' : Cluster} {call : SubmitCall} {point : SubmitPoint}
    (hmoves : call.Moves H c c' point) (hstore : StoreBacked c) (hcall : SubmitBacked H c call) :
    SubmitReturned H c' { call with point := point } := by
  have hgrows := hmoves.grows
  intro job hpoint
  cases hmoves with
  | created | taken | disappeared | conflict | replay | republished | unpublished | failed =>
    cases hpoint
  | existing existing hread hget =>
    cases hpoint
    exact ⟨existing.requestFingerprint, hstore _ _ hget⟩
  | published storedJob hread =>
    cases hpoint
    rw [SubmitBacked, hread] at hcall
    exact ⟨storedJob.requestFingerprint, hcall.1.mono hgrows⟩
  | accepted accepted hread =>
    cases hpoint
    rw [SubmitBacked, hread] at hcall
    exact ⟨accepted.requestFingerprint, hcall.1.mono hgrows⟩

theorem isInductive_returned (H : Hashing) (maxAttempts : ℤ) :
    System.IsInductive H maxAttempts (fun _ ↦ True) StoreBacked
      (fun c call ↦ SubmitBacked H c call ∧ SubmitReturned H c call) DeliveryBacked where
  submit_mono hgrows h := ⟨h.1.mono hgrows, h.2.mono hgrows⟩
  delivery_mono := DeliveryBacked.mono
  submit _ _ now _ := ⟨⟨now, rfl⟩, fun _ hpoint ↦ by cases hpoint⟩
  submitStep h hcall hmoves := by
    obtain ⟨hstore, hbacked⟩ := hcall.1.moves h hmoves
    exact ⟨hstore, hbacked, hmoves.submitReturned h hcall.1⟩
  submitCrash _ := ⟨trivial, fun _ hpoint ↦ by cases hpoint⟩
  poll := (isInductive_backed H maxAttempts).poll
  processStep := (isInductive_backed H maxAttempts).processStep
  commit := (isInductive_backed H maxAttempts).commit
  expire := (isInductive_backed H maxAttempts).expire

theorem holds_returned {as : List Action} {s : System}
    (hrun : System.run H maxAttempts System.init as = some s) :
    s.Holds StoreBacked (fun c call ↦ SubmitBacked H c call ∧ SubmitReturned H c call)
      DeliveryBacked :=
  (isInductive_returned H maxAttempts).run (System.Holds.init fun _ _ h ↦ by cases h)
    (fun _ _ ↦ trivial) hrun

/-! ## The job of a request -/

/-- The job is that of the request, and if it has a result then the engine has returned it for the
request. -/
structure ModerationJob.Of (H : Hashing) (c : Cluster) (request : ModerationRequest)
    (job : ModerationJob) : Prop where
  requestId : request.requestId = some job.requestId
  jobId : job.jobId = jobIdOf H job.requestId
  result_iff : job.result.isSome ↔ job.state = .succeeded
  result : ∀ result ∈ job.result, ∃ engineRun ∈ c.engineRuns,
    engineRun.event.request = request ∧ engineRun.outcome = some result

theorem Backed.exists_of (hsha256 : Function.Injective H.sha256)
    (hdump : Function.Injective H.modelDumpJson) {s : System} {jobId : String}
    {record : StoredModerationJob}
    (hholds : s.Holds (Contents H) (fun c call ↦ SubmitBacked H c call ∧ SubmitContent H c call)
      (DeliveryContent H)) (hbacked : Backed s.cluster jobId record) :
    ∃ original ∈ s.cluster.created, original.job.jobId = jobId ∧ original.SameIdentity record ∧
      ∃ request, s.cluster.Bound H jobId request ∧ record.job.Of H s.cluster request := by
  have hcontents : Contents H s.cluster := hholds.cluster
  obtain ⟨original, hmem, hsame⟩ := hbacked.created
  obtain ⟨hjobId, request, hrequestId, hfingerprint⟩ := hcontents.created original hmem
  have hown : original.job.jobId = jobId := hsame.jobId.symm.trans hbacked.jobId_eq
  have hbound : s.cluster.Bound H jobId request := ⟨original, hmem, hown, hfingerprint⟩
  have hcontent := oneContent_of_bound hsha256 hdump hholds hbound
  refine ⟨original, hmem, hown, hsame, request, hbound, by rw [hrequestId, hsame.requestId],
    by rw [hsame.jobId, hjobId, hsame.requestId], hbacked.result_iff, fun result hresult ↦ ?_⟩
  obtain ⟨published, hpayload, hreturned⟩ :=
    hcontent.published _ (hbacked.result result hresult) rfl rfl
  cases hpayload
  exact hreturned

theorem System.grows_of_run {as : List Action} {s s' : System}
    (hrun : System.run H maxAttempts s as = some s') : s.cluster.Grows s'.cluster := by
  refine Transition.run_invariant (P := fun t ↦ s.cluster.Grows t.cluster) ?_
    (Cluster.Grows.refl _) hrun
  intro t a t' ht hstep
  have hgrows := (moves_of_step hstep).grows
  exact ⟨ht.log.trans hgrows.log, ht.created.trans hgrows.created,
    ht.engineRuns.trans hgrows.engineRuns⟩

theorem exists_created_of_reply {c : Cluster} {call : SubmitCall} {outcome : String}
    {reply : JobReply} (hcontent : SubmitContent H c call)
    (hreply : submitModerationJob call.point = some (outcome, reply)) :
    (reply ≠ .conflict ∧ c.Bound H (call.jobId H) call.normalizedRequest) ∨
    (reply = .conflict ∧ ∃ original ∈ c.created, original.job.jobId = call.jobId H ∧
      original.requestFingerprint ≠ call.fingerprint H) := by
  rw [SubmitContent] at hcontent
  cases hpoint : call.point with
  | returned job =>
    rw [hpoint] at hreply hcontent
    cases hreply
    exact .inl ⟨(by rintro ⟨⟩), hcontent⟩
  | raised error =>
    rw [hpoint] at hreply hcontent
    cases error with
    | queueUnavailable message =>
      cases hreply
      exact .inl ⟨by decide, hcontent⟩
    | idempotencyConflict requestId =>
      cases hreply
      exact .inr ⟨rfl, hcontent.2⟩
  | create | get | publish | saveFailed | saveAccepted | crashed =>
    rw [hpoint] at hreply
    cases hreply

theorem SubmitCall.eq_normalizedRequest_iff {call : SubmitCall} {request : ModerationRequest}
    (hid : request.requestId = some call.requestId) :
    request = call.normalizedRequest ↔ request.text = call.request.text := by
  constructor
  · intro heq
    rw [heq]
    rfl
  · intro heq
    calc request = ⟨request.text, request.requestId⟩ := rfl
      _ = ⟨call.request.text, some call.requestId⟩ := by rw [heq, hid]
      _ = call.normalizedRequest := rfl

theorem conflict_iff_of_reply (hsha256 : Function.Injective H.sha256)
    (hdump : Function.Injective H.modelDumpJson) {c : Cluster} {call : SubmitCall}
    {outcome : String} {reply : JobReply} {request : ModerationRequest}
    (hcontents : Contents H c) (hcontent : SubmitContent H c call)
    (hreply : submitModerationJob call.point = some (outcome, reply))
    (hbound : c.Bound H (call.jobId H) request) :
    reply = .conflict ↔ request ≠ call.normalizedRequest := by
  rcases exists_created_of_reply hcontent hreply with
    ⟨hother, hown⟩ | ⟨hconflict, original, hmem, hid, hne⟩
  · have heq : request = call.normalizedRequest :=
      hdump (hsha256 (hcontents.fingerprint_eq hbound hown))
    exact iff_of_false hother (not_not.mpr heq)
  · refine iff_of_true hconflict fun heq ↦ hne ?_
    -- the creation is the one whose request is found
    obtain ⟨found, hfound, hfoundId, hfingerprint⟩ := hbound
    rw [hcontents.once.eq_of_jobId hmem hfound (hid.trans hfoundId.symm), hfingerprint, heq]
    rfl

theorem exists_original_of_reply {c : Cluster} {call : SubmitCall} {outcome : String}
    {reply : JobReply} (hcontent : SubmitContent H c call)
    (hreply : submitModerationJob call.point = some (outcome, reply)) :
    ∃ original ∈ c.created, original.job.jobId = call.jobId H := by
  rcases exists_created_of_reply hcontent hreply with
    ⟨-, original, hmem, hown, -⟩ | ⟨-, original, hmem, hown, -⟩
  · exact ⟨original, hmem, hown⟩
  · exact ⟨original, hmem, hown⟩

theorem reply_cases {call : SubmitCall} {outcome : String} {reply : JobReply}
    (hreply : submitModerationJob call.point = some (outcome, reply)) :
    reply = .conflict ∨ reply = .unavailable ∨
      ∃ job, reply = .job 202 job ∧ call.point = .returned job := by
  cases hpoint : call.point with
  | returned job =>
    rw [hpoint] at hreply
    cases hreply
    exact .inr (.inr ⟨job, rfl, rfl⟩)
  | raised error =>
    rw [hpoint] at hreply
    cases error with
    | queueUnavailable message =>
      cases hreply
      exact .inr (.inl rfl)
    | idempotencyConflict requestId =>
      cases hreply
      exact .inl rfl
  | create | get | publish | saveFailed | saveAccepted | crashed =>
    rw [hpoint] at hreply
    cases hreply

/-- **What a client is told of a job stays true.** As long as no key expires: whoever has been
answered finds the job from then on, with a result only if the engine has returned it for the one
request that the job is about. The job that was answered is the one that is found, and a conflict is
answered exactly where the request has another text. -/
theorem answered_job_found (H : Hashing) (maxAttempts : ℤ) (huuid5 : Function.Injective H.uuid5)
    (hsha256 : Function.Injective H.sha256) (hdump : Function.Injective H.modelDumpJson)
    {as later : List Action} {s s' : System} (hkeeps : ∀ a ∈ as ++ later, a.keepsKeys = true)
    (hrun : System.run H maxAttempts System.init as = some s)
    (hlater : System.run H maxAttempts s later = some s') {client : ℕ} {call : SubmitCall}
    {outcome : String} {reply : JobReply} (hcall : s.submits client = some call)
    (hreply : submitModerationJob call.point = some (outcome, reply)) :
    ∃ request found, request.requestId = some call.requestId ∧
      getModerationJob (some s'.cluster) (call.jobId H) = .job 200 found ∧
      found.Of H s'.cluster request ∧
      (reply = .conflict ↔ request.text ≠ call.request.text) ∧
      (reply = .conflict ∨ reply = .unavailable ∨ ∃ job, reply = .job 202 job ∧
        job.Of H s.cluster request ∧ job.createdAt = found.createdAt) := by
  have hkeepsAs : ∀ a ∈ as, a.keepsKeys = true :=
    fun a hmem ↦ hkeeps a (List.mem_append_left later hmem)
  have hholds := contents_of_run hkeepsAs hrun
  have hholds' := contents_of_run hkeeps (Transition.run_append_eq_some.mpr ⟨s, hrun, hlater⟩)
  have hcontents' : Contents H s'.cluster := hholds'.cluster
  have hgrows := System.grows_of_run hlater
  have hcontent : SubmitContent H s'.cluster call := (hholds.submits hcall).2.mono hgrows
  obtain ⟨original, hmem, hown⟩ := exists_original_of_reply hcontent hreply
  obtain ⟨record, hget⟩ := Option.isSome_iff_exists.mp (hcontents'.once.isSome_get original hmem)
  rw [hown] at hget
  have hbacked := hcontents'.store _ _ hget
  obtain ⟨first, hfirst, hfirstId, hsame, request, hbound, hof⟩ :=
    hbacked.exists_of hsha256 hdump hholds'
  have hrequestId : record.job.requestId = call.requestId :=
    String.append_right_inj _ |>.mp (huuid5 (hof.jobId.symm.trans hbacked.jobId_eq))
  have hid : request.requestId = some call.requestId := by rw [hof.requestId, hrequestId]
  refine ⟨request, record.job, hid, ?_, hof, ?_, ?_⟩
  · simp only [getModerationJob, Cluster.getJob, hget, Option.map_some]
  · rw [conflict_iff_of_reply hsha256 hdump hcontents' hcontent hreply hbound, ne_eq, ne_eq,
      SubmitCall.eq_normalizedRequest_iff hid]
  · rcases reply_cases hreply with hconflict | hunavailable | ⟨job, haccepted, hpoint⟩
    · exact .inl hconflict
    · exact .inr (.inl hunavailable)
    · obtain ⟨requestFingerprint, hreturned⟩ := ((holds_returned hrun).submits hcall).2 job hpoint
      obtain ⟨origin, horigin, horiginId, hsameJob, request', hbound', hofJob⟩ :=
        hreturned.exists_of hsha256 hdump hholds
      -- there is one creation and one request, now as then
      have hrequest : request' = request :=
        hdump (hsha256 (hcontents'.fingerprint_eq (hbound'.mono hgrows) hbound))
      have hsameCreation : origin = first := hcontents'.once.eq_of_jobId
        (hgrows.created.subset horigin) hfirst (horiginId.trans hfirstId.symm)
      refine .inr (.inr ⟨job, haccepted, hrequest ▸ hofJob, ?_⟩)
      rw [hsame.createdAt, ← hsameCreation]
      exact hsameJob.createdAt

def JobReply.sample : JobReply :=
  .job 202
    { jobId := System.sampleJobId
      requestId := "stable-request"
      state := .accepted
      createdAt := System.sampleNow
      updatedAt := System.sampleNow }

/-- The client of the sample run asks for the job when it is done. -/
theorem answered_job_found_sample : ∃ s' found,
    System.run Hashing.sample 3 System.init
      (System.sampleSubmission ++ System.sampleProcessing 0) = some s' ∧
    getModerationJob (some s'.cluster) System.sampleJobId = .job 200 found ∧
    found.createdAt = System.sampleNow := by
  obtain ⟨s', hrun'⟩ := Option.isSome_iff_exists.mp
    (show (System.run Hashing.sample 3 System.init
      (System.sampleSubmission ++ System.sampleProcessing 0)).isSome = true by decide)
  obtain ⟨s, hrun, hlater⟩ := Transition.run_append_eq_some.mp hrun'
  have hanswer : ((System.run Hashing.sample 3 System.init System.sampleSubmission).bind
      fun s ↦ (s.submits 0).map fun call ↦
        (call.jobId Hashing.sample, submitModerationJob call.point))
      = some (System.sampleJobId, some ("accepted", JobReply.sample)) := by
    decide
  rw [System.run, hrun, Option.bind_some] at hanswer
  obtain ⟨call, hcall, hpair⟩ := Option.map_eq_some_iff.mp hanswer
  obtain ⟨hjobId, hreply⟩ := Prod.mk.inj hpair
  obtain ⟨huuid5, hsha256, hdump⟩ := Hashing.sample_injective
  obtain ⟨request, found, -, hfound, -, -, hjob⟩ := answered_job_found Hashing.sample 3 huuid5
    hsha256 hdump (by decide) hrun hlater hcall hreply
  rcases hjob with hconflict | hunavailable | ⟨job, hsample, -, hcreatedAt⟩
  · cases hconflict
  · cases hunavailable
  · cases hsample
    exact ⟨s', found, hrun', hjobId ▸ hfound, hcreatedAt.symm⟩

end Sentinel
