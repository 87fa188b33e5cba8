import Mathlib.Logic.Equiv.Basic
import Sentinel.Distributed.Adapters
import Sentinel.Text.JsonReader

/-!
# Submitting a job

`DistributedModerationService.submit`, cut at its store and publisher requests. Between two
requests a call runs alone on its own locals; at a request it may be overtaken by anyone. A call is
therefore the request it was made with and the *point* it has reached, which holds the locals that
the rest of the method still needs. `SubmitCall.step` performs the next request and runs on to the
following point.

`SubmitCall.Moves` lists what a step can do, one constructor for each way through the method. Every
later argument about submissions is a case analysis of it and never unfolds the step function.
-/

namespace Sentinel

/-- The functions from outside the platform that `submit` derives its identifiers with. -/
structure Hashing where
  /-- `str(uuid5(NAMESPACE_URL, name))`. -/
  uuid5 : String → String
  /-- `hashlib.sha256(text.encode("utf-8")).hexdigest()`. -/
  sha256 : String → String
  /-- `ModerationRequest.model_dump_json(exclude_none=False)`. -/
  modelDumpJson : ModerationRequest → String

def ModerationRequest.json (request : ModerationRequest) : Text.Json :=
  .object [("text", .string request.text),
    ("request_id", match request.requestId with
      | some requestId => .string requestId
      | none => .constant .null)]

theorem ModerationRequest.json_injective : Function.Injective ModerationRequest.json := by
  rintro ⟨text, requestId⟩ ⟨text', requestId'⟩ h
  cases requestId <;> cases requestId' <;> simp_all [ModerationRequest.json]

/-- The functions as they are on the request with the id `stable-request` and the text
`A test message`. Elsewhere they are the simplest that have no collision. -/
def Hashing.sample : Hashing where
  uuid5 := Equiv.swap "sentinel:stable-request" "df648bf7-2087-5acd-83d5-58917982d607"
  sha256 := Equiv.swap "\x7b\"text\":\"A test message\",\"request_id\":\"stable-request\"\x7d"
    "f353bdf239adc3079c45af674b10b5b6956ec4bd284d9b0861d95b3d573b8fc9"
  modelDumpJson request := String.ofList request.json.dumps

theorem Hashing.sample_injective : Function.Injective Hashing.sample.uuid5 ∧
    Function.Injective Hashing.sample.sha256 ∧
    Function.Injective Hashing.sample.modelDumpJson := by
  refine ⟨(Equiv.swap _ _).injective, (Equiv.swap _ _).injective, ?_⟩
  intro request request' h
  exact ModerationRequest.json_injective (Text.Json.dumps_injective (String.ofList_injective h))

/-- The exceptions that `submit` raises. -/
inductive SubmitError
  | queueUnavailable (message : String)
  | idempotencyConflict (requestId : String)
deriving DecidableEq

/-- Where a call of `submit` stands: the request it makes next, or how it ended. -/
inductive SubmitPoint
  /-- At `self._store.create(stored_job)`. -/
  | create (storedJob : StoredModerationJob)
  /-- At `self._store.get(job_id)`, the key being taken. -/
  | get
  /-- At the publication in `_publish_or_fail`, entered from the replay of a failed submission or
  from a first one. -/
  | publish (storedJob : StoredModerationJob) (replay : Bool)
  /-- At `self._store.save(failed)` in `_publish_or_fail`. -/
  | saveFailed (failed : StoredModerationJob) (replay : Bool)
  /-- At `self._store.save(accepted)`, after a replay has published. -/
  | saveAccepted (accepted : StoredModerationJob)
  | returned (job : ModerationJob)
  | raised (error : SubmitError)
  /-- The process died, or a store request raised. -/
  | crashed
deriving DecidableEq

/-- A call of `submit`. -/
structure SubmitCall where
  request : ModerationRequest
  /-- What `uuid4()` returns, should the request have no id. -/
  uuid4 : String
  point : SubmitPoint

/-- The call has neither returned nor raised nor died. -/
def SubmitPoint.inProgress : SubmitPoint → Bool
  | .returned _ | .raised _ | .crashed => false
  | _ => true

namespace SubmitCall

variable (H : Hashing) (call : SubmitCall)

/-! ## The locals of a call -/

/-- `request.request_id or str(uuid4())`. -/
def requestId : String :=
  match call.request.requestId with
  | some requestId => if requestId = "" then call.uuid4 else requestId
  | none => call.uuid4

/-- `request.model_copy(update={"request_id": request_id})`. -/
def normalizedRequest : ModerationRequest :=
  { call.request with requestId := some call.requestId }

end SubmitCall

/-- `DistributedModerationService._fingerprint`. -/
def fingerprint (H : Hashing) (request : ModerationRequest) : String :=
  H.sha256 (H.modelDumpJson request)

def jobIdOf (H : Hashing) (requestId : String) : String := H.uuid5 ("sentinel:" ++ requestId)

namespace SubmitCall

variable (H : Hashing) (call : SubmitCall)

/-- `self._fingerprint(normalized_request)`. -/
def fingerprint : String := Sentinel.fingerprint H call.normalizedRequest

/-- `str(uuid5(NAMESPACE_URL, f"sentinel:{request_id}"))`. -/
def jobId : String := jobIdOf H call.requestId

/-- `ModerationJobEvent(job_id=job_id, request=normalized_request)`. -/
def event : ModerationJobEvent := { jobId := call.jobId H, request := call.normalizedRequest }

/-- The record that `submit` offers to `create`. -/
def storedJob (now : DateTime) : StoredModerationJob where
  job :=
    { jobId := call.jobId H
      requestId := call.requestId
      state := .accepted
      createdAt := now
      updatedAt := now }
  requestFingerprint := call.fingerprint H

end SubmitCall

/-- The `failed` copy of `_publish_or_fail`. -/
def publishFailed (storedJob : StoredModerationJob) (now : DateTime) : StoredModerationJob :=
  { storedJob with
    job :=
      { storedJob.job with
        state := .failed
        errorCode := some "queue_publish_failed"
        updatedAt := now } }

/-- The `accepted` copy of a replay. -/
def replayAccepted (existing : StoredModerationJob) (now : DateTime) : StoredModerationJob :=
  { existing with
    job := { existing.job with state := .accepted, errorCode := none, updatedAt := now } }

/-! ## The method -/

/-- `submit` up to its first request. -/
def submit (H : Hashing) (request : ModerationRequest) (uuid4 : String) (now : DateTime) :
    SubmitCall :=
  let call : SubmitCall := ⟨request, uuid4, .get⟩
  { call with point := .create (call.storedJob H now) }

namespace SubmitCall

/-- What `submit` does with the reply of `self._store.get(job_id)`. -/
def afterGet (H : Hashing) (call : SubmitCall) : Option StoredModerationJob → SubmitPoint
  | none => .raised (.queueUnavailable "job state disappeared during idempotency check")
  | some existing =>
    if existing.requestFingerprint ≠ call.fingerprint H then
      .raised (.idempotencyConflict call.requestId)
    else if existing.job.state = .failed ∧ existing.job.errorCode = some "queue_publish_failed" then
      .publish existing true
    else .returned existing.job

/-- One request of a call, and the code up to the next. -/
def step (H : Hashing) (call : SubmitCall) (now : DateTime) (outcome : PublishOutcome)
    (c : Cluster) : Option (Cluster × SubmitPoint) :=
  match call.point with
  | .create storedJob =>
    match c.create storedJob with
    | (true, c') => some (c', .publish storedJob false)
    | (false, c') => some (c', .get)
  | .get => some (c, call.afterGet H (c.store.get (call.jobId H)))
  | .publish storedJob replay =>
    match c.publish .input (call.event H).jobId (.event (call.event H)) outcome with
    | (true, c') =>
      some (c', if replay then .saveAccepted (replayAccepted storedJob now)
        else .returned storedJob.job)
    | (false, c') => some (c', .saveFailed (publishFailed storedJob now) replay)
  | .saveFailed failed _ =>
    some (c.save failed,
      .raised (.queueUnavailable "broker did not acknowledge moderation job"))
  | .saveAccepted accepted => some (c.save accepted, .returned accepted.job)
  | .returned _ | .raised _ | .crashed => none

/-- The ways through `submit`, request by request. -/
inductive Moves (H : Hashing) (call : SubmitCall) (c : Cluster) : Cluster → SubmitPoint → Prop
  /-- The key is free: the record is created. -/
  | created (storedJob : StoredModerationJob) (hpoint : call.point = .create storedJob)
      (hfree : c.store.get storedJob.job.jobId = none) :
      Moves H call c
        { c with store := c.store.set storedJob, created := c.created ++ [storedJob] }
        (.publish storedJob false)
  /-- The key is taken. -/
  | taken (storedJob : StoredModerationJob) (hpoint : call.point = .create storedJob)
      (htaken : (c.store.get storedJob.job.jobId).isSome) : Moves H call c c .get
  /-- The key is taken but has expired since. -/
  | disappeared (hpoint : call.point = .get) (hget : c.store.get (call.jobId H) = none) :
      Moves H call c c
        (.raised (.queueUnavailable "job state disappeared during idempotency check"))
  /-- The key holds a job with other content. -/
  | conflict (existing : StoredModerationJob) (hpoint : call.point = .get)
      (hget : c.store.get (call.jobId H) = some existing)
      (hne : existing.requestFingerprint ≠ call.fingerprint H) :
      Moves H call c c (.raised (.idempotencyConflict call.requestId))
  /-- The key holds this job, unpublished. -/
  | replay (existing : StoredModerationJob) (hpoint : call.point = .get)
      (hget : c.store.get (call.jobId H) = some existing)
      (heq : existing.requestFingerprint = call.fingerprint H)
      (hfailed : existing.job.state = .failed ∧
        existing.job.errorCode = some "queue_publish_failed") :
      Moves H call c c (.publish existing true)
  /-- The key holds this job in any other state. -/
  | existing (existing : StoredModerationJob) (hpoint : call.point = .get)
      (hget : c.store.get (call.jobId H) = some existing)
      (heq : existing.requestFingerprint = call.fingerprint H)
      (hfailed : ¬(existing.job.state = .failed ∧
        existing.job.errorCode = some "queue_publish_failed")) :
      Moves H call c c (.returned existing.job)
  /-- The broker acknowledges a first submission. -/
  | published (storedJob : StoredModerationJob) (hpoint : call.point = .publish storedJob false) :
      Moves H call c (c.append ⟨.input, call.jobId H, .event (call.event H), true⟩)
        (.returned storedJob.job)
  /-- The broker acknowledges a replay. -/
  | republished (storedJob : StoredModerationJob) (now : DateTime)
      (hpoint : call.point = .publish storedJob true) :
      Moves H call c (c.append ⟨.input, call.jobId H, .event (call.event H), true⟩)
        (.saveAccepted (replayAccepted storedJob now))
  /-- The publication raises. -/
  | unpublished (storedJob : StoredModerationJob) (replay : Bool) (now : DateTime) (c' : Cluster)
      (hpoint : call.point = .publish storedJob replay)
      (hc' : c' = c ∨ c' = c.append ⟨.input, call.jobId H, .event (call.event H), false⟩) :
      Moves H call c c' (.saveFailed (publishFailed storedJob now) replay)
  /-- The failure is recorded. -/
  | failed (failed : StoredModerationJob) (replay : Bool)
      (hpoint : call.point = .saveFailed failed replay) :
      Moves H call c (c.save failed)
        (.raised (.queueUnavailable "broker did not acknowledge moderation job"))
  /-- The replay is recorded. -/
  | accepted (accepted : StoredModerationJob) (hpoint : call.point = .saveAccepted accepted) :
      Moves H call c (c.save accepted) (.returned accepted.job)

/-- **Inversion of a step.** -/
theorem moves_of_step {H : Hashing} {call : SubmitCall} {now : DateTime}
    {outcome : PublishOutcome} {c c' : Cluster} {point : SubmitPoint}
    (h : call.step H now outcome c = some (c', point)) : call.Moves H c c' point := by
  rw [step] at h
  split at h
  · rename_i storedJob hpoint
    cases hget : c.store.get storedJob.job.jobId with
    | none =>
      rw [Cluster.create_of_eq_none hget] at h
      obtain ⟨rfl, rfl⟩ := Prod.mk.inj (Option.some_inj.mp h)
      exact .created storedJob hpoint hget
    | some record =>
      have htaken : (c.store.get storedJob.job.jobId).isSome := by rw [hget, Option.isSome_some]
      rw [Cluster.create_of_isSome htaken] at h
      obtain ⟨rfl, rfl⟩ := Prod.mk.inj (Option.some_inj.mp h)
      exact .taken storedJob hpoint htaken
  · rename_i hpoint
    obtain ⟨rfl, rfl⟩ := Prod.mk.inj (Option.some_inj.mp h)
    cases hget : c.store.get (call.jobId H) with
    | none => exact .disappeared hpoint hget
    | some existing =>
      rw [afterGet]
      split_ifs with hne hfailed
      · exact .conflict existing hpoint hget hne
      · exact .replay existing hpoint hget (not_not.mp hne) hfailed
      · exact .existing existing hpoint hget (not_not.mp hne) hfailed
  · rename_i storedJob replay hpoint
    split at h
    · rename_i c₁ hpublish
      obtain ⟨rfl, rfl⟩ := Prod.mk.inj (Option.some_inj.mp h)
      rw [Cluster.publish_eq_true hpublish]
      cases replay with
      | true => exact .republished storedJob now hpoint
      | false => exact .published storedJob hpoint
    · rename_i c₁ hpublish
      obtain ⟨rfl, rfl⟩ := Prod.mk.inj (Option.some_inj.mp h)
      exact .unpublished storedJob replay now c₁ hpoint (Cluster.publish_eq_false hpublish)
  · rename_i failed replay hpoint
    obtain ⟨rfl, rfl⟩ := Prod.mk.inj (Option.some_inj.mp h)
    exact .failed failed replay hpoint
  · rename_i accepted hpoint
    obtain ⟨rfl, rfl⟩ := Prod.mk.inj (Option.some_inj.mp h)
    exact .accepted accepted hpoint
  · cases h
  · cases h
  · cases h

theorem Moves.grows {H : Hashing} {call : SubmitCall} {c c' : Cluster} {point : SubmitPoint}
    (h : call.Moves H c c' point) : c.Grows c' := by
  cases h with
  | created storedJob => exact Cluster.grows_create c storedJob
  | taken | disappeared | conflict | replay | existing => exact Cluster.Grows.refl c
  | published | republished => exact Cluster.grows_append c _
  | unpublished storedJob replay now c' hpoint hc' =>
    rcases hc' with rfl | rfl
    · exact Cluster.Grows.refl c'
    · exact Cluster.grows_append c _
  | failed | accepted => exact Cluster.grows_save c _

theorem Moves.committed_eq {H : Hashing} {call : SubmitCall} {c c' : Cluster}
    {point : SubmitPoint} (h : call.Moves H c c' point) : c'.committed = c.committed := by
  cases h with
  | unpublished storedJob replay now c' hpoint hc' => rcases hc' with rfl | rfl <;> rfl
  | _ => rfl

end SubmitCall

end Sentinel
