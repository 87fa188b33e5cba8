import Sentinel.Distributed.Adapters

/-!
# Processing an event

`ModerationEventProcessor.process` with `_handle_failure` and `_publish_dlq`, cut at the requests to
the store, the publisher and the engine, in the same way as `submit`. A delivery is the event a
worker has polled and the point it has reached.

Only `self._engine.moderate` stands inside a `try`, so an exception from the store or the publisher
leaves `process` and ends the worker: the step then has no point to continue from. Metrics are left
out throughout.
-/

namespace Sentinel

/-- Where a call of `process` stands: the request it makes next, or that it has returned. -/
inductive ProcessPoint
  /-- At `self._store.get(event.job_id)`. -/
  | get
  /-- At `self._publish_dlq(event, "missing_job_state")`. -/
  | publishMissing
  /-- At `self._store.save(processing)`. -/
  | saveProcessing (processing : StoredModerationJob)
  /-- At `self._engine.moderate(event.request)`. -/
  | moderate (processing : StoredModerationJob)
  /-- At the publication of the result. -/
  | publishResult (processing : StoredModerationJob) (result : ModerationResponse)
  /-- At `self._store.save(succeeded)`. -/
  | saveSucceeded (succeeded : StoredModerationJob)
  /-- At the publication of the retry event. -/
  | publishRetry (processing : StoredModerationJob) (retryEvent : ModerationJobEvent)
  /-- At `self._store.save(retrying)`. -/
  | saveRetrying (retrying : StoredModerationJob)
  /-- At `self._publish_dlq(event, "processing_attempts_exhausted")`. -/
  | publishExhausted (processing : StoredModerationJob)
  /-- At `self._store.save(failed)`. -/
  | saveFailed (failed : StoredModerationJob)
  /-- `process` has returned; the offset is still to be committed. -/
  | returned
deriving DecidableEq

/-- An event in the hands of a worker. -/
structure Delivery where
  offset : ℕ
  event : ModerationJobEvent
  point : ProcessPoint

/-- `_with_job_update`. -/
def withJobUpdate (storedJob : StoredModerationJob) (update : ModerationJob → ModerationJob)
    (now : DateTime) : StoredModerationJob :=
  { storedJob with job := { update storedJob.job with updatedAt := now } }

/-- The `processing` copy. -/
def processingJob (storedJob : StoredModerationJob) (event : ModerationJobEvent)
    (now : DateTime) : StoredModerationJob :=
  withJobUpdate storedJob
    (fun job ↦ { job with state := .processing, attempt := event.attempt, errorCode := none }) now

/-- The `succeeded` copy. -/
def succeededJob (processing : StoredModerationJob) (event : ModerationJobEvent)
    (result : ModerationResponse) (now : DateTime) : StoredModerationJob :=
  withJobUpdate processing
    (fun job ↦
      { job with
        state := .succeeded, attempt := event.attempt, result := some result, errorCode := none })
    now

/-- The `retrying` copy. -/
def retryingJob (processing : StoredModerationJob) (nextAttempt : ℕ) (now : DateTime) :
    StoredModerationJob :=
  withJobUpdate processing
    (fun job ↦
      { job with
        state := .accepted, attempt := nextAttempt
        errorCode := some "processing_retry_scheduled" })
    now

/-- The `failed` copy. -/
def exhaustedJob (processing : StoredModerationJob) (event : ModerationJobEvent)
    (now : DateTime) : StoredModerationJob :=
  withJobUpdate processing
    (fun job ↦
      { job with
        state := .failed
        attempt := event.attempt
        errorCode := some "processing_attempts_exhausted" })
    now

/-- The payload of `_publish_dlq`. -/
def deadLetter (event : ModerationJobEvent) (errorCode : String) : DeadLetter where
  jobId := event.jobId
  requestId := event.request.requestId
  attempt := event.attempt
  errorCode := errorCode

namespace Delivery

/-! ## The method -/

/-- What `process` does with the reply of `self._store.get(event.job_id)`. -/
def afterGet (delivery : Delivery) (now : DateTime) : Option StoredModerationJob → ProcessPoint
  | none => .publishMissing
  | some storedJob =>
    if storedJob.job.state = .succeeded then .returned
    else .saveProcessing (processingJob storedJob delivery.event now)

/-- `_handle_failure` up to its first request. -/
def handleFailure (maxAttempts : ℤ) (delivery : Delivery) (processing : StoredModerationJob) :
    ProcessPoint :=
  let nextAttempt := delivery.event.attempt + 1
  if (nextAttempt : ℤ) < maxAttempts then
    .publishRetry processing { delivery.event with attempt := nextAttempt }
  else .publishExhausted processing

/-- What the engine's reply leads to. -/
def afterModerate (maxAttempts : ℤ) (delivery : Delivery) (processing : StoredModerationJob) :
    Option ModerationResponse → ProcessPoint
  | some result => .publishResult processing result
  | none => handleFailure maxAttempts delivery processing

/-- One request of `process`, and the code up to the next. Without a next point, an exception has
left `process`. -/
def step (maxAttempts : ℤ) (delivery : Delivery) (now : DateTime) (outcome : PublishOutcome)
    (reply : Option ModerationResponse) (c : Cluster) : Option (Cluster × Option ProcessPoint) :=
  let event := delivery.event
  match delivery.point with
  | .get => some (c, some (delivery.afterGet now (c.store.get event.jobId)))
  | .publishMissing =>
    match c.publish .dlq event.jobId (.deadLetter (deadLetter event "missing_job_state"))
      outcome with
    | (true, c') => some (c', some .returned)
    | (false, c') => some (c', none)
  | .saveProcessing processing => some (c.save processing, some (.moderate processing))
  | .moderate processing =>
    some (c.moderated ⟨event, reply⟩, some (delivery.afterModerate maxAttempts processing reply))
  | .publishResult processing result =>
    match c.publish .result event.jobId (.result result) outcome with
    | (true, c') => some (c', some (.saveSucceeded (succeededJob processing event result now)))
    | (false, c') => some (c', none)
  | .saveSucceeded succeeded => some (c.save succeeded, some .returned)
  | .publishRetry processing retryEvent =>
    match c.publish .retry event.jobId (.event retryEvent) outcome with
    | (true, c') =>
      some (c', some (.saveRetrying (retryingJob processing (event.attempt + 1) now)))
    | (false, c') => some (c', none)
  | .saveRetrying retrying => some (c.save retrying, some .returned)
  | .publishExhausted processing =>
    match c.publish .dlq event.jobId
      (.deadLetter (deadLetter event "processing_attempts_exhausted")) outcome with
    | (true, c') => some (c', some (.saveFailed (exhaustedJob processing event now)))
    | (false, c') => some (c', none)
  | .saveFailed failed => some (c.save failed, some .returned)
  | .returned => none

/-- The publication a delivery is at, if it is at one. -/
def publication (delivery : Delivery) : Option (Topic × Payload) :=
  match delivery.point with
  | .publishMissing => some (.dlq, .deadLetter (deadLetter delivery.event "missing_job_state"))
  | .publishResult _ result => some (.result, .result result)
  | .publishRetry _ retryEvent => some (.retry, .event retryEvent)
  | .publishExhausted _ =>
    some (.dlq, .deadLetter (deadLetter delivery.event "processing_attempts_exhausted"))
  | _ => none

/-- The ways through `process`, request by request. -/
inductive Moves (maxAttempts : ℤ) (delivery : Delivery) (c : Cluster) :
    Cluster → Option ProcessPoint → Prop
  /-- There is no record. -/
  | missing (hpoint : delivery.point = .get)
      (hget : c.store.get delivery.event.jobId = none) :
      Moves maxAttempts delivery c c (some .publishMissing)
  /-- The job has succeeded already. -/
  | duplicate (storedJob : StoredModerationJob) (hpoint : delivery.point = .get)
      (hget : c.store.get delivery.event.jobId = some storedJob)
      (hstate : storedJob.job.state = .succeeded) :
      Moves maxAttempts delivery c c (some .returned)
  /-- The job is taken up. -/
  | taken (storedJob : StoredModerationJob) (now : DateTime) (hpoint : delivery.point = .get)
      (hget : c.store.get delivery.event.jobId = some storedJob)
      (hstate : storedJob.job.state ≠ .succeeded) :
      Moves maxAttempts delivery c c
        (some (.saveProcessing (processingJob storedJob delivery.event now)))
  | processing (processing : StoredModerationJob)
      (hpoint : delivery.point = .saveProcessing processing) :
      Moves maxAttempts delivery c (c.save processing) (some (.moderate processing))
  /-- The engine returns. -/
  | moderated (processing : StoredModerationJob) (result : ModerationResponse)
      (hpoint : delivery.point = .moderate processing) :
      Moves maxAttempts delivery c (c.moderated ⟨delivery.event, some result⟩)
        (some (.publishResult processing result))
  /-- The engine raises, and another attempt is left. -/
  | failedRetry (processing : StoredModerationJob)
      (hpoint : delivery.point = .moderate processing)
      (hleft : ((delivery.event.attempt + 1 : ℕ) : ℤ) < maxAttempts) :
      Moves maxAttempts delivery c (c.moderated ⟨delivery.event, none⟩)
        (some (.publishRetry processing
          { delivery.event with attempt := delivery.event.attempt + 1 }))
  /-- The engine raises on the last attempt. -/
  | failedLast (processing : StoredModerationJob)
      (hpoint : delivery.point = .moderate processing)
      (hleft : ¬((delivery.event.attempt + 1 : ℕ) : ℤ) < maxAttempts) :
      Moves maxAttempts delivery c (c.moderated ⟨delivery.event, none⟩)
        (some (.publishExhausted processing))
  /-- The missing record is dead-lettered. -/
  | publishedMissing (hpoint : delivery.point = .publishMissing) :
      Moves maxAttempts delivery c
        (c.append ⟨.dlq, delivery.event.jobId,
          .deadLetter (deadLetter delivery.event "missing_job_state"), true⟩) (some .returned)
  | publishedResult (processing : StoredModerationJob) (result : ModerationResponse)
      (now : DateTime) (hpoint : delivery.point = .publishResult processing result) :
      Moves maxAttempts delivery c
        (c.append ⟨.result, delivery.event.jobId, .result result, true⟩)
        (some (.saveSucceeded (succeededJob processing delivery.event result now)))
  | publishedRetry (processing : StoredModerationJob) (retryEvent : ModerationJobEvent)
      (now : DateTime) (hpoint : delivery.point = .publishRetry processing retryEvent) :
      Moves maxAttempts delivery c
        (c.append ⟨.retry, delivery.event.jobId, .event retryEvent, true⟩)
        (some (.saveRetrying (retryingJob processing (delivery.event.attempt + 1) now)))
  | publishedExhausted (processing : StoredModerationJob) (now : DateTime)
      (hpoint : delivery.point = .publishExhausted processing) :
      Moves maxAttempts delivery c
        (c.append ⟨.dlq, delivery.event.jobId,
          .deadLetter (deadLetter delivery.event "processing_attempts_exhausted"), true⟩)
        (some (.saveFailed (exhaustedJob processing delivery.event now)))
  /-- A publication raises. -/
  | unpublished (topic : Topic) (payload : Payload) (c' : Cluster)
      (hpublication : delivery.publication = some (topic, payload))
      (hc' : c' = c ∨ c' = c.append ⟨topic, delivery.event.jobId, payload, false⟩) :
      Moves maxAttempts delivery c c' none
  | succeeded (succeeded : StoredModerationJob)
      (hpoint : delivery.point = .saveSucceeded succeeded) :
      Moves maxAttempts delivery c (c.save succeeded) (some .returned)
  | retrying (retrying : StoredModerationJob) (hpoint : delivery.point = .saveRetrying retrying) :
      Moves maxAttempts delivery c (c.save retrying) (some .returned)
  | failed (failed : StoredModerationJob) (hpoint : delivery.point = .saveFailed failed) :
      Moves maxAttempts delivery c (c.save failed) (some .returned)

theorem Moves.of_publish {maxAttempts : ℤ} {delivery : Delivery} {outcome : PublishOutcome}
    {topic : Topic} {payload : Payload} {next : ProcessPoint} {c c' : Cluster}
    {point : Option ProcessPoint} (hpublication : delivery.publication = some (topic, payload))
    (hpublished : delivery.Moves maxAttempts c
      (c.append ⟨topic, delivery.event.jobId, payload, true⟩) (some next))
    (h : (match c.publish topic delivery.event.jobId payload outcome with
      | (true, c') => some (c', some next)
      | (false, c') => some (c', none)) = some (c', point)) :
    delivery.Moves maxAttempts c c' point := by
  split at h
  · rename_i c₁ hpublish
    obtain ⟨rfl, rfl⟩ := Prod.mk.inj (Option.some_inj.mp h)
    rw [Cluster.publish_eq_true hpublish]
    exact hpublished
  · rename_i c₁ hpublish
    obtain ⟨rfl, rfl⟩ := Prod.mk.inj (Option.some_inj.mp h)
    exact .unpublished topic payload c₁ hpublication (Cluster.publish_eq_false hpublish)

/-- **Inversion of a step.** -/
theorem moves_of_step {maxAttempts : ℤ} {delivery : Delivery} {now : DateTime}
    {outcome : PublishOutcome} {reply : Option ModerationResponse} {c c' : Cluster}
    {point : Option ProcessPoint}
    (h : delivery.step maxAttempts now outcome reply c = some (c', point)) :
    delivery.Moves maxAttempts c c' point := by
  simp only [step] at h
  split at h
  · rename_i hpoint
    obtain ⟨rfl, rfl⟩ := Prod.mk.inj (Option.some_inj.mp h)
    cases hget : c.store.get delivery.event.jobId with
    | none => exact .missing hpoint hget
    | some storedJob =>
      rw [afterGet]
      split_ifs with hstate
      · exact .duplicate storedJob hpoint hget hstate
      · exact .taken storedJob now hpoint hget hstate
  · rename_i hpoint
    exact .of_publish (by rw [publication, hpoint]) (.publishedMissing hpoint) h
  · rename_i processing hpoint
    obtain ⟨rfl, rfl⟩ := Prod.mk.inj (Option.some_inj.mp h)
    exact .processing processing hpoint
  · rename_i processing hpoint
    obtain ⟨rfl, rfl⟩ := Prod.mk.inj (Option.some_inj.mp h)
    cases reply with
    | some result => exact .moderated processing result hpoint
    | none =>
      simp only [afterModerate, handleFailure]
      split_ifs with hleft
      · exact .failedRetry processing hpoint hleft
      · exact .failedLast processing hpoint hleft
  · rename_i processing result hpoint
    exact .of_publish (by rw [publication, hpoint])
      (.publishedResult processing result now hpoint) h
  · rename_i succeeded hpoint
    obtain ⟨rfl, rfl⟩ := Prod.mk.inj (Option.some_inj.mp h)
    exact .succeeded succeeded hpoint
  · rename_i processing retryEvent hpoint
    exact .of_publish (by rw [publication, hpoint])
      (.publishedRetry processing retryEvent now hpoint) h
  · rename_i retrying hpoint
    obtain ⟨rfl, rfl⟩ := Prod.mk.inj (Option.some_inj.mp h)
    exact .retrying retrying hpoint
  · rename_i processing hpoint
    exact .of_publish (by rw [publication, hpoint]) (.publishedExhausted processing now hpoint) h
  · rename_i failed hpoint
    obtain ⟨rfl, rfl⟩ := Prod.mk.inj (Option.some_inj.mp h)
    exact .failed failed hpoint
  · cases h

theorem Moves.grows {maxAttempts : ℤ} {delivery : Delivery} {c c' : Cluster}
    {point : Option ProcessPoint} (h : delivery.Moves maxAttempts c c' point) : c.Grows c' := by
  cases h with
  | missing | duplicate | taken => exact Cluster.Grows.refl c
  | processing | succeeded | retrying | failed => exact Cluster.grows_save c _
  | moderated | failedRetry | failedLast => exact Cluster.grows_moderated c _
  | publishedMissing | publishedResult | publishedRetry | publishedExhausted =>
    exact Cluster.grows_append c _
  | unpublished topic payload c' hpublication hc' =>
    rcases hc' with rfl | rfl
    · exact Cluster.Grows.refl c'
    · exact Cluster.grows_append c _

theorem Moves.committed_eq {maxAttempts : ℤ} {delivery : Delivery} {c c' : Cluster}
    {point : Option ProcessPoint} (h : delivery.Moves maxAttempts c c' point) :
    c'.committed = c.committed := by
  cases h with
  | unpublished topic payload c' hpublication hc' => rcases hc' with rfl | rfl <;> rfl
  | _ => rfl

end Delivery

end Sentinel
