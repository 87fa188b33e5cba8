import Sentinel.Distributed.Consistency

/-!
# One request id, one content

A job id is derived from a request id alone, so it says nothing about the content of the request.
What ties the two together is the fingerprint in the record that was created first: everybody who
comes later compares with it. A worker compares nothing. That its events are about the content of
the record is a property of the log, and it is carried through the events in flight: an event is
published by a call that has created the record or has passed the comparison, and a retry is a copy.

`Bound` is the tie. It mentions the creation and not the stored record, because creations only
accumulate. As long as no key expires there is one creation for each job id, and then the tie
determines the content.
-/

namespace Sentinel

/-- The request has the fingerprint with which the job was created. -/
def Cluster.Bound (H : Hashing) (c : Cluster) (jobId : String) (request : ModerationRequest) :
    Prop :=
  ∃ original ∈ c.created, original.job.jobId = jobId ∧
    original.requestFingerprint = fingerprint H request

/-- The engine has been called on an event of the job with a bound request, and this is what it
returned. -/
def Cluster.Returned (c : Cluster) (jobId : String) (result : ModerationResponse) : Prop :=
  ∃ engineRun ∈ c.engineRuns, engineRun.event.jobId = jobId ∧ engineRun.outcome = some result

/-- The message belongs on its topic, and its content is that of the job. -/
def Cluster.Carries (H : Hashing) (c : Cluster) (message : Message) : Prop :=
  match message.topic, message.payload with
  | .input, .event event | .retry, .event event =>
    event.jobId = message.key ∧ c.Bound H event.jobId event.request
  | .result, .result result => c.Returned message.key result
  | .dlq, .deadLetter _ => True
  | _, _ => False

/-- Every creation has a content, and whatever has been published or handed to the engine is of
the content of its job. -/
structure Contents (H : Hashing) (c : Cluster) : Prop where
  store : StoreBacked c
  once : CreatedOnce c
  created : ∀ original ∈ c.created, original.job.jobId = jobIdOf H original.job.requestId ∧
    ∃ request : ModerationRequest, request.requestId = some original.job.requestId ∧
      original.requestFingerprint = fingerprint H request
  log : ∀ message ∈ c.log, c.Carries H message
  engineRuns : ∀ engineRun ∈ c.engineRuns, c.Bound H engineRun.event.jobId engineRun.event.request

/-- How the content of a call compares with that of its job. Before the first read nothing is
known; a call is rejected only if the contents differ, and goes on only if they agree. -/
def SubmitContent (H : Hashing) (c : Cluster) (call : SubmitCall) : Prop :=
  match call.point with
  | .create _ | .crashed => True
  | .get => ∃ original ∈ c.created, original.job.jobId = call.jobId H
  | .raised (.idempotencyConflict requestId) => requestId = call.requestId ∧
    ∃ original ∈ c.created, original.job.jobId = call.jobId H ∧
      original.requestFingerprint ≠ call.fingerprint H
  | .raised (.queueUnavailable _) | .publish _ _ | .saveFailed _ _ | .saveAccepted _
  | .returned _ => c.Bound H (call.jobId H) call.normalizedRequest

/-- The event of a delivery is of the content of its job, and so is the result in hand. -/
structure DeliveryContent (H : Hashing) (c : Cluster) (delivery : Delivery) : Prop where
  backed : DeliveryBacked c delivery
  bound : c.Bound H delivery.event.jobId delivery.event.request
  returned : ∀ processing result, delivery.point = .publishResult processing result →
    c.Returned delivery.event.jobId result

section Growth

variable {H : Hashing} {c c' : Cluster} {jobId : String}

theorem Cluster.Bound.mono {request : ModerationRequest} (hgrows : c.Grows c')
    (h : c.Bound H jobId request) : c'.Bound H jobId request := by
  obtain ⟨original, hmem, horiginal⟩ := h
  exact ⟨original, hgrows.created.subset hmem, horiginal⟩

theorem Cluster.Returned.mono {result : ModerationResponse} (hgrows : c.Grows c')
    (h : c.Returned jobId result) : c'.Returned jobId result := by
  obtain ⟨engineRun, hmem, hrun⟩ := h
  exact ⟨engineRun, hgrows.engineRuns.subset hmem, hrun⟩

theorem Cluster.Carries.mono {message : Message} (hgrows : c.Grows c')
    (h : c.Carries H message) : c'.Carries H message := by
  rw [Carries] at h ⊢
  split at h
  · exact ⟨h.1, h.2.mono hgrows⟩
  · exact ⟨h.1, h.2.mono hgrows⟩
  · exact h.mono hgrows
  · trivial
  · exact h.elim

theorem SubmitContent.mono {call : SubmitCall} (hgrows : c.Grows c')
    (h : SubmitContent H c call) : SubmitContent H c' call := by
  have hsubset := hgrows.created.subset
  rw [SubmitContent] at h ⊢
  split at h
  · trivial
  · trivial
  · obtain ⟨original, hmem, horiginal⟩ := h
    exact ⟨original, hsubset hmem, horiginal⟩
  · obtain ⟨hid, original, hmem, horiginal⟩ := h
    exact ⟨hid, original, hsubset hmem, horiginal⟩
  all_goals exact h.mono hgrows

theorem DeliveryContent.mono {delivery : Delivery} (hgrows : c.Grows c')
    (h : DeliveryContent H c delivery) : DeliveryContent H c' delivery :=
  ⟨h.backed.mono hgrows, h.bound.mono hgrows,
    fun processing result hpoint ↦ (h.returned processing result hpoint).mono hgrows⟩

end Growth

/-! ## The operations -/

namespace Contents

variable {H : Hashing} {c c' : Cluster}

theorem congr (h : Contents H c) (hstore : StoreBacked c') (honce : CreatedOnce c')
    (hgrows : c.Grows c') (hcreated : c'.created = c.created) (hlog : c'.log = c.log)
    (hruns : c'.engineRuns = c.engineRuns) : Contents H c' where
  store := hstore
  once := honce
  created original hmem := h.created original (hcreated ▸ hmem)
  log message hmem := (h.log message (hlog ▸ hmem)).mono hgrows
  engineRuns engineRun hmem := (h.engineRuns engineRun (hruns ▸ hmem)).mono hgrows

theorem append {message : Message} (h : Contents H c) (hstore : StoreBacked (c.append message))
    (honce : CreatedOnce (c.append message)) (hcarries : c.Carries H message) :
    Contents H (c.append message) where
  store := hstore
  once := honce
  created := h.created
  log message' hmem := by
    have hgrows := Cluster.grows_append c message
    rcases List.mem_append.mp hmem with hmem | hmem
    · exact (h.log message' hmem).mono hgrows
    · obtain rfl := List.mem_singleton.mp hmem
      exact hcarries.mono hgrows
  engineRuns := h.engineRuns

theorem moderated {engineRun : EngineRun} (h : Contents H c)
    (hstore : StoreBacked (c.moderated engineRun)) (honce : CreatedOnce (c.moderated engineRun))
    (hbound : c.Bound H engineRun.event.jobId engineRun.event.request) :
    Contents H (c.moderated engineRun) where
  store := hstore
  once := honce
  created := h.created
  log message hmem := (h.log message hmem).mono (Cluster.grows_moderated c engineRun)
  engineRuns engineRun' hmem := by
    rcases List.mem_append.mp hmem with hmem | hmem
    · exact h.engineRuns engineRun' hmem
    · exact List.mem_singleton.mp hmem ▸ hbound

theorem create (h : Contents H c) {call : SubmitCall} {now : DateTime}
    (hstore : StoreBacked
      { c with
        store := c.store.set (call.storedJob H now)
        created := c.created ++ [call.storedJob H now] })
    (honce : CreatedOnce
      { c with
        store := c.store.set (call.storedJob H now)
        created := c.created ++ [call.storedJob H now] }) :
    Contents H
      { c with
        store := c.store.set (call.storedJob H now)
        created := c.created ++ [call.storedJob H now] } where
  store := hstore
  once := honce
  created original hmem := by
    rcases List.mem_append.mp hmem with hmem | hmem
    · exact h.created original hmem
    · obtain rfl := List.mem_singleton.mp hmem
      exact ⟨rfl, call.normalizedRequest, rfl, rfl⟩
  log message hmem := (h.log message hmem).mono (Cluster.grows_create c _)
  engineRuns engineRun hmem := (h.engineRuns engineRun hmem).mono (Cluster.grows_create c _)

theorem bound_of_poll (h : Contents H c) {offset : ℕ} {event : ModerationJobEvent}
    (hpoll : c.poll offset = some event) : c.Bound H event.jobId event.request := by
  rw [Cluster.poll] at hpoll
  split at hpoll
  · rename_i topic key event' acknowledged hlog
    split_ifs at hpoll with htopic
    cases hpoll
    have hcarries := h.log _ (List.mem_of_getElem? hlog)
    cases topic with
    | input | retry => exact hcarries.2
    | result | dlq => cases htopic
  · cases hpoll

theorem event_of_mem (h : Contents H c) {message : Message} (hmem : message ∈ c.log)
    (htopic : message.topic = .input ∨ message.topic = .retry) :
    ∃ event : ModerationJobEvent, message.payload = .event event ∧ event.jobId = message.key ∧
      c.Bound H event.jobId event.request := by
  obtain ⟨topic, key, payload, acknowledged⟩ := message
  have hcarries := h.log _ hmem
  rcases htopic with rfl | rfl
  all_goals
    cases payload with
    | event event => exact ⟨event, rfl, hcarries⟩
    | result | deadLetter => exact hcarries.elim

theorem result_of_mem (h : Contents H c) {message : Message} (hmem : message ∈ c.log)
    (htopic : message.topic = .result) :
    ∃ result, message.payload = .result result ∧ c.Returned message.key result := by
  obtain ⟨topic, key, payload, acknowledged⟩ := message
  have hcarries := h.log _ hmem
  obtain rfl : topic = .result := htopic
  cases payload with
  | result result => exact ⟨result, rfl, hcarries⟩
  | event | deadLetter => exact hcarries.elim

/-- **The tie determines the content.** -/
theorem fingerprint_eq (h : Contents H c) {jobId : String} {request request' : ModerationRequest}
    (hbound : c.Bound H jobId request) (hbound' : c.Bound H jobId request') :
    fingerprint H request = fingerprint H request' := by
  obtain ⟨original, hmem, hid, hfingerprint⟩ := hbound
  obtain ⟨original', hmem', hid', hfingerprint'⟩ := hbound'
  have heq : original = original' := h.once.eq_of_jobId hmem hmem' (hid.trans hid'.symm)
  rw [← hfingerprint, ← hfingerprint', heq]

end Contents

/-! ## The invariant -/

theorem Backed.exists_fingerprint {c : Cluster} {jobId : String} {record : StoredModerationJob}
    (h : Backed c jobId record) : ∃ original ∈ c.created, original.job.jobId = jobId ∧
      original.requestFingerprint = record.requestFingerprint := by
  obtain ⟨original, hmem, hsame⟩ := h.created
  exact ⟨original, hmem, hsame.jobId.symm.trans h.jobId_eq, hsame.requestFingerprint.symm⟩

theorem SubmitCall.Moves.contents {H : Hashing} {c c' : Cluster} {call : SubmitCall}
    {point : SubmitPoint} (h : Contents H c) (hcall : SubmitBacked H c call)
    (hcontent : SubmitContent H c call) (hmoves : call.Moves H c c' point) :
    Contents H c' ∧ SubmitContent H c' { call with point := point } := by
  have hgrows := hmoves.grows
  obtain ⟨hstore, -⟩ := hcall.moves h.store hmoves
  obtain ⟨honce, -⟩ := (isInductive_createdOnce H 0).submitStep h.once trivial hmoves
  cases hmoves with
  | created storedJob hpoint hfree =>
    rw [SubmitBacked, hpoint] at hcall
    obtain ⟨now, rfl⟩ := hcall
    refine ⟨h.create hstore honce, call.storedJob H now, ?_, rfl, rfl⟩
    exact List.mem_append_right _ (List.mem_singleton_self _)
  | taken storedJob hpoint htaken =>
    rw [SubmitBacked, hpoint] at hcall
    obtain ⟨now, rfl⟩ := hcall
    obtain ⟨record, hget⟩ := Option.isSome_iff_exists.mp htaken
    obtain ⟨original, hmem, hid, -⟩ := (h.store _ _ hget).exists_fingerprint
    exact ⟨h, original, hmem, hid⟩
  | disappeared hpoint hget =>
    -- the key was taken before, and keys do not expire
    rw [SubmitContent, hpoint] at hcontent
    obtain ⟨original, hmem, hid⟩ := hcontent
    have hsome := h.once.isSome_get original hmem
    rw [hid, hget] at hsome
    cases hsome
  | conflict existing hpoint hget hne =>
    obtain ⟨original, hmem, hid, hfingerprint⟩ := (h.store _ _ hget).exists_fingerprint
    exact ⟨h, rfl, original, hmem, hid, hfingerprint ▸ hne⟩
  | replay existing hpoint hget heq | existing existing hpoint hget heq =>
    obtain ⟨original, hmem, hid, hfingerprint⟩ := (h.store _ _ hget).exists_fingerprint
    exact ⟨h, original, hmem, hid, hfingerprint.trans heq⟩
  | published storedJob hpoint | republished storedJob now hpoint =>
    rw [SubmitContent, hpoint] at hcontent
    exact ⟨h.append hstore honce ⟨rfl, hcontent⟩, hcontent.mono hgrows⟩
  | unpublished storedJob replay now c' hpoint hc' =>
    rw [SubmitContent, hpoint] at hcontent
    rcases hc' with rfl | rfl
    · exact ⟨h, hcontent⟩
    · exact ⟨h.append hstore honce ⟨rfl, hcontent⟩, hcontent.mono hgrows⟩
  | failed record replay hpoint | accepted record hpoint =>
    rw [SubmitContent, hpoint] at hcontent
    exact ⟨h.congr hstore honce hgrows rfl rfl rfl, hcontent.mono hgrows⟩

theorem DeliveryContent.carries {H : Hashing} {c : Cluster} {delivery : Delivery} {topic : Topic}
    {payload : Payload} {acknowledged : Bool} (h : DeliveryContent H c delivery)
    (hpublication : delivery.publication = some (topic, payload)) :
    c.Carries H ⟨topic, delivery.event.jobId, payload, acknowledged⟩ := by
  have hbacked := h.backed
  rw [Delivery.publication] at hpublication
  split at hpublication
  · cases hpublication
    trivial
  · rename_i processing result hpoint
    cases hpublication
    exact h.returned processing result hpoint
  · rename_i processing retryEvent hpoint
    cases hpublication
    rw [DeliveryBacked, hpoint] at hbacked
    obtain ⟨-, rfl⟩ := hbacked
    exact ⟨rfl, h.bound⟩
  · cases hpublication
    trivial
  · cases hpublication

theorem Delivery.Moves.contents {H : Hashing} {maxAttempts : ℤ} {c c' : Cluster}
    {delivery : Delivery} {point : Option ProcessPoint} (h : Contents H c)
    (hdelivery : DeliveryContent H c delivery) (hmoves : delivery.Moves maxAttempts c c' point) :
    Contents H c' ∧ ∀ next ∈ point, DeliveryContent H c' { delivery with point := next } := by
  have hgrows := hmoves.grows
  have hbound := hdelivery.bound
  have hbacked := hdelivery.backed
  obtain ⟨hstore, hbacked'⟩ := hbacked.moves h.store hmoves
  obtain ⟨honce, -⟩ := (isInductive_createdOnce H maxAttempts).processStep h.once trivial hmoves
  -- at most points there is no result in hand
  have hnext : ∀ next ∈ point, (∀ processing result, next = .publishResult processing result →
      c'.Returned delivery.event.jobId result) →
      DeliveryContent H c' { delivery with point := next } :=
    fun next hmem hreturned ↦ ⟨hbacked' next hmem, hbound.mono hgrows, hreturned⟩
  cases hmoves with
  | missing | duplicate | taken =>
    refine ⟨h, fun next hmem ↦ hnext next hmem ?_⟩
    rintro _ _ rfl
    cases hmem
  | processing =>
    refine ⟨h.congr hstore honce hgrows rfl rfl rfl, fun next hmem ↦ hnext next hmem ?_⟩
    rintro _ _ rfl
    cases hmem
  | succeeded | retrying | failed =>
    refine ⟨h.congr hstore honce hgrows rfl rfl rfl, fun next hmem ↦ hnext next hmem ?_⟩
    rintro _ _ rfl
    cases hmem
  | moderated processing result hpoint =>
    refine ⟨h.moderated hstore honce hbound, fun next hmem ↦ hnext next hmem ?_⟩
    rintro _ _ rfl
    cases hmem
    exact ⟨⟨delivery.event, some result⟩, List.mem_append_right _ (List.mem_singleton_self _),
      rfl, rfl⟩
  | failedRetry | failedLast =>
    refine ⟨h.moderated hstore honce hbound, fun next hmem ↦ hnext next hmem ?_⟩
    rintro _ _ rfl
    cases hmem
  | publishedMissing | publishedExhausted =>
    refine ⟨h.append hstore honce trivial, fun next hmem ↦ hnext next hmem ?_⟩
    rintro _ _ rfl
    cases hmem
  | publishedResult processing result now hpoint
  | publishedRetry processing retryEvent now hpoint =>
    refine ⟨h.append hstore honce (hdelivery.carries (by rw [Delivery.publication, hpoint])),
      fun next hmem ↦ hnext next hmem ?_⟩
    rintro _ _ rfl
    cases hmem
  | unpublished topic payload c' hpublication hc' =>
    refine ⟨?_, by rintro _ ⟨⟩⟩
    rcases hc' with rfl | rfl
    · exact h
    · exact h.append hstore honce (hdelivery.carries hpublication)

theorem isInductive_contents (H : Hashing) (maxAttempts : ℤ) :
    System.IsInductive H maxAttempts (fun a ↦ a.keepsKeys = true) (Contents H)
      (fun c call ↦ SubmitBacked H c call ∧ SubmitContent H c call) (DeliveryContent H) where
  submit_mono hgrows h := ⟨h.1.mono hgrows, h.2.mono hgrows⟩
  delivery_mono := DeliveryContent.mono
  submit _ _ now _ := ⟨⟨now, rfl⟩, trivial⟩
  submitStep h hcall hmoves := by
    obtain ⟨hstore, hbacked⟩ := hcall.1.moves h.store hmoves
    obtain ⟨hcontents, hcontent⟩ := hmoves.contents h hcall.1 hcall.2
    exact ⟨hcontents, hbacked, hcontent⟩
  submitCrash _ := ⟨trivial, trivial⟩
  poll h hpoll := ⟨trivial, h.bound_of_poll hpoll, fun _ _ hpoint ↦ by cases hpoint⟩
  processStep h hdelivery hmoves := hmoves.contents h hdelivery
  commit h _ _ := h.congr (h.store.congr (Cluster.grows_commit _ _) rfl)
    (h.once.congr rfl fun _ ↦ rfl) (Cluster.grows_commit _ _) rfl rfl rfl
  expire _ hkeeps _ := by cases hkeeps

theorem contents_of_run {H : Hashing} {maxAttempts : ℤ} {as : List Action} {s : System}
    (hkeeps : ∀ a ∈ as, a.keepsKeys = true)
    (hrun : System.run H maxAttempts System.init as = some s) :
    s.Holds (Contents H) (fun c call ↦ SubmitBacked H c call ∧ SubmitContent H c call)
      (DeliveryContent H) := by
  refine (isInductive_contents H maxAttempts).run (System.Holds.init ?_) hkeeps hrun
  constructor
  · intro jobId record hget
    cases hget
  · exact ⟨fun _ hmem ↦ (by cases hmem), List.nodup_nil⟩
  · intro original hmem
    cases hmem
  · intro message hmem
    cases hmem
  · intro engineRun hmem
    cases hmem

/-! ## The content of a job -/

/-- The call is being rejected, or has been, or has died before. Its next requests change nothing,
and it ends with the conflict. -/
def SubmitCall.Rejected (H : Hashing) (c : Cluster) (call : SubmitCall) : Prop :=
  match call.point with
  | .create _ => ∀ now outcome, call.step H now outcome c = some (c, .get)
  | .get => ∀ now outcome,
    call.step H now outcome c = some (c, .raised (.idempotencyConflict call.requestId))
  | .raised error => error = .idempotencyConflict call.requestId
  | .crashed => True
  | .publish _ _ | .saveFailed _ _ | .saveAccepted _ | .returned _ => False

/-- A call whose fingerprint is not that of the creation is rejected. -/
theorem SubmitContent.rejected {H : Hashing} {c : Cluster} {call : SubmitCall}
    {request : ModerationRequest} (h : Contents H c) (hcall : SubmitBacked H c call)
    (hcontent : SubmitContent H c call) (hbound : c.Bound H (call.jobId H) request)
    (hne : fingerprint H call.normalizedRequest ≠ fingerprint H request) :
    call.Rejected H c := by
  have hnot : ¬c.Bound H (call.jobId H) call.normalizedRequest := fun hbound' ↦
    hne (h.fingerprint_eq hbound' hbound)
  obtain ⟨original, hmem, hid, hfingerprint⟩ := hbound
  have hsome : (c.store.get (call.jobId H)).isSome := hid ▸ h.once.isSome_get original hmem
  rw [SubmitCall.Rejected]
  cases hpoint : call.point with
  | create storedJob =>
    intro now outcome
    rw [SubmitBacked, hpoint] at hcall
    obtain ⟨now', rfl⟩ := hcall
    rw [SubmitCall.step, hpoint]
    have htaken : c.create (call.storedJob H now') = (false, c) := Cluster.create_of_isSome hsome
    simp only [htaken]
  | get =>
    intro now outcome
    obtain ⟨existing, hget⟩ := Option.isSome_iff_exists.mp hsome
    obtain ⟨original', hmem', hid', hfingerprint'⟩ := (h.store _ _ hget).exists_fingerprint
    have hconflict : existing.requestFingerprint ≠ call.fingerprint H := by
      intro heq
      exact hnot ⟨original', hmem', hid', hfingerprint'.trans heq⟩
    rw [SubmitCall.step, hpoint]
    simp only [hget, SubmitCall.afterGet, if_pos hconflict]
  | raised error =>
    rw [SubmitContent, hpoint] at hcontent
    cases error with
    | queueUnavailable message => exact absurd hcontent hnot
    | idempotencyConflict requestId => exact congrArg _ hcontent.1
  | crashed => trivial
  | publish | saveFailed | saveAccepted | returned =>
    rw [SubmitContent, hpoint] at hcontent
    exact hnot hcontent

/-- All events for the job carry the request, all results for it come from the engine's calls on the
request, and every call for the job with another request is rejected. -/
structure OneContent (H : Hashing) (s : System) (jobId : String) (request : ModerationRequest) :
    Prop where
  /-- Every input and retry event, acknowledged or not. -/
  events : ∀ message ∈ s.cluster.log, message.topic = .input ∨ message.topic = .retry →
    message.key = jobId → ∃ event : ModerationJobEvent, message.payload = .event event ∧
      event.jobId = jobId ∧ event.request = request
  /-- Every event that a worker holds. -/
  deliveries : ∀ worker delivery, s.workers worker = some delivery →
    delivery.event.jobId = jobId → delivery.event.request = request
  published : ∀ message ∈ s.cluster.log, message.topic = .result → message.key = jobId →
    ∃ result, message.payload = .result result ∧
      ∃ engineRun ∈ s.cluster.engineRuns, engineRun.event.request = request ∧
        engineRun.outcome = some result
  stored : ∀ record, s.cluster.store.get jobId = some record → ∀ result ∈ record.job.result,
    ∃ engineRun ∈ s.cluster.engineRuns, engineRun.event.request = request ∧
      engineRun.outcome = some result
  conflicts : ∀ client call, s.submits client = some call → call.jobId H = jobId →
    call.normalizedRequest ≠ request → call.Rejected H s.cluster

theorem oneContent_of_bound {H : Hashing} (hsha256 : Function.Injective H.sha256)
    (hdump : Function.Injective H.modelDumpJson) {s : System} {jobId : String}
    {request : ModerationRequest}
    (hholds : s.Holds (Contents H) (fun c call ↦ SubmitBacked H c call ∧ SubmitContent H c call)
      (DeliveryContent H)) (hbound : s.cluster.Bound H jobId request) :
    OneContent H s jobId request := by
  have h : Contents H s.cluster := hholds.cluster
  have hinj : ∀ {request request'}, fingerprint H request = fingerprint H request' →
      request = request' := fun heq ↦ hdump (hsha256 heq)
  have hunique : ∀ {request'}, s.cluster.Bound H jobId request' → request' = request :=
    fun hbound' ↦ hinj (h.fingerprint_eq hbound' hbound)
  have hreturned : ∀ {result}, s.cluster.Returned jobId result →
      ∃ engineRun ∈ s.cluster.engineRuns, engineRun.event.request = request ∧
        engineRun.outcome = some result := by
    rintro result ⟨engineRun, hmem, hid, houtcome⟩
    exact ⟨engineRun, hmem, hunique (hid ▸ h.engineRuns engineRun hmem), houtcome⟩
  constructor
  · rintro message hmem htopic rfl
    obtain ⟨event, hpayload, hid, hboundEvent⟩ := h.event_of_mem hmem htopic
    exact ⟨event, hpayload, hid, hunique (hid ▸ hboundEvent)⟩
  · rintro worker delivery hdelivery rfl
    exact hunique (hholds.workers hdelivery).bound
  · rintro message hmem htopic rfl
    obtain ⟨result, hpayload, hresult⟩ := h.result_of_mem hmem htopic
    exact ⟨result, hpayload, hreturned hresult⟩
  · intro record hget result hresult
    have hpublished := (h.store jobId record hget).result result hresult
    obtain ⟨result', hpayload, hresult'⟩ := h.result_of_mem hpublished rfl
    cases hpayload
    exact hreturned hresult'
  · rintro client call hcall rfl hne
    obtain ⟨hsubmit, hcontent⟩ := hholds.submits hcall
    exact hcontent.rejected h hsubmit hbound fun heq ↦ hne (hinj heq)

/-- **One request id means one content.** In every state of every run that lets no key expire: a
job of which an event has been published has a record; the job id of a record belongs to its request
id; and its fingerprint is that of a request with this id, which is the one request that the job is
about. -/
theorem one_request_id_one_content (H : Hashing) (maxAttempts : ℤ)
    (hsha256 : Function.Injective H.sha256) (hdump : Function.Injective H.modelDumpJson)
    {as : List Action} {s : System} (hkeeps : ∀ a ∈ as, a.keepsKeys = true)
    (hrun : System.run H maxAttempts System.init as = some s) :
    (∀ message ∈ s.cluster.log, message.topic = .input ∨ message.topic = .retry →
      (s.cluster.store.get message.key).isSome) ∧
    ∀ jobId record, s.cluster.store.get jobId = some record →
      jobIdOf H record.job.requestId = jobId ∧
        ∃ request : ModerationRequest, request.requestId = some record.job.requestId ∧
          fingerprint H request = record.requestFingerprint ∧ OneContent H s jobId request := by
  have hholds := contents_of_run hkeeps hrun
  have h : Contents H s.cluster := hholds.cluster
  constructor
  · intro message hmem htopic
    obtain ⟨event, -, hid, original, hmem', hid', -⟩ := h.event_of_mem hmem htopic
    rw [← hid, ← hid']
    exact h.once.isSome_get original hmem'
  · intro jobId record hget
    have hbacked : Backed s.cluster jobId record := h.store jobId record hget
    obtain ⟨original, hmem, hsame⟩ := hbacked.created
    obtain ⟨hjobId, request, hrequestId, hfingerprint⟩ := h.created original hmem
    have hown : original.job.jobId = jobId := hsame.jobId.symm.trans hbacked.jobId_eq
    have hbound : s.cluster.Bound H jobId request := ⟨original, hmem, hown, hfingerprint⟩
    refine ⟨by rw [hsame.requestId, ← hjobId, hown], request, by rw [hrequestId, hsame.requestId],
      by rw [hsame.requestFingerprint, hfingerprint], ?_⟩
    exact oneContent_of_bound hsha256 hdump hholds hbound

/-- Another client comes with another text under the id. -/
def System.sampleConflict : List Action :=
  [.submit 1 ⟨"Another message", some "stable-request"⟩ "" sampleNow, sampleSubmit 1,
    sampleSubmit 1]

/-- The sample request is what the sample job is about, at the end of the sample run, and the other
client is rejected. -/
theorem one_request_id_one_content_sample : ∃ s request call,
    System.run Hashing.sample 3 System.init
      (System.sampleSubmission ++ (System.sampleProcessing 0 ++ System.sampleConflict)) = some s ∧
    fingerprint Hashing.sample request = System.sampleRecord.requestFingerprint ∧
    OneContent Hashing.sample s System.sampleJobId request ∧
    s.submits 1 = some call ∧ call.Rejected Hashing.sample s.cluster := by
  obtain ⟨s, hrun, hs⟩ := Option.bind_eq_some_iff.mp
    (show ((System.run Hashing.sample 3 System.init
      (System.sampleSubmission ++ (System.sampleProcessing 0 ++ System.sampleConflict))).bind
        fun s ↦ (s.cluster.store.get System.sampleJobId).bind fun record ↦
          (s.submits 1).map fun call ↦ (record, call.jobId Hashing.sample,
            fingerprint Hashing.sample call.normalizedRequest == record.requestFingerprint))
      = some (System.sampleRecord, System.sampleJobId, false) by decide)
  obtain ⟨record, hget, hs⟩ := Option.bind_eq_some_iff.mp hs
  obtain ⟨call, hcall, hs⟩ := Option.map_eq_some_iff.mp hs
  simp only [Prod.mk.injEq, beq_eq_false_iff_ne] at hs
  obtain ⟨rfl, hid, hother⟩ := hs
  obtain ⟨-, hsha256, hdump⟩ := Hashing.sample_injective
  obtain ⟨-, request, -, hfingerprint, hcontent⟩ :=
    (one_request_id_one_content Hashing.sample 3 hsha256 hdump (by decide) hrun).2
      System.sampleJobId System.sampleRecord hget
  refine ⟨s, request, call, hrun, hfingerprint, hcontent, hcall,
    hcontent.conflicts 1 call hcall hid ?_⟩
  rintro rfl
  exact hother hfingerprint

end Sentinel
