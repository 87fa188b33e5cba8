import Mathlib.Data.List.Nodup
import Sentinel.Distributed.System

/-!
# Stored records never run ahead of the broker

Every record is rewritten by unvalidated copies, and the copies are taken from snapshots that may
be stale by the time they are saved. What nevertheless holds of each record is *local*: it says how
the fields of one record fit together, and that the event the record reports has been acknowledged.
Such a statement does not go stale, because events are never withdrawn. It therefore holds of every
copy in the hands of a call or a worker as well as of the store, and `Backed` is carried through
the copies first and read off the store afterwards.

A key that expires may be created anew, so a record agrees with *some* creation of its job id; the
creation is unique as long as keys do not expire.
-/

namespace Sentinel

def Cluster.Published (c : Cluster) (topic : Topic) (key : String) (payload : Payload) : Prop :=
  ⟨topic, key, payload, true⟩ ∈ c.log

theorem Cluster.Published.mono {c c' : Cluster} {topic : Topic} {key : String} {payload : Payload}
    (hgrows : c.Grows c') (h : c.Published topic key payload) : c'.Published topic key payload :=
  hgrows.log.subset h

theorem Cluster.published_append (c : Cluster) (topic : Topic) (key : String)
    (payload : Payload) :
    (c.append ⟨topic, key, payload, true⟩).Published topic key payload :=
  List.mem_append_right _ (List.mem_singleton_self _)

/-- The fields that no update of a record touches. -/
structure StoredModerationJob.SameIdentity (original record : StoredModerationJob) : Prop where
  jobId : record.job.jobId = original.job.jobId
  requestId : record.job.requestId = original.job.requestId
  createdAt : record.job.createdAt = original.job.createdAt
  requestFingerprint : record.requestFingerprint = original.requestFingerprint

theorem StoredModerationJob.SameIdentity.trans {original record copy : StoredModerationJob}
    (h : original.SameIdentity record) (h' : record.SameIdentity copy) :
    original.SameIdentity copy :=
  ⟨h'.jobId.trans h.jobId, h'.requestId.trans h.requestId, h'.createdAt.trans h.createdAt,
    h'.requestFingerprint.trans h.requestFingerprint⟩

/-- The record fits together, and the broker has acknowledged what it reports. -/
structure Backed (c : Cluster) (jobId : String) (record : StoredModerationJob) : Prop where
  jobId_eq : record.job.jobId = jobId
  /-- A result is present exactly in the state `succeeded`. -/
  result_iff : record.job.result.isSome ↔ record.job.state = .succeeded
  /-- The result has been published. -/
  result : ∀ result ∈ record.job.result, c.Published .result jobId (.result result)
  /-- A failure is one of two, and exhaustion has been dead-lettered. -/
  failed : record.job.state = .failed →
    record.job.errorCode = some "queue_publish_failed" ∨
      (record.job.errorCode = some "processing_attempts_exhausted" ∧
        ∃ letter : DeadLetter, letter.jobId = jobId ∧
          letter.errorCode = "processing_attempts_exhausted" ∧
          c.Published .dlq jobId (.deadLetter letter))
  /-- A retry that the record announces has been published. -/
  retrying : record.job.errorCode = some "processing_retry_scheduled" →
    record.job.state = .accepted ∧
      ∃ event : ModerationJobEvent, event.jobId = jobId ∧ event.attempt = record.job.attempt ∧
        c.Published .retry jobId (.event event)
  /-- The record descends from a creation. -/
  created : ∃ original ∈ c.created, original.SameIdentity record

namespace Backed

variable {c c' : Cluster} {jobId : String} {record : StoredModerationJob}

theorem mono (hgrows : c.Grows c') (h : Backed c jobId record) : Backed c' jobId record where
  jobId_eq := h.jobId_eq
  result_iff := h.result_iff
  result result hresult := (h.result result hresult).mono hgrows
  failed hstate := by
    rcases h.failed hstate with hcode | ⟨hcode, letter, hid, hletter, hpublished⟩
    · exact Or.inl hcode
    · exact Or.inr ⟨hcode, letter, hid, hletter, hpublished.mono hgrows⟩
  retrying hcode := by
    obtain ⟨hstate, event, hid, hattempt, hpublished⟩ := h.retrying hcode
    exact ⟨hstate, event, hid, hattempt, hpublished.mono hgrows⟩
  created := by
    obtain ⟨original, hmem, hsame⟩ := h.created
    exact ⟨original, hgrows.created.subset hmem, hsame⟩

theorem result_eq_none (h : Backed c jobId record) (hstate : record.job.state ≠ .succeeded) :
    record.job.result = none :=
  Option.not_isSome_iff_eq_none.mp (mt h.result_iff.mp hstate)

theorem created_copy (h : Backed c jobId record) {copy : StoredModerationJob}
    (hcopy : record.SameIdentity copy) : ∃ original ∈ c.created, original.SameIdentity copy := by
  obtain ⟨original, hmem, hsame⟩ := h.created
  exact ⟨original, hmem, hsame.trans hcopy⟩

theorem fresh (H : Hashing) (call : SubmitCall) (now : DateTime)
    (hmem : call.storedJob H now ∈ c.created) :
    Backed c (call.jobId H) (call.storedJob H now) where
  jobId_eq := rfl
  result_iff := by simp [SubmitCall.storedJob]
  result result hresult := by cases hresult
  failed hstate := by cases hstate
  retrying hcode := by cases hcode
  created := ⟨_, hmem, rfl, rfl, rfl, rfl⟩

/-! ### The copies -/

theorem publishFailed (h : Backed c jobId record) (hstate : record.job.state ≠ .succeeded)
    (now : DateTime) : Backed c jobId (publishFailed record now) where
  jobId_eq := h.jobId_eq
  result_iff := by simp [Sentinel.publishFailed, h.result_eq_none hstate]
  result := h.result
  failed _ := Or.inl rfl
  retrying hcode := by simp [Sentinel.publishFailed] at hcode
  created := h.created_copy ⟨rfl, rfl, rfl, rfl⟩

theorem replayAccepted (h : Backed c jobId record) (hstate : record.job.state ≠ .succeeded)
    (now : DateTime) : Backed c jobId (replayAccepted record now) where
  jobId_eq := h.jobId_eq
  result_iff := by simp [Sentinel.replayAccepted, h.result_eq_none hstate]
  result := h.result
  failed hfailed := by cases hfailed
  retrying hcode := by cases hcode
  created := h.created_copy ⟨rfl, rfl, rfl, rfl⟩

theorem processingJob (h : Backed c jobId record) (hstate : record.job.state ≠ .succeeded)
    (event : ModerationJobEvent) (now : DateTime) :
    Backed c jobId (processingJob record event now) where
  jobId_eq := h.jobId_eq
  result_iff := by simp [Sentinel.processingJob, withJobUpdate, h.result_eq_none hstate]
  result := h.result
  failed hfailed := by cases hfailed
  retrying hcode := by cases hcode
  created := h.created_copy ⟨rfl, rfl, rfl, rfl⟩

theorem succeededJob (h : Backed c jobId record) (event : ModerationJobEvent)
    {result : ModerationResponse} (hpublished : c.Published .result jobId (.result result))
    (now : DateTime) : Backed c jobId (succeededJob record event result now) where
  jobId_eq := h.jobId_eq
  result_iff := by simp [Sentinel.succeededJob, withJobUpdate]
  result result' hresult' := Option.some_inj.mp hresult' ▸ hpublished
  failed hfailed := by cases hfailed
  retrying hcode := by cases hcode
  created := h.created_copy ⟨rfl, rfl, rfl, rfl⟩

theorem retryingJob (h : Backed c jobId record) (hstate : record.job.state ≠ .succeeded)
    (event : ModerationJobEvent) (hid : event.jobId = jobId)
    (hpublished : c.Published .retry jobId (.event event)) (now : DateTime) :
    Backed c jobId (retryingJob record event.attempt now) where
  jobId_eq := h.jobId_eq
  result_iff := by simp [Sentinel.retryingJob, withJobUpdate, h.result_eq_none hstate]
  result := h.result
  failed hfailed := by cases hfailed
  retrying _ := ⟨rfl, event, hid, rfl, hpublished⟩
  created := h.created_copy ⟨rfl, rfl, rfl, rfl⟩

theorem exhaustedJob (h : Backed c jobId record) (hstate : record.job.state ≠ .succeeded)
    {event : ModerationJobEvent} (hid : event.jobId = jobId)
    (hpublished : c.Published .dlq jobId
      (.deadLetter (deadLetter event "processing_attempts_exhausted"))) (now : DateTime) :
    Backed c jobId (exhaustedJob record event now) where
  jobId_eq := h.jobId_eq
  result_iff := by simp [Sentinel.exhaustedJob, withJobUpdate, h.result_eq_none hstate]
  result := h.result
  failed _ := Or.inr ⟨rfl, _, hid, rfl, hpublished⟩
  retrying hcode := by simp [Sentinel.exhaustedJob, withJobUpdate] at hcode
  created := h.created_copy ⟨rfl, rfl, rfl, rfl⟩

end Backed

/-! ## The invariant -/

/-- Every stored record is backed, under its own key. -/
def StoreBacked (c : Cluster) : Prop :=
  ∀ jobId record, c.store.get jobId = some record → Backed c jobId record

/-- Every copy in the hands of a call of `submit` is backed, and unfinished where it will be
copied again. -/
def SubmitBacked (H : Hashing) (c : Cluster) (call : SubmitCall) : Prop :=
  match call.point with
  | .create storedJob => ∃ now, storedJob = call.storedJob H now
  | .publish storedJob _ =>
    Backed c (call.jobId H) storedJob ∧ storedJob.job.state ≠ .succeeded
  | .saveFailed record _ | .saveAccepted record =>
    Backed c (call.jobId H) record ∧ record.job.state ≠ .succeeded
  | .get | .returned _ | .raised _ | .crashed => True

def DeliveryBacked (c : Cluster) (delivery : Delivery) : Prop :=
  match delivery.point with
  | .saveProcessing processing | .moderate processing | .publishResult processing _
  | .publishExhausted processing =>
    Backed c delivery.event.jobId processing ∧ processing.job.state ≠ .succeeded
  | .publishRetry processing retryEvent =>
    (Backed c delivery.event.jobId processing ∧ processing.job.state ≠ .succeeded) ∧
      retryEvent = { delivery.event with attempt := delivery.event.attempt + 1 }
  | .saveSucceeded record => Backed c delivery.event.jobId record ∧ record.job.state = .succeeded
  | .saveRetrying record | .saveFailed record =>
    Backed c delivery.event.jobId record ∧ record.job.state ≠ .succeeded
  | .get | .publishMissing | .returned => True

theorem StoreBacked.congr {c c' : Cluster} (h : StoreBacked c) (hgrows : c.Grows c')
    (hstore : c'.store = c.store) : StoreBacked c' := fun jobId record hget ↦
  (h jobId record (hstore ▸ hget)).mono hgrows

theorem StoreBacked.save {c : Cluster} (h : StoreBacked c) {jobId : String}
    {record : StoredModerationJob} (hrecord : Backed c jobId record) :
    StoreBacked (c.save record) := by
  intro jobId' record' hget
  rcases RedisJobStore.get_save_eq_some hget with ⟨rfl, rfl⟩ | hget'
  · exact (hrecord.jobId_eq ▸ hrecord).mono (Cluster.grows_save c _)
  · exact (h jobId' record' hget').mono (Cluster.grows_save c _)

theorem StoreBacked.create {c : Cluster} (h : StoreBacked c) {jobId : String}
    {record : StoredModerationJob}
    (hrecord : Backed { c with store := c.store.set record, created := c.created ++ [record] }
      jobId record) :
    StoreBacked { c with store := c.store.set record, created := c.created ++ [record] } := by
  intro jobId' record' hget
  rw [RedisJobStore.get_set] at hget
  split_ifs at hget with hid
  · cases hget
    exact hid ▸ hrecord.jobId_eq ▸ hrecord
  · exact (h jobId' record' hget).mono (Cluster.grows_create c record)

theorem StoreBacked.expire {c : Cluster} (h : StoreBacked c) (jobId : String) :
    StoreBacked (c.expire jobId) := by
  intro jobId' record hget
  rw [Cluster.expire, RedisJobStore.get_expire] at hget
  split_ifs at hget
  exact (h jobId' record hget).mono (Cluster.grows_expire c jobId)

theorem SubmitBacked.moves {H : Hashing} {c c' : Cluster} {call : SubmitCall}
    {point : SubmitPoint} (hstore : StoreBacked c) (hcall : SubmitBacked H c call)
    (hmoves : call.Moves H c c' point) :
    StoreBacked c' ∧ SubmitBacked H c' { call with point := point } := by
  have hgrows := hmoves.grows
  cases hmoves with
  | created storedJob hpoint hfree =>
    rw [SubmitBacked, hpoint] at hcall
    obtain ⟨now, rfl⟩ := hcall
    have hbacked : Backed
        { c with
          store := c.store.set (call.storedJob H now)
          created := c.created ++ [call.storedJob H now] }
        (call.jobId H) (call.storedJob H now) :=
      Backed.fresh H call now (List.mem_append_right _ (List.mem_singleton_self _))
    exact ⟨hstore.create hbacked, hbacked, by simp [SubmitCall.storedJob]⟩
  | taken | disappeared | conflict | existing => exact ⟨hstore, trivial⟩
  | replay existing hpoint hget heq hfailed =>
    exact ⟨hstore, hstore _ _ hget, by simp [hfailed.1]⟩
  | published => exact ⟨hstore.congr hgrows rfl, trivial⟩
  | republished storedJob now hpoint =>
    rw [SubmitBacked, hpoint] at hcall
    exact ⟨hstore.congr hgrows rfl, (hcall.1.mono hgrows).replayAccepted hcall.2 now,
      by simp [replayAccepted]⟩
  | unpublished storedJob replay now c' hpoint hc' =>
    rw [SubmitBacked, hpoint] at hcall
    have hsame : c'.store = c.store := by rcases hc' with rfl | rfl <;> rfl
    exact ⟨hstore.congr hgrows hsame, (hcall.1.mono hgrows).publishFailed hcall.2 now,
      by simp [publishFailed]⟩
  | failed failed replay hpoint =>
    rw [SubmitBacked, hpoint] at hcall
    exact ⟨hstore.save hcall.1, trivial⟩
  | accepted accepted hpoint =>
    rw [SubmitBacked, hpoint] at hcall
    exact ⟨hstore.save hcall.1, trivial⟩

theorem DeliveryBacked.moves {maxAttempts : ℤ} {c c' : Cluster} {delivery : Delivery}
    {point : Option ProcessPoint} (hstore : StoreBacked c) (hdelivery : DeliveryBacked c delivery)
    (hmoves : delivery.Moves maxAttempts c c' point) :
    StoreBacked c' ∧ ∀ next ∈ point, DeliveryBacked c' { delivery with point := next } := by
  have hgrows := hmoves.grows
  cases hmoves with
  | missing | duplicate => exact ⟨hstore, by rintro _ ⟨⟩; trivial⟩
  | taken storedJob now hpoint hget hstate =>
    refine ⟨hstore, ?_⟩
    rintro _ ⟨⟩
    exact ⟨(hstore _ _ hget).processingJob hstate delivery.event now,
      by simp [processingJob, withJobUpdate]⟩
  | processing processing hpoint =>
    rw [DeliveryBacked, hpoint] at hdelivery
    refine ⟨hstore.save hdelivery.1, ?_⟩
    rintro _ ⟨⟩
    exact ⟨hdelivery.1.mono hgrows, hdelivery.2⟩
  | moderated processing result hpoint =>
    rw [DeliveryBacked, hpoint] at hdelivery
    refine ⟨hstore.congr hgrows rfl, ?_⟩
    rintro _ ⟨⟩
    exact ⟨hdelivery.1.mono hgrows, hdelivery.2⟩
  | failedRetry processing hpoint hleft =>
    rw [DeliveryBacked, hpoint] at hdelivery
    refine ⟨hstore.congr hgrows rfl, ?_⟩
    rintro _ ⟨⟩
    exact ⟨⟨hdelivery.1.mono hgrows, hdelivery.2⟩, rfl⟩
  | failedLast processing hpoint hleft =>
    rw [DeliveryBacked, hpoint] at hdelivery
    refine ⟨hstore.congr hgrows rfl, ?_⟩
    rintro _ ⟨⟩
    exact ⟨hdelivery.1.mono hgrows, hdelivery.2⟩
  | publishedMissing hpoint => exact ⟨hstore.congr hgrows rfl, by rintro _ ⟨⟩; trivial⟩
  | publishedResult processing result now hpoint =>
    rw [DeliveryBacked, hpoint] at hdelivery
    refine ⟨hstore.congr hgrows rfl, ?_⟩
    rintro _ ⟨⟩
    exact ⟨(hdelivery.1.mono hgrows).succeededJob _ (c.published_append _ _ _) now, rfl⟩
  | publishedRetry processing retryEvent now hpoint =>
    rw [DeliveryBacked, hpoint] at hdelivery
    obtain ⟨⟨hbacked, hstate⟩, rfl⟩ := hdelivery
    refine ⟨hstore.congr hgrows rfl, ?_⟩
    rintro _ ⟨⟩
    exact ⟨(hbacked.mono hgrows).retryingJob hstate
      { delivery.event with attempt := delivery.event.attempt + 1 } rfl
      (c.published_append _ _ _) now, by simp [retryingJob, withJobUpdate]⟩
  | publishedExhausted processing now hpoint =>
    rw [DeliveryBacked, hpoint] at hdelivery
    refine ⟨hstore.congr hgrows rfl, ?_⟩
    rintro _ ⟨⟩
    exact ⟨(hdelivery.1.mono hgrows).exhaustedJob hdelivery.2 rfl (c.published_append _ _ _) now,
      by simp [exhaustedJob, withJobUpdate]⟩
  | unpublished topic payload c' hpublication hc' =>
    have hsame : c'.store = c.store := by rcases hc' with rfl | rfl <;> rfl
    exact ⟨hstore.congr hgrows hsame, by rintro _ ⟨⟩⟩
  | succeeded record hpoint | retrying record hpoint | failed record hpoint =>
    rw [DeliveryBacked, hpoint] at hdelivery
    exact ⟨hstore.save hdelivery.1, by rintro _ ⟨⟩; trivial⟩

theorem SubmitBacked.mono {H : Hashing} {c c' : Cluster} {call : SubmitCall}
    (hgrows : c.Grows c') (h : SubmitBacked H c call) : SubmitBacked H c' call := by
  rw [SubmitBacked] at h ⊢
  split at h
  · exact h
  · exact ⟨h.1.mono hgrows, h.2⟩
  · exact ⟨h.1.mono hgrows, h.2⟩
  · exact ⟨h.1.mono hgrows, h.2⟩
  all_goals trivial

theorem DeliveryBacked.mono {c c' : Cluster} {delivery : Delivery}
    (hgrows : c.Grows c') (h : DeliveryBacked c delivery) : DeliveryBacked c' delivery := by
  rw [DeliveryBacked] at h ⊢
  split at h
  · exact ⟨h.1.mono hgrows, h.2⟩
  · exact ⟨h.1.mono hgrows, h.2⟩
  · exact ⟨h.1.mono hgrows, h.2⟩
  · exact ⟨h.1.mono hgrows, h.2⟩
  · exact ⟨⟨h.1.1.mono hgrows, h.1.2⟩, h.2⟩
  · exact ⟨h.1.mono hgrows, h.2⟩
  · exact ⟨h.1.mono hgrows, h.2⟩
  · exact ⟨h.1.mono hgrows, h.2⟩
  all_goals trivial

/-- **The invariant of all runs**, with expiry. -/
theorem isInductive_backed (H : Hashing) (maxAttempts : ℤ) :
    System.IsInductive H maxAttempts (fun _ ↦ True) StoreBacked (SubmitBacked H)
      DeliveryBacked where
  submit_mono := SubmitBacked.mono
  delivery_mono := DeliveryBacked.mono
  submit _ _ now _ := ⟨now, rfl⟩
  submitStep := SubmitBacked.moves
  submitCrash _ := trivial
  poll _ _ := trivial
  processStep := DeliveryBacked.moves
  commit h _ _ := h.congr (Cluster.grows_commit _ _) rfl
  expire jobId _ h := h.expire jobId

/-- A state in which every copy is justified. -/
abbrev System.Sound (H : Hashing) (s : System) : Prop :=
  s.Holds StoreBacked (SubmitBacked H) DeliveryBacked

theorem System.Sound.step {H : Hashing} {maxAttempts : ℤ} {s s' : System} {a : Action}
    (hsound : s.Sound H) (hstep : System.step H maxAttempts s a = some s') : s'.Sound H :=
  (isInductive_backed H maxAttempts).moves hsound trivial (System.moves_of_step hstep)

theorem holds_backed {H : Hashing} {maxAttempts : ℤ} {as : List Action} {s : System}
    (hrun : System.run H maxAttempts System.init as = some s) : s.Sound H :=
  (isInductive_backed H maxAttempts).run (System.Holds.init fun _ _ h ↦ by cases h)
    (fun _ _ ↦ trivial) hrun

/-! ## Creation happens once -/

/-- Every created record still has its key, and no two have the same. -/
structure CreatedOnce (c : Cluster) : Prop where
  isSome_get : ∀ original ∈ c.created, (c.store.get original.job.jobId).isSome
  nodup : (c.created.map fun original ↦ original.job.jobId).Nodup

namespace CreatedOnce

variable {c : Cluster}

theorem congr {c' : Cluster} (h : CreatedOnce c) (hcreated : c'.created = c.created)
    (hstore : ∀ jobId, (c'.store.get jobId).isSome = (c.store.get jobId).isSome) :
    CreatedOnce c' where
  isSome_get original hmem := by
    rw [hstore]
    exact h.isSome_get original (hcreated ▸ hmem)
  nodup := hcreated ▸ h.nodup

theorem save (h : CreatedOnce c) (record : StoredModerationJob) : CreatedOnce (c.save record) :=
  h.congr rfl fun _ ↦ RedisJobStore.isSome_get_save

theorem create (h : CreatedOnce c) {record : StoredModerationJob}
    (hfree : c.store.get record.job.jobId = none) :
    CreatedOnce
      { c with store := c.store.set record, created := c.created ++ [record] } where
  isSome_get original hmem := by
    rw [RedisJobStore.get_set]
    split_ifs with hid
    · rfl
    · rcases List.mem_append.mp hmem with hmem | hmem
      · exact h.isSome_get original hmem
      · exact absurd (by rw [List.mem_singleton.mp hmem]) hid
  nodup := by
    rw [List.map_append, List.map_singleton, List.nodup_append]
    refine ⟨h.nodup, List.nodup_singleton _, ?_⟩
    intro jobId hmem jobId' hmem' hid
    obtain ⟨original, horiginal, rfl⟩ := List.mem_map.mp hmem
    have hsome := h.isSome_get original horiginal
    rw [hid, List.mem_singleton.mp hmem', hfree] at hsome
    cases hsome

theorem eq_of_jobId (h : CreatedOnce c) {original original' : StoredModerationJob}
    (hmem : original ∈ c.created) (hmem' : original' ∈ c.created)
    (hid : original.job.jobId = original'.job.jobId) : original = original' :=
  List.inj_on_of_nodup_map h.nodup hmem hmem' hid

end CreatedOnce

theorem isInductive_createdOnce (H : Hashing) (maxAttempts : ℤ) :
    System.IsInductive H maxAttempts (fun a ↦ a.keepsKeys = true) CreatedOnce (fun _ _ ↦ True)
      (fun _ _ ↦ True) where
  submit_mono _ _ := trivial
  delivery_mono _ _ := trivial
  submit _ _ _ _ := trivial
  submitStep h _ hmoves := by
    refine ⟨?_, trivial⟩
    cases hmoves with
    | created storedJob hpoint hfree => exact h.create hfree
    | taken | disappeared | conflict | replay | existing => exact h
    | published | republished => exact h.congr rfl fun _ ↦ rfl
    | unpublished storedJob replay now c' hpoint hc' =>
      rcases hc' with rfl | rfl
      · exact h
      · exact h.congr rfl fun _ ↦ rfl
    | failed | accepted => exact h.save _
  submitCrash _ := trivial
  poll _ _ := trivial
  processStep h _ hmoves := by
    refine ⟨?_, fun _ _ ↦ trivial⟩
    cases hmoves with
    | missing | duplicate | taken => exact h
    | processing | succeeded | retrying | failed => exact h.save _
    | moderated | failedRetry | failedLast | publishedMissing | publishedResult | publishedRetry
    | publishedExhausted => exact h.congr rfl fun _ ↦ rfl
    | unpublished topic payload c' hpublication hc' =>
      rcases hc' with rfl | rfl
      · exact h
      · exact h.congr rfl fun _ ↦ rfl
  commit h _ _ := h.congr rfl fun _ ↦ rfl
  expire _ hkeeps _ := by cases hkeeps

theorem createdOnce_of_run {H : Hashing} {maxAttempts : ℤ} {as : List Action} {s : System}
    (hkeeps : ∀ a ∈ as, a.keepsKeys = true)
    (hrun : System.run H maxAttempts System.init as = some s) : CreatedOnce s.cluster :=
  ((isInductive_createdOnce H maxAttempts).run
    (System.Holds.init ⟨fun _ h ↦ (by cases h), List.nodup_nil⟩) hkeeps hrun).cluster

/-! ## The stored records -/

/-- **A stored record is self-consistent and never runs ahead of the broker.** In every state of
every run, whatever steps are interleaved, crash, fail or are repeated: a result is present exactly
in the state `succeeded`, and has been published; a failure is an unpublished submission or a
dead-lettered exhaustion; a scheduled retry is an accepted job whose retry event is out; and the
identity fields are those of a creation of this job id, which is the only one if no key has
expired. -/
theorem stored_record_consistent (H : Hashing) (maxAttempts : ℤ) {as : List Action} {s : System}
    (hrun : System.run H maxAttempts System.init as = some s) {jobId : String}
    {record : StoredModerationJob} (hget : s.cluster.store.get jobId = some record) :
    (record.job.result.isSome ↔ record.job.state = .succeeded) ∧
    (record.job.state = .succeeded → ∃ result, record.job.result = some result ∧
      s.cluster.Published .result jobId (.result result)) ∧
    (record.job.state = .failed →
      record.job.errorCode = some "queue_publish_failed" ∨
        (record.job.errorCode = some "processing_attempts_exhausted" ∧
          ∃ letter : DeadLetter, letter.jobId = jobId ∧
            letter.errorCode = "processing_attempts_exhausted" ∧
            s.cluster.Published .dlq jobId (.deadLetter letter))) ∧
    (record.job.errorCode = some "processing_retry_scheduled" →
      record.job.state = .accepted ∧
        ∃ event : ModerationJobEvent, event.jobId = jobId ∧
          event.attempt = record.job.attempt ∧
          s.cluster.Published .retry jobId (.event event)) ∧
    record.job.jobId = jobId ∧
    (∃ original ∈ s.cluster.created, original.SameIdentity record) ∧
    ((∀ a ∈ as, a.keepsKeys = true) → ∀ original ∈ s.cluster.created,
      original.job.jobId = jobId → original.SameIdentity record) := by
  have hbacked : Backed s.cluster jobId record := (holds_backed hrun).cluster jobId record hget
  refine ⟨hbacked.result_iff, ?_, hbacked.failed, hbacked.retrying, hbacked.jobId_eq,
    hbacked.created, ?_⟩
  · intro hstate
    obtain ⟨result, hresult⟩ := Option.isSome_iff_exists.mp (hbacked.result_iff.mpr hstate)
    exact ⟨result, hresult, hbacked.result result hresult⟩
  · intro hkeeps original hmem hid
    obtain ⟨original', hmem', hsame⟩ := hbacked.created
    have heq : original = original' := (createdOnce_of_run hkeeps hrun).eq_of_jobId hmem hmem'
      (hid.trans (hbacked.jobId_eq.symm.trans hsame.jobId))
    exact heq ▸ hsame

/-- After the sample run the succeeded record has its result published. -/
theorem stored_record_consistent_sample : ∃ s,
    System.run Hashing.sample 3 System.init
      (System.sampleSubmission ++ System.sampleProcessing 0) = some s ∧
    ∃ result, System.sampleRecord.job.result = some result ∧
      s.cluster.Published .result System.sampleJobId (.result result) := by
  obtain ⟨s, hrun, hget⟩ := Option.bind_eq_some_iff.mp
    (show ((System.run Hashing.sample 3 System.init
      (System.sampleSubmission ++ System.sampleProcessing 0)).bind
        fun s ↦ s.cluster.store.get System.sampleJobId) = some System.sampleRecord by decide)
  exact ⟨s, hrun, (stored_record_consistent Hashing.sample 3 hrun hget).2.1 rfl⟩

end Sentinel
