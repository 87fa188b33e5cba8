import Mathlib.Logic.Function.Basic
import Sentinel.Schemas.Moderation

/-!
# Job store and event log

The two external systems behind the distributed path, at the level of the single requests the
adapters send them. A Redis `GET`, `SET NX` or `SET XX` is one atomic step. A Kafka publication is
one step with three outcomes, because the publisher waits for the broker's acknowledgement and may
stop waiting for an event that the broker has nevertheless taken.

Records and events are kept as the values they encode, not as JSON texts.

The log is chronological over all topics, and an event is identified by its offset in it. The
broker hands any input or retry event to any worker at any time, so redelivery needs no step of its
own. The last two fields of a cluster are history: no operation reads them.
-/

namespace Sentinel

/-! ## The job store -/

/-- `RedisJobStore`: the record stored under each Redis key. -/
structure RedisJobStore where
  entries : String → Option StoredModerationJob

namespace RedisJobStore

/-- `RedisJobStore._key`. -/
def key (jobId : String) : String := "sentinel:moderation:job:" ++ jobId

theorem key_inj {i j : String} : key i = key j ↔ i = j :=
  String.append_right_inj _

def empty : RedisJobStore := ⟨fun _ ↦ none⟩

/-- `RedisJobStore.get`. -/
def get (store : RedisJobStore) (jobId : String) : Option StoredModerationJob :=
  store.entries (key jobId)

/-- `SET`: write the record under its own job id. -/
def set (store : RedisJobStore) (storedJob : StoredModerationJob) : RedisJobStore :=
  ⟨Function.update store.entries (key storedJob.job.jobId) (some storedJob)⟩

/-- `RedisJobStore.create`, a `SET NX`: the reply, and the store afterwards. -/
def create (store : RedisJobStore) (storedJob : StoredModerationJob) : Bool × RedisJobStore :=
  if (store.get storedJob.job.jobId).isSome then (false, store) else (true, store.set storedJob)

/-- `RedisJobStore.save`, a `SET XX`: without the key, nothing is written. -/
def save (store : RedisJobStore) (storedJob : StoredModerationJob) : RedisJobStore :=
  if (store.get storedJob.job.jobId).isSome then store.set storedJob else store

/-- The key's time to live has run out. -/
def expire (store : RedisJobStore) (jobId : String) : RedisJobStore :=
  ⟨Function.update store.entries (key jobId) none⟩

variable {store : RedisJobStore} {storedJob : StoredModerationJob} {jobId : String}

theorem get_set (store : RedisJobStore) (storedJob : StoredModerationJob) (jobId : String) :
    (store.set storedJob).get jobId
      = if jobId = storedJob.job.jobId then some storedJob else store.get jobId := by
  simp only [get, set, Function.update_apply]
  by_cases h : jobId = storedJob.job.jobId
  · rw [if_pos (key_inj.mpr h), if_pos h]
  · rw [if_neg (mt key_inj.mp h), if_neg h]

theorem get_save (store : RedisJobStore) (storedJob : StoredModerationJob) (jobId : String) :
    (store.save storedJob).get jobId
      = if jobId = storedJob.job.jobId ∧ (store.get jobId).isSome then some storedJob
        else store.get jobId := by
  rw [save]
  by_cases hkey : (store.get storedJob.job.jobId).isSome
  · rw [if_pos hkey, get_set]
    by_cases h : jobId = storedJob.job.jobId
    · rw [if_pos h, if_pos ⟨h, h ▸ hkey⟩]
    · rw [if_neg h, if_neg fun hc ↦ h hc.1]
  · rw [if_neg hkey, if_neg]
    rintro ⟨rfl, h⟩
    exact hkey h

theorem get_save_of_ne (h : jobId ≠ storedJob.job.jobId) :
    (store.save storedJob).get jobId = store.get jobId := by
  rw [get_save, if_neg fun hc ↦ h hc.1]

theorem isSome_get_save :
    ((store.save storedJob).get jobId).isSome = (store.get jobId).isSome := by
  rw [get_save]
  by_cases h : jobId = storedJob.job.jobId ∧ (store.get jobId).isSome
  · rw [if_pos h, h.2, Option.isSome_some]
  · rw [if_neg h]

theorem get_save_eq_some {record : StoredModerationJob}
    (h : (store.save storedJob).get jobId = some record) :
    (jobId = storedJob.job.jobId ∧ record = storedJob) ∨ store.get jobId = some record := by
  rw [get_save] at h
  by_cases hc : jobId = storedJob.job.jobId ∧ (store.get jobId).isSome
  · rw [if_pos hc, Option.some_inj] at h
    exact Or.inl ⟨hc.1, h.symm⟩
  · rw [if_neg hc] at h
    exact Or.inr h

theorem get_expire (store : RedisJobStore) (expired jobId : String) :
    (store.expire expired).get jobId = if jobId = expired then none else store.get jobId := by
  simp only [get, expire, Function.update_apply]
  by_cases h : jobId = expired
  · rw [if_pos (key_inj.mpr h), if_pos h]
  · rw [if_neg (mt key_inj.mp h), if_neg h]

end RedisJobStore

/-! ## The event log -/

inductive Topic
  | input
  | retry
  | result
  | dlq
deriving DecidableEq

structure DeadLetter where
  jobId : String
  requestId : Option String
  attempt : ℕ
  errorCode : String
deriving DecidableEq

inductive Payload
  | event (event : ModerationJobEvent)
  | result (response : ModerationResponse)
  | deadLetter (letter : DeadLetter)
deriving DecidableEq

structure Message where
  topic : Topic
  key : String
  payload : Payload
  /-- Whether the publisher was told so. -/
  acknowledged : Bool
deriving DecidableEq

/-- What becomes of a publication. -/
inductive PublishOutcome
  /-- `publish` returns. -/
  | acknowledged
  /-- `publish` raises and the broker has nothing. -/
  | lost
  /-- `publish` raises, on a timeout say, although the broker has the event. -/
  | unacknowledged
deriving DecidableEq

/-- One call of the worker's moderation engine: the event it was made for, and what the engine
returned, or nothing if it raised. -/
structure EngineRun where
  event : ModerationJobEvent
  outcome : Option ModerationResponse
deriving DecidableEq

/-! ## The cluster -/

structure Cluster where
  store : RedisJobStore
  log : List Message
  /-- The offsets whose messages the consumer group has acknowledged. -/
  committed : List ℕ
  /-- History: the records that a `SET NX` has created. -/
  created : List StoredModerationJob
  /-- History: the calls of the moderation engine. -/
  engineRuns : List EngineRun

namespace Cluster

def empty : Cluster := ⟨RedisJobStore.empty, [], [], [], []⟩

/-- `JobStore.create`. -/
def create (c : Cluster) (storedJob : StoredModerationJob) : Bool × Cluster :=
  if (c.store.create storedJob).1 then
    (true, { c with store := (c.store.create storedJob).2, created := c.created ++ [storedJob] })
  else (false, c)

/-- `JobStore.save`. -/
def save (c : Cluster) (storedJob : StoredModerationJob) : Cluster :=
  { c with store := c.store.save storedJob }

def append (c : Cluster) (message : Message) : Cluster := { c with log := c.log ++ [message] }

/-- `EventPublisher.publish`: whether it returns, and the cluster afterwards. -/
def publish (c : Cluster) (topic : Topic) (key : String) (payload : Payload) :
    PublishOutcome → Bool × Cluster
  | .acknowledged => (true, c.append ⟨topic, key, payload, true⟩)
  | .lost => (false, c)
  | .unacknowledged => (false, c.append ⟨topic, key, payload, false⟩)

/-- `consumer.commit(message=message)`. -/
def commit (c : Cluster) (offset : ℕ) : Cluster := { c with committed := offset :: c.committed }

def moderated (c : Cluster) (engineRun : EngineRun) : Cluster :=
  { c with engineRuns := c.engineRuns ++ [engineRun] }

def expire (c : Cluster) (jobId : String) : Cluster := { c with store := c.store.expire jobId }

theorem create_of_isSome {c : Cluster} {storedJob : StoredModerationJob}
    (h : (c.store.get storedJob.job.jobId).isSome) : c.create storedJob = (false, c) := by
  simp [create, RedisJobStore.create, h]

theorem create_of_eq_none {c : Cluster} {storedJob : StoredModerationJob}
    (h : c.store.get storedJob.job.jobId = none) :
    c.create storedJob
      = (true, { c with store := c.store.set storedJob, created := c.created ++ [storedJob] }) := by
  simp [create, RedisJobStore.create, h]

/-! ## Growth

Whatever anyone does, the log and the histories are only ever appended to. Facts about what has
been published or created therefore survive every step, which is what lets a caller's local copy
of a record stay justified while others act. -/

/-- One cluster is a later stage of another. -/
structure Grows (c c' : Cluster) : Prop where
  log : c.log <+: c'.log
  created : c.created <+: c'.created
  engineRuns : c.engineRuns <+: c'.engineRuns

theorem Grows.refl (c : Cluster) : c.Grows c :=
  ⟨List.prefix_refl _, List.prefix_refl _, List.prefix_refl _⟩

theorem grows_create (c : Cluster) (storedJob : StoredModerationJob) :
    c.Grows { c with store := c.store.set storedJob, created := c.created ++ [storedJob] } :=
  ⟨List.prefix_refl _, List.prefix_append _ _, List.prefix_refl _⟩

theorem grows_save (c : Cluster) (storedJob : StoredModerationJob) : c.Grows (c.save storedJob) :=
  ⟨List.prefix_refl _, List.prefix_refl _, List.prefix_refl _⟩

theorem grows_append (c : Cluster) (message : Message) : c.Grows (c.append message) :=
  ⟨List.prefix_append _ _, List.prefix_refl _, List.prefix_refl _⟩

theorem grows_commit (c : Cluster) (offset : ℕ) : c.Grows (c.commit offset) :=
  ⟨List.prefix_refl _, List.prefix_refl _, List.prefix_refl _⟩

theorem grows_moderated (c : Cluster) (engineRun : EngineRun) :
    c.Grows (c.moderated engineRun) :=
  ⟨List.prefix_refl _, List.prefix_refl _, List.prefix_append _ _⟩

theorem grows_expire (c : Cluster) (jobId : String) : c.Grows (c.expire jobId) :=
  ⟨List.prefix_refl _, List.prefix_refl _, List.prefix_refl _⟩

theorem publish_eq_false {c c' : Cluster} {topic : Topic} {key : String} {payload : Payload}
    {outcome : PublishOutcome} (h : c.publish topic key payload outcome = (false, c')) :
    c' = c ∨ c' = c.append ⟨topic, key, payload, false⟩ := by
  cases outcome with
  | acknowledged => simp [publish] at h
  | lost => exact Or.inl (Prod.mk.inj h).2.symm
  | unacknowledged => exact Or.inr (Prod.mk.inj h).2.symm

theorem publish_eq_true {c c' : Cluster} {topic : Topic} {key : String} {payload : Payload}
    {outcome : PublishOutcome} (h : c.publish topic key payload outcome = (true, c')) :
    c' = c.append ⟨topic, key, payload, true⟩ := by
  cases outcome with
  | acknowledged => exact (Prod.mk.inj h).2.symm
  | lost => simp [publish] at h
  | unacknowledged => simp [publish] at h

end Cluster

end Sentinel
