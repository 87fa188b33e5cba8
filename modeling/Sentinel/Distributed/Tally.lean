import Sentinel.Collections.Counting
import Sentinel.Distributed.Engaged

/-!
# What a job leaves behind

All that can be counted for a job: the events of each kind, the runs of the engine, and the offsets
that are still pending. At any time a submitted job is in one of four places. Its event is pending,
or the worker has it, or it has ended, or the event has not been published yet; and the number of
the attempt says what the counts are there. What makes them exact is that a job has one pending
event at a time. Only between the publication of a retry and the commit of the event it replaces
there are two.
-/

namespace Sentinel

/-! ## What is counted -/

namespace Cluster

def count (c : Cluster) (topic : Topic) (jobId : String) : ℕ :=
  c.log.countP fun message ↦ message.topic = topic ∧ message.key = jobId

def runs (c : Cluster) (jobId : String) : ℕ :=
  c.engineRuns.countP fun engineRun ↦ engineRun.event.jobId = jobId

/-- The offsets of the events of the job that a worker can receive and that are not committed. -/
def pending (c : Cluster) (jobId : String) : List ℕ :=
  (List.range c.log.length).filter fun offset ↦
    (c.poll offset).any (fun event ↦ event.jobId = jobId) && decide (offset ∉ c.committed)

/-- All that can be counted for a job. -/
structure Tally (c : Cluster) (jobId : String) (inputs runs retries results deadLetters : ℕ) :
    Prop where
  inputs : c.count .input jobId = inputs
  runs : c.runs jobId = runs
  retries : c.count .retry jobId = retries
  results : c.count .result jobId = results
  deadLetters : c.count .dlq jobId = deadLetters

variable {c : Cluster} {jobId : String} {message : Message} {offset : ℕ}
  {event : ModerationJobEvent}

theorem count_append (topic : Topic) : (c.append message).count topic jobId
    = c.count topic jobId + if message.topic = topic ∧ message.key = jobId then 1 else 0 := by
  simp [count, append, List.countP_append, List.countP_singleton]

theorem count_append_of_ne (hkey : message.key ≠ jobId) (topic : Topic) :
    (c.append message).count topic jobId = c.count topic jobId := by
  rw [count_append, if_neg fun h ↦ hkey h.2, Nat.add_zero]

theorem runs_moderated (outcome : Option ModerationResponse) :
    (c.moderated ⟨event, outcome⟩).runs jobId
      = c.runs jobId + if event.jobId = jobId then 1 else 0 := by
  simp [runs, moderated, List.countP_append, List.countP_singleton]

/-! ### Offsets -/

theorem lt_of_poll (h : c.poll offset = some event) : offset < c.log.length := by
  rw [poll] at h
  split at h
  · rename_i hlog
    exact (List.getElem?_eq_some_iff.mp hlog).1
  · cases h

theorem poll_append_of_lt (h : offset < c.log.length) :
    (c.append message).poll offset = c.poll offset := by
  simp only [poll, append, List.getElem?_append_left h]

theorem poll_append_self (h : message.topic.subscribed = true)
    (hpayload : message.payload = .event event) :
    (c.append message).poll c.log.length = some event := by
  obtain ⟨topic, key, payload, acknowledged⟩ := message
  obtain rfl : payload = .event event := hpayload
  simp only [poll, append, List.getElem?_concat_length, if_pos h]

theorem poll_append_of_not (h : message.topic.subscribed = false) :
    (c.append message).poll c.log.length = none := by
  obtain ⟨topic, key, payload, acknowledged⟩ := message
  simp only [poll, append, List.getElem?_concat_length]
  cases payload with
  | event event =>
    refine if_neg ?_
    rw [Bool.not_eq_true]
    exact h
  | result | deadLetter => rfl

theorem Grows.poll {c c' : Cluster} (hgrows : c.Grows c') (h : c.poll offset = some event) :
    c'.poll offset = some event := by
  obtain ⟨log, hlog⟩ := hgrows.log
  have hlt := lt_of_poll h
  rw [Cluster.poll] at h ⊢
  rwa [← hlog, List.getElem?_append_left hlt]

theorem mem_pending : offset ∈ c.pending jobId ↔
    (∃ event, c.poll offset = some event ∧ event.jobId = jobId) ∧ offset ∉ c.committed := by
  simp only [pending, List.mem_filter, List.mem_range, Bool.and_eq_true, Option.any_eq_true,
    decide_eq_true_eq]
  constructor
  · exact fun h ↦ h.2
  · rintro ⟨⟨event, hpoll, hid⟩, hcommitted⟩
    exact ⟨lt_of_poll hpoll, ⟨event, hpoll, hid⟩, hcommitted⟩

theorem pending_append_of_not
    (h : ∀ event, (c.append message).poll c.log.length = some event → event.jobId ≠ jobId) :
    (c.append message).pending jobId = c.pending jobId := by
  have hlength : (c.append message).log.length = c.log.length + 1 := by simp [append]
  have hlast : ((c.append message).poll c.log.length).any (fun event ↦ event.jobId = jobId)
      = false := by
    cases hpoll : (c.append message).poll c.log.length with
    | none => rfl
    | some event => exact decide_eq_false (h event hpoll)
  rw [pending, hlength, List.range_succ, List.filter_append, List.filter_singleton, hlast,
    Bool.false_and, cond_false, List.append_nil, pending]
  apply List.filter_congr
  intro offset hoffset
  rw [poll_append_of_lt (List.mem_range.mp hoffset)]
  rfl

/-- A result or a dead letter is no event. -/
theorem pending_append_end (h : message.topic.subscribed = false) :
    (c.append message).pending jobId = c.pending jobId := by
  apply pending_append_of_not
  intro event hpoll
  rw [poll_append_of_not h] at hpoll
  cases hpoll

theorem pending_append (h : message.topic.subscribed = true)
    (hpayload : message.payload = .event event) (hid : event.jobId = jobId)
    (hcommitted : ∀ offset ∈ c.committed, offset < c.log.length) :
    (c.append message).pending jobId = c.pending jobId ++ [c.log.length] := by
  have hlength : (c.append message).log.length = c.log.length + 1 := by simp [append]
  have hlast : c.log.length ∉ (c.append message).committed := fun hmem ↦
    lt_irrefl _ (hcommitted _ hmem)
  rw [pending, hlength, List.range_succ, List.filter_append, List.filter_singleton,
    poll_append_self h hpayload, Option.any_some, decide_eq_true hid, decide_eq_true hlast,
    Bool.and_self, cond_true, pending]
  congr 1
  apply List.filter_congr
  intro offset hoffset
  rw [poll_append_of_lt (List.mem_range.mp hoffset)]
  rfl

theorem pending_commit (offset : ℕ) : (c.commit offset).pending jobId
    = (c.pending jobId).filter fun offset' ↦ decide (offset' ≠ offset) := by
  rw [pending, pending, List.filter_filter]
  apply List.filter_congr
  intro offset' _
  simp only [commit, poll, List.mem_cons, not_or, Bool.decide_and]
  rw [Bool.and_left_comm]

theorem pending_nodup (c : Cluster) (jobId : String) : (c.pending jobId).Nodup :=
  List.nodup_range.filter _

/-! ### What an operation does to the tally -/

namespace Tally

variable {inputs runs retries results deadLetters : ℕ}

theorem append (h : c.Tally jobId inputs runs retries results deadLetters)
    (hkey : message.key = jobId) :
    (c.append message).Tally jobId (inputs + if message.topic = .input then 1 else 0) runs
      (retries + if message.topic = .retry then 1 else 0)
      (results + if message.topic = .result then 1 else 0)
      (deadLetters + if message.topic = .dlq then 1 else 0) := by
  constructor
  · simp only [count_append, h.inputs, hkey, and_true]
  · exact h.runs
  · simp only [count_append, h.retries, hkey, and_true]
  · simp only [count_append, h.results, hkey, and_true]
  · simp only [count_append, h.deadLetters, hkey, and_true]

theorem moderated (h : c.Tally jobId inputs runs retries results deadLetters)
    (hid : event.jobId = jobId) (outcome : Option ModerationResponse) :
    (c.moderated ⟨event, outcome⟩).Tally jobId inputs (runs + 1) retries results deadLetters :=
  ⟨h.inputs, by rw [runs_moderated, h.runs, if_pos hid], h.retries, h.results, h.deadLetters⟩

theorem congr {c' : Cluster} (h : c.Tally jobId inputs runs retries results deadLetters)
    (hlog : c'.log = c.log) (hruns : c'.engineRuns = c.engineRuns) :
    c'.Tally jobId inputs runs retries results deadLetters := by
  constructor
  · rw [count, hlog]
    exact h.inputs
  · rw [Cluster.runs, hruns]
    exact h.runs
  · rw [count, hlog]
    exact h.retries
  · rw [count, hlog]
    exact h.results
  · rw [count, hlog]
    exact h.deadLetters

end Tally

structure SameJob (c c' : Cluster) (jobId : String) : Prop where
  get : c'.store.get jobId = c.store.get jobId
  count : ∀ topic, c'.count topic jobId = c.count topic jobId
  runs : c'.runs jobId = c.runs jobId
  pending : c'.pending jobId = c.pending jobId
  poll : ∀ {offset event}, c.poll offset = some event → c'.poll offset = some event

namespace SameJob

theorem refl (c : Cluster) (jobId : String) : c.SameJob c jobId :=
  ⟨rfl, fun _ ↦ rfl, rfl, rfl, id⟩

theorem tally {c' : Cluster} (h : c.SameJob c' jobId)
    {inputs runs retries results deadLetters : ℕ}
    (htally : c.Tally jobId inputs runs retries results deadLetters) :
    c'.Tally jobId inputs runs retries results deadLetters :=
  ⟨(h.count _).trans htally.inputs, h.runs.trans htally.runs, (h.count _).trans htally.retries,
    (h.count _).trans htally.results, (h.count _).trans htally.deadLetters⟩

theorem of_append (hkey : message.key ≠ jobId)
    (hevent : ∀ event, message.payload = .event event → event.jobId ≠ jobId) :
    c.SameJob (c.append message) jobId where
  get := rfl
  count := count_append_of_ne hkey
  runs := rfl
  pending := by
    apply pending_append_of_not
    intro event hpoll
    obtain ⟨topic, key, payload, acknowledged⟩ := message
    simp only [Cluster.poll, append, List.getElem?_concat_length] at hpoll
    cases payload with
    | event event' =>
      dsimp only at hpoll
      split_ifs at hpoll
      cases hpoll
      exact hevent event rfl
    | result | deadLetter => cases hpoll
  poll := (grows_append c message).poll

theorem of_save {record : StoredModerationJob} (hid : record.job.jobId ≠ jobId) :
    c.SameJob (c.save record) jobId :=
  ⟨RedisJobStore.get_save_of_ne hid.symm, fun _ ↦ rfl, rfl, rfl, id⟩

end SameJob

end Cluster

/-! ## Where a job is

The engine's answers and the limit are fixed. -/

section Track

variable (answers : String → ℕ → Option ModerationResponse) (maxAttempts : ℕ)

/-- Every engine call before the attempt has failed, and the attempt is within the limit. -/
structure Reached (jobId : String) (attempt : ℕ) : Prop where
  left : attempt < maxAttempts
  failed : ∀ i < attempt, answers jobId i = none

/-- The attempt is to be made: as many runs and retries as attempts before it, and no end. -/
structure Due (c : Cluster) (jobId : String) (attempt : ℕ) : Prop extends
    Reached answers maxAttempts jobId attempt where
  tally : c.Tally jobId 1 attempt attempt 0 0
  unfinished : ∃ record, c.store.get jobId = some record ∧ record.job.state ≠ .succeeded

/-- The event that replaces the one in hand is pending. -/
def Requeued (c : Cluster) (jobId : String) (offset attempt : ℕ) : Prop :=
  ∃ offset' event, c.pending jobId = [offset, offset'] ∧ c.poll offset' = some event ∧
    event.attempt = attempt + 1 ∧ Due answers maxAttempts c jobId (attempt + 1)

/-- The job has ended with its first success, or with the failure of the last attempt. -/
def Closed (c : Cluster) (jobId : String) : Prop :=
  (∃ attempt, Reached answers maxAttempts jobId attempt ∧ (answers jobId attempt).isSome ∧
    c.Tally jobId 1 (attempt + 1) attempt 1 0 ∧ c.InState jobId .succeeded) ∨
  ((∀ i < maxAttempts, answers jobId i = none) ∧
    c.Tally jobId 1 maxAttempts (maxAttempts - 1) 0 1 ∧ c.Exhausted jobId)

/-- What holds of the job while the worker stands at the point with an event of it. -/
def Stage (c : Cluster) (jobId : String) (offset attempt : ℕ) : ProcessPoint → Prop
  | .get | .saveProcessing _ | .moderate _ =>
    c.pending jobId = [offset] ∧ Due answers maxAttempts c jobId attempt
  | .publishResult _ result => c.pending jobId = [offset] ∧
    Reached answers maxAttempts jobId attempt ∧ answers jobId attempt = some result ∧
      c.Tally jobId 1 (attempt + 1) attempt 0 0
  | .saveSucceeded _ => c.pending jobId = [offset] ∧
    Reached answers maxAttempts jobId attempt ∧ (answers jobId attempt).isSome ∧
      c.Tally jobId 1 (attempt + 1) attempt 1 0
  | .publishRetry _ _ => c.pending jobId = [offset] ∧
    Reached answers maxAttempts jobId (attempt + 1) ∧
      c.Tally jobId 1 (attempt + 1) attempt 0 0 ∧
        ∃ record, c.store.get jobId = some record ∧ record.job.state ≠ .succeeded
  | .saveRetrying _ => Requeued answers maxAttempts c jobId offset attempt
  | .publishExhausted _ => c.pending jobId = [offset] ∧
    (∀ i < maxAttempts, answers jobId i = none) ∧ attempt + 1 = maxAttempts ∧
      c.Tally jobId 1 (attempt + 1) attempt 0 0
  | .saveFailed _ => c.pending jobId = [offset] ∧
    (∀ i < maxAttempts, answers jobId i = none) ∧ attempt + 1 = maxAttempts ∧
      c.Tally jobId 1 (attempt + 1) attempt 0 1
  | .returned => Requeued answers maxAttempts c jobId offset attempt ∨
    (c.pending jobId = [offset] ∧ Closed answers maxAttempts c jobId)
  | .publishMissing => False

def System.Idle (s : System) (jobId : String) : Prop :=
  ∀ delivery, s.workers 0 = some delivery → delivery.event.jobId ≠ jobId

def System.Submitted (H : Hashing) (s : System) (jobId : String) : Prop :=
  ∃ client call job, s.submits client = some call ∧ call.jobId H = jobId ∧
    call.point = .returned job

inductive System.OnTrack (H : Hashing) (s : System) (jobId : String) : Prop
  /-- No record has been created. -/
  | absent (hidle : s.Idle jobId) (hnone : s.cluster.store.get jobId = none)
      (hpending : s.cluster.pending jobId = []) (htally : s.cluster.Tally jobId 0 0 0 0 0)
      (hcalls : ∀ client call, s.submits client = some call → call.jobId H = jobId →
        ∃ record, call.point = .create record)
  /-- The record is there, and the event is about to be published. -/
  | created (client : ℕ) (call : SubmitCall) (record : StoredModerationJob)
      (hcall : s.submits client = some call) (hid : call.jobId H = jobId)
      (hpoint : call.point = .publish record false) (hidle : s.Idle jobId)
      (hrecord : ∃ record, s.cluster.store.get jobId = some record ∧
        record.job.state ≠ .succeeded)
      (hpending : s.cluster.pending jobId = []) (htally : s.cluster.Tally jobId 0 0 0 0 0)
  /-- An event is pending. -/
  | waiting (offset : ℕ) (event : ModerationJobEvent) (hsubmitted : s.Submitted H jobId)
      (hidle : s.Idle jobId) (hpending : s.cluster.pending jobId = [offset])
      (hpoll : s.cluster.poll offset = some event)
      (hdue : Due answers maxAttempts s.cluster jobId event.attempt)
  /-- The worker has an event. -/
  | working (delivery : Delivery) (hsubmitted : s.Submitted H jobId)
      (hdelivery : s.workers 0 = some delivery) (hid : delivery.event.jobId = jobId)
      (hstage : Stage answers maxAttempts s.cluster jobId delivery.offset delivery.event.attempt
        delivery.point)
  /-- The job has ended. -/
  | closed (hsubmitted : s.Submitted H jobId) (hidle : s.Idle jobId)
      (hpending : s.cluster.pending jobId = [])
      (hclosed : Closed answers maxAttempts s.cluster jobId)

end Track

section Frame

variable {answers : String → ℕ → Option ModerationResponse} {maxAttempts : ℕ} {c c' : Cluster}
  {jobId : String} {offset attempt : ℕ} {point : ProcessPoint}

theorem Due.congr (h : Due answers maxAttempts c jobId attempt) (hsame : c.SameJob c' jobId) :
    Due answers maxAttempts c' jobId attempt where
  toReached := h.toReached
  tally := hsame.tally h.tally
  unfinished := by
    rw [hsame.get]
    exact h.unfinished

theorem Requeued.congr (h : Requeued answers maxAttempts c jobId offset attempt)
    (hsame : c.SameJob c' jobId) : Requeued answers maxAttempts c' jobId offset attempt := by
  obtain ⟨offset', event, hpending, hpoll, hattempt, hdue⟩ := h
  exact ⟨offset', event, hsame.pending.trans hpending, hsame.poll hpoll, hattempt,
    hdue.congr hsame⟩

theorem Closed.congr (h : Closed answers maxAttempts c jobId) (hsame : c.SameJob c' jobId) :
    Closed answers maxAttempts c' jobId := by
  rcases h with ⟨attempt, hreached, hsome, htally, hstate⟩ | ⟨hfailed, htally, hexhausted⟩
  · exact .inl ⟨attempt, hreached, hsome, hsame.tally htally, hstate.congr hsame.get⟩
  · exact .inr ⟨hfailed, hsame.tally htally, hexhausted.congr hsame.get⟩

theorem Stage.congr (h : Stage answers maxAttempts c jobId offset attempt point)
    (hsame : c.SameJob c' jobId) : Stage answers maxAttempts c' jobId offset attempt point := by
  cases point with
  | get | saveProcessing _ | moderate _ =>
    obtain ⟨hpending, hdue⟩ := h
    exact ⟨hsame.pending.trans hpending, hdue.congr hsame⟩
  | publishResult _ _ | saveSucceeded _ =>
    obtain ⟨hpending, hreached, hanswer, htally⟩ := h
    exact ⟨hsame.pending.trans hpending, hreached, hanswer, hsame.tally htally⟩
  | publishRetry _ _ =>
    obtain ⟨hpending, hreached, htally, hunfinished⟩ := h
    exact ⟨hsame.pending.trans hpending, hreached, hsame.tally htally, by rwa [hsame.get]⟩
  | saveRetrying _ => exact Requeued.congr h hsame
  | publishExhausted _ | saveFailed _ =>
    obtain ⟨hpending, hfailed, hlast, htally⟩ := h
    exact ⟨hsame.pending.trans hpending, hfailed, hlast, hsame.tally htally⟩
  | returned =>
    rcases h with hrequeued | ⟨hpending, hclosed⟩
    · exact .inl (hrequeued.congr hsame)
    · exact .inr ⟨hsame.pending.trans hpending, hclosed.congr hsame⟩
  | publishMissing => exact h

theorem System.OnTrack.congr {H : Hashing} {s s' : System}
    (h : s.OnTrack answers maxAttempts H jobId) (hsame : s.cluster.SameJob s'.cluster jobId)
    (hworkers : ∀ delivery, delivery.event.jobId = jobId →
      (s'.workers 0 = some delivery ↔ s.workers 0 = some delivery))
    (hsubmits : ∀ client call, call.jobId H = jobId →
      (s'.submits client = some call ↔ s.submits client = some call)) :
    s'.OnTrack answers maxAttempts H jobId := by
  have hidle : s.Idle jobId → s'.Idle jobId := fun hidle delivery hdelivery hid ↦
    hidle delivery ((hworkers delivery hid).mp hdelivery) hid
  have hsubmitted : s.Submitted H jobId → s'.Submitted H jobId := by
    rintro ⟨client, call, job, hcall, hid, hpoint⟩
    exact ⟨client, call, job, (hsubmits client call hid).mpr hcall, hid, hpoint⟩
  cases h with
  | absent hfree hnone hpending htally hcalls =>
    refine .absent (hidle hfree) (hsame.get.trans hnone) (hsame.pending.trans hpending)
      (hsame.tally htally) fun client call hcall hid ↦ ?_
    exact hcalls client call ((hsubmits client call hid).mp hcall) hid
  | created client call record hcall hid hpoint hfree hrecord hpending htally =>
    exact .created client call record ((hsubmits client call hid).mpr hcall) hid hpoint
      (hidle hfree) (by rwa [hsame.get]) (hsame.pending.trans hpending) (hsame.tally htally)
  | waiting offset event hdone hfree hpending hpoll hdue =>
    exact .waiting offset event (hsubmitted hdone) (hidle hfree) (hsame.pending.trans hpending)
      (hsame.poll hpoll) (hdue.congr hsame)
  | working delivery hdone hdelivery hid hstage =>
    exact .working delivery (hsubmitted hdone) ((hworkers delivery hid).mpr hdelivery) hid
      (hstage.congr hsame)
  | closed hdone hfree hpending hclosed =>
    exact .closed (hsubmitted hdone) (hidle hfree) (hsame.pending.trans hpending)
      (hclosed.congr hsame)

end Frame
end Sentinel
