import Sentinel.Distributed.Consistency

/-!
# No acknowledged event is lost

Until its offset is committed, an event will be delivered again, so only a commit can lose it. A
commit follows a return of `process`, and `process` returns only after it has left something behind:
the result, a dead letter, or a retry event. The retry event does not settle the job, but it lies
*behind* the event it replaces in the log. This gives the order the argument needs. Of the input and
retry events of a job, the last one can be committed only if the job has been answered.

The exit on a duplicate publishes nothing. It is safe because a record in the state `succeeded` has
its result published, which is part of `Backed`.
-/

namespace Sentinel

namespace Cluster

def WorkAt (c : Cluster) (jobId : String) (offset : ℕ) : Prop :=
  ∃ event, c.poll offset = some event ∧ event.jobId = jobId

def Answered (c : Cluster) (jobId : String) : Prop :=
  (∃ result, c.Published .result jobId (.result result)) ∨
    ∃ letter, c.Published .dlq jobId (.deadLetter letter)

/-- The event at the offset is no longer needed: its job has been answered, or another event of the
job lies behind it. -/
def Handled (c : Cluster) (jobId : String) (offset : ℕ) : Prop :=
  c.Answered jobId ∨ ∃ later, offset < later ∧ c.WorkAt jobId later

variable {c c' : Cluster} {jobId : String} {offset : ℕ} {event : ModerationJobEvent}

theorem Grows.getElem?_log (hgrows : c.Grows c') (hlt : offset < c.log.length) :
    c'.log[offset]? = c.log[offset]? := by
  obtain ⟨rest, hrest⟩ := hgrows.log
  rw [← hrest, List.getElem?_append_left hlt]

theorem poll_eq_some :
    c.poll offset = some event ↔ ∃ topic key acknowledged, topic.subscribed = true ∧
      c.log[offset]? = some ⟨topic, key, .event event, acknowledged⟩ := by
  rw [poll]
  constructor
  · intro h
    split at h
    · rename_i topic key event' acknowledged hlog
      split_ifs at h with htopic
      cases h
      exact ⟨topic, key, acknowledged, htopic, hlog⟩
    · cases h
  · rintro ⟨topic, key, acknowledged, htopic, hlog⟩
    rw [hlog]
    exact if_pos htopic

theorem lt_length_of_poll (h : c.poll offset = some event) : offset < c.log.length := by
  obtain ⟨topic, key, acknowledged, htopic, hlog⟩ := poll_eq_some.mp h
  exact (List.getElem?_eq_some_iff.mp hlog).1

theorem poll_mono (hgrows : c.Grows c') (h : c.poll offset = some event) :
    c'.poll offset = some event := by
  rw [poll, hgrows.getElem?_log (lt_length_of_poll h)]
  exact h

theorem poll_append {topic : Topic} (htopic : topic.subscribed = true) (key : String)
    (event : ModerationJobEvent) (acknowledged : Bool) :
    (c.append ⟨topic, key, .event event, acknowledged⟩).poll c.log.length = some event :=
  poll_eq_some.mpr ⟨topic, key, acknowledged, htopic, List.getElem?_concat_length⟩

theorem WorkAt.mono (hgrows : c.Grows c') (h : c.WorkAt jobId offset) :
    c'.WorkAt jobId offset := by
  obtain ⟨event, hpoll, hid⟩ := h
  exact ⟨event, poll_mono hgrows hpoll, hid⟩

theorem WorkAt.lt_length (h : c.WorkAt jobId offset) : offset < c.log.length := by
  obtain ⟨event, hpoll, hid⟩ := h
  exact lt_length_of_poll hpoll

theorem Answered.mono (hgrows : c.Grows c') (h : c.Answered jobId) : c'.Answered jobId := by
  rcases h with ⟨result, hpublished⟩ | ⟨letter, hpublished⟩
  · exact Or.inl ⟨result, hpublished.mono hgrows⟩
  · exact Or.inr ⟨letter, hpublished.mono hgrows⟩

theorem Handled.mono (hgrows : c.Grows c') (h : c.Handled jobId offset) :
    c'.Handled jobId offset := by
  rcases h with hanswered | ⟨later, hlt, hwork⟩
  · exact Or.inl (hanswered.mono hgrows)
  · exact Or.inr ⟨later, hlt, hwork.mono hgrows⟩

end Cluster

/-! ## The invariant -/

/-- What has been committed was no longer needed. -/
structure Tracked (c : Cluster) : Prop where
  backed : StoreBacked c
  committed : ∀ offset ∈ c.committed, ∀ jobId, c.WorkAt jobId offset → c.Handled jobId offset
  /-- Only offsets in the log have been committed. -/
  committed_lt : ∀ offset ∈ c.committed, offset < c.log.length

/-- The delivery has left behind what its return is going to rely on. -/
def Delivery.HasLeft (c : Cluster) (delivery : Delivery) : Prop :=
  match delivery.point with
  | .saveSucceeded _ | .saveRetrying _ | .saveFailed _ | .returned =>
    c.Handled delivery.event.jobId delivery.offset
  | _ => True

/-- The delivery is of an event in the log, and has left behind what it must. -/
structure DeliveryTracked (c : Cluster) (delivery : Delivery) : Prop where
  backed : DeliveryBacked c delivery
  poll : c.poll delivery.offset = some delivery.event
  hasLeft : delivery.HasLeft c

theorem Tracked.congr {c c' : Cluster} (h : Tracked c) (hbacked : StoreBacked c')
    (hgrows : c.Grows c') (hcommitted : c'.committed = c.committed) : Tracked c' where
  backed := hbacked
  committed offset hmem jobId hwork := by
    rw [hcommitted] at hmem
    -- a committed offset held its event already before the log grew
    have hlt : offset < c.log.length := h.committed_lt offset hmem
    have hwork' : c.WorkAt jobId offset := by
      obtain ⟨event, hpoll, hid⟩ := hwork
      refine ⟨event, ?_, hid⟩
      rw [Cluster.poll, ← hgrows.getElem?_log hlt]
      exact hpoll
    exact (h.committed offset hmem jobId hwork').mono hgrows
  committed_lt offset hmem :=
    (h.committed_lt offset (hcommitted ▸ hmem)).trans_le hgrows.log.length_le

theorem Tracked.commit {c : Cluster} (h : Tracked c) {delivery : Delivery}
    (hdelivery : DeliveryTracked c delivery) (hpoint : delivery.point = .returned) :
    Tracked (c.commit delivery.offset) where
  backed := h.backed.congr (Cluster.grows_commit c _) rfl
  committed offset hmem jobId hwork := by
    rcases List.mem_cons.mp hmem with rfl | hmem
    · obtain ⟨event, hpoll, hid⟩ := hwork
      have heq : delivery.event = event := Option.some_inj.mp (hdelivery.poll.symm.trans hpoll)
      have hleft := hdelivery.hasLeft
      rw [Delivery.HasLeft, hpoint, heq, hid] at hleft
      exact hleft.mono (Cluster.grows_commit c _)
    · exact (h.committed offset hmem jobId hwork).mono (Cluster.grows_commit c _)
  committed_lt offset hmem := by
    rcases List.mem_cons.mp hmem with rfl | hmem
    · exact Cluster.lt_length_of_poll hdelivery.poll
    · exact h.committed_lt offset hmem

theorem Delivery.HasLeft.mono {c c' : Cluster} {delivery : Delivery} (hgrows : c.Grows c')
    (h : delivery.HasLeft c) : delivery.HasLeft c' := by
  rw [Delivery.HasLeft] at h ⊢
  split at h
  all_goals first | exact h.mono hgrows | trivial

theorem DeliveryTracked.mono {c c' : Cluster} {delivery : Delivery} (hgrows : c.Grows c')
    (h : DeliveryTracked c delivery) : DeliveryTracked c' delivery :=
  ⟨h.backed.mono hgrows, Cluster.poll_mono hgrows h.poll, h.hasLeft.mono hgrows⟩

/-- **What a step of `process` leaves behind.** -/
theorem Delivery.Moves.hasLeft {maxAttempts : ℤ} {c c' : Cluster} {delivery : Delivery}
    {point : Option ProcessPoint} (hstore : StoreBacked c)
    (hdelivery : DeliveryTracked c delivery) (hmoves : delivery.Moves maxAttempts c c' point) :
    ∀ next ∈ point, Delivery.HasLeft c' { delivery with point := next } := by
  have hgrows := hmoves.grows
  have hleft := hdelivery.hasLeft
  have hbacked := hdelivery.backed
  cases hmoves with
  | missing | taken | processing | moderated | failedRetry | failedLast =>
    rintro _ ⟨⟩
    trivial
  | duplicate storedJob hpoint hget hstate =>
    rintro _ ⟨⟩
    have hrecord : Backed c delivery.event.jobId storedJob := hstore _ _ hget
    obtain ⟨result, hresult⟩ := Option.isSome_iff_exists.mp (hrecord.result_iff.mpr hstate)
    exact Or.inl (Or.inl ⟨result, hrecord.result result hresult⟩)
  | publishedMissing | publishedExhausted =>
    rintro _ ⟨⟩
    exact Or.inl (Or.inr ⟨_, c.published_append _ _ _⟩)
  | publishedResult =>
    rintro _ ⟨⟩
    exact Or.inl (Or.inl ⟨_, c.published_append _ _ _⟩)
  | publishedRetry processing retryEvent now hpoint =>
    rintro _ ⟨⟩
    rw [DeliveryBacked, hpoint] at hbacked
    -- the retry event lies behind the event that is being processed
    refine Or.inr ⟨c.log.length, Cluster.lt_length_of_poll hdelivery.poll, retryEvent,
      Cluster.poll_append rfl _ _ _, ?_⟩
    rw [hbacked.2]
  | unpublished => rintro _ ⟨⟩
  | succeeded record hpoint | retrying record hpoint | failed record hpoint =>
    rintro _ ⟨⟩
    rw [Delivery.HasLeft, hpoint] at hleft
    exact hleft.mono hgrows

theorem isInductive_tracked (H : Hashing) (maxAttempts : ℤ) :
    System.IsInductive H maxAttempts (fun _ ↦ True) Tracked (SubmitBacked H)
      DeliveryTracked where
  submit_mono := SubmitBacked.mono
  delivery_mono := DeliveryTracked.mono
  submit _ _ now _ := ⟨now, rfl⟩
  submitStep h hcall hmoves := by
    obtain ⟨hstore, hcall'⟩ := hcall.moves h.backed hmoves
    exact ⟨h.congr hstore hmoves.grows hmoves.committed_eq, hcall'⟩
  submitCrash _ := trivial
  poll _ hpoll := ⟨trivial, hpoll, trivial⟩
  processStep h hdelivery hmoves := by
    obtain ⟨hstore, hdelivery'⟩ := hdelivery.backed.moves h.backed hmoves
    refine ⟨h.congr hstore hmoves.grows hmoves.committed_eq, fun next hnext ↦ ?_⟩
    exact ⟨hdelivery' next hnext, Cluster.poll_mono hmoves.grows hdelivery.poll,
      hmoves.hasLeft h.backed hdelivery next hnext⟩
  commit h hdelivery hpoint := h.commit hdelivery hpoint
  expire jobId _ h := h.congr (h.backed.expire jobId) (Cluster.grows_expire _ jobId) rfl

/-! ## The last event of a job -/

/-- An event is followed by one that is still uncommitted, unless its job has been answered. -/
theorem Tracked.uncommitted_or_answered {c : Cluster} (h : Tracked c) {jobId : String}
    {offset : ℕ} (hwork : c.WorkAt jobId offset) :
    (∃ later, c.WorkAt jobId later ∧ later ∉ c.committed) ∨ c.Answered jobId := by
  -- the events of the job that lie behind this one are finitely many
  induction hn : c.log.length - offset using Nat.strong_induction_on generalizing offset with
  | _ n ih =>
    by_cases hmem : offset ∈ c.committed
    · rcases h.committed offset hmem jobId hwork with hanswered | ⟨later, hlt, hlater⟩
      · exact Or.inr hanswered
      · have hlength : later < c.log.length := hlater.lt_length
        exact ih (c.log.length - later) (by omega) hlater rfl
    · exact Or.inl ⟨offset, hwork, hmem⟩

/-- **No acknowledged event is silently lost.** In every state of every run, whatever crashes and
is delivered again: if an input event has been acknowledged, an input or retry event of its job is
still uncommitted, or the result of the job has been published, or a dead letter for it. -/
theorem acknowledged_event_not_lost (H : Hashing) (maxAttempts : ℤ) {as : List Action}
    {s : System} (hrun : System.run H maxAttempts System.init as = some s) {key : String}
    {event : ModerationJobEvent} (hinput : s.cluster.Published .input key (.event event)) :
    (∃ offset event', s.cluster.poll offset = some event' ∧ event'.jobId = event.jobId ∧
      offset ∉ s.cluster.committed) ∨
    (∃ result, s.cluster.Published .result event.jobId (.result result)) ∨
    (∃ letter, s.cluster.Published .dlq event.jobId (.deadLetter letter)) := by
  have hinit : Tracked Cluster.empty := by
    constructor
    · intro jobId record hget
      cases hget
    · intro offset hmem
      cases hmem
    · intro offset hmem
      cases hmem
  have htracked : Tracked s.cluster :=
    ((isInductive_tracked H maxAttempts).run (System.Holds.init hinit) (fun _ _ ↦ trivial)
      hrun).cluster
  obtain ⟨offset, hlog⟩ := List.mem_iff_getElem?.mp hinput
  have hwork : s.cluster.WorkAt event.jobId offset :=
    ⟨event, Cluster.poll_eq_some.mpr ⟨.input, key, true, rfl, hlog⟩, rfl⟩
  rcases htracked.uncommitted_or_answered hwork with ⟨later, ⟨event', hpoll, hid⟩, hmem⟩ | hout
  · exact Or.inl ⟨later, event', hpoll, hid, hmem⟩
  · exact Or.inr hout

/-- A sample: the engine fails once, the worker commits, and the retry event is still there. -/
theorem acknowledged_event_not_lost_sample : ∃ s,
    System.run Hashing.sample 3 System.init
      (System.sampleSubmission ++ .poll 0 0 ::
        (List.replicate 5 (System.sampleProcess 0 none) ++ [.commit 0])) = some s ∧
    ((∃ offset event', s.cluster.poll offset = some event' ∧
      event'.jobId = System.sampleJobId ∧ offset ∉ s.cluster.committed) ∨
    (∃ result, s.cluster.Published .result System.sampleJobId (.result result)) ∨
    (∃ letter, s.cluster.Published .dlq System.sampleJobId (.deadLetter letter))) := by
  obtain ⟨s, hrun, hlog⟩ := Option.bind_eq_some_iff.mp
    (show ((System.run Hashing.sample 3 System.init
      (System.sampleSubmission ++ .poll 0 0 ::
        (List.replicate 5 (System.sampleProcess 0 none) ++ [.commit 0]))).bind
        fun s ↦ s.cluster.log[0]?) = some ⟨.input, System.sampleJobId,
          .event { jobId := System.sampleJobId, request := System.sampleRequest }, true⟩ by decide)
  exact ⟨s, hrun, acknowledged_event_not_lost Hashing.sample 3 hrun
    (List.mem_iff_getElem?.mpr ⟨0, hlog⟩)⟩

end Sentinel
