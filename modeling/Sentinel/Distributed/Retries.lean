import Sentinel.Distributed.Orderly

/-!
# Bounded retries end in exactly one outcome

The number of the worker's actions is bounded by seven for each event, and there are at most
`maxAttempts` events for each job; and as long as an event is pending or in hand the worker has
something to do. So processing stops, and it stops with nothing pending. Then the counts say what
has become of each job: one result or one dead letter, after as many runs of the engine as it took.
-/

namespace Sentinel

/-! ## Processing stops -/

/-- How many of the seven actions for an event the worker has taken when it stands at the point. -/
def ProcessPoint.position : ProcessPoint → ℕ
  | .get => 1
  | .saveProcessing _ => 2
  | .moderate _ => 3
  | .publishMissing | .publishResult _ _ | .publishRetry _ _ | .publishExhausted _ => 4
  | .saveSucceeded _ | .saveRetrying _ | .saveFailed _ => 5
  | .returned => 6

theorem ProcessPoint.position_le (point : ProcessPoint) : point.position ≤ 6 := by
  cases point <;> simp [position]

theorem Delivery.Moves.position_lt {maxAttempts : ℤ} {c c' : Cluster} {delivery : Delivery}
    {point : ProcessPoint} (hmoves : delivery.Moves maxAttempts c c' (some point)) :
    delivery.point.position < point.position := by
  cases hmoves with
  | missing hpoint | duplicate _ hpoint | taken _ _ hpoint | processing _ hpoint
  | moderated _ _ hpoint | failedRetry _ hpoint | failedLast _ hpoint | publishedMissing hpoint
  | publishedResult _ _ _ hpoint | publishedRetry _ _ _ hpoint | publishedExhausted _ _ hpoint
  | succeeded _ hpoint | retrying _ hpoint | failed _ hpoint =>
    simp [ProcessPoint.position, hpoint]

namespace System

variable {answers : String → ℕ → Option ModerationResponse} {maxAttempts : ℕ} {H : Hashing}
  {s s' : System} {a : Action} {jobId : String}

/-- The worker's actions so far, if none was wasted. -/
def work (s : System) : ℕ :=
  7 * s.cluster.committed.length + ((s.workers 0).map fun delivery ↦ delivery.point.position).getD 0

def received (s : System) : List ℕ :=
  ((s.workers 0).map Delivery.offset).toList ++ s.cluster.committed

theorem work_le (s : System) : s.work ≤ 7 * s.received.length := by
  rw [work, received, List.length_append]
  cases s.workers 0 with
  | none =>
    simp
  | some delivery =>
    have hle := delivery.point.position_le
    simp only [Option.map_some, Option.getD_some, Option.toList_some, List.length_singleton]
    omega

namespace Orderly

theorem received_nodup (h : s.Orderly answers maxAttempts H) : s.received.Nodup := by
  rw [received]
  cases hworker : s.workers 0 with
  | none => exact h.nodup
  | some delivery => exact List.nodup_cons.mpr ⟨h.not_committed hworker, h.nodup⟩

theorem isSome_poll (h : s.Orderly answers maxAttempts H) {offset : ℕ}
    (hmem : offset ∈ s.received) : (s.cluster.poll offset).isSome := by
  rcases List.mem_append.mp hmem with hmem | hmem
  · obtain ⟨delivery, hdelivery, rfl⟩ := Option.map_eq_some_iff.mp (Option.mem_toList.mp hmem)
    rw [h.polled delivery hdelivery, Option.isSome_some]
  · exact h.committed offset hmem

/-- **Each action of the worker is one of seven for an event that it has received once.** -/
theorem work_step (h : s.Orderly answers maxAttempts H) (hserves : s.Serves answers a)
    (hstep : System.step H maxAttempts s a = some s') :
    s.work + (if isWork a = true then 1 else 0) ≤ s'.work := by
  have hmoves := moves_of_step hstep
  cases hmoves with
  | submit => exact le_rfl
  | submitStep client now outcome call cluster point hcall hmoves =>
    simp only [isWork, work, hmoves.committed_eq]
    exact le_rfl
  | submitCrash => cases hserves
  | poll worker offset event hidle hpoll =>
    obtain ⟨rfl, -⟩ := hserves
    simp only [work, hidle, Function.update_self, Option.map_none, Option.map_some,
      Option.getD_none, Option.getD_some, ProcessPoint.position, isWork, decide_true, if_true]
    exact le_rfl
  | processStep worker now outcome reply delivery cluster point hdelivery hmoves =>
    obtain ⟨rfl, rfl, hreply⟩ := hserves
    simp only [System.step, hdelivery] at hstep
    obtain ⟨⟨cluster', point'⟩, hstep', heq⟩ := Option.map_eq_some_iff.mp hstep
    rw [← heq]
    have hmoves' := Delivery.moves_of_step hstep'
    obtain ⟨next, rfl, -⟩ := (h.stage hdelivery).2.step
      (h.known.contents.workers hdelivery).backed (h.known.copies.workers hdelivery)
      (h.known.isSome hdelivery) h.committed_lt
      (fun processing ↦ hreply delivery processing hdelivery) hstep'
    have hlt := hmoves'.position_lt
    simp only [work, hdelivery, hmoves'.committed_eq, Function.update_self, Option.map_some,
      Option.getD_some, isWork, decide_true, if_true]
    omega
  | commit worker delivery hdelivery hpoint =>
    obtain rfl := hserves
    simp only [work, hdelivery, hpoint, Cluster.commit, Function.update_self, Option.map_none,
      Option.map_some, Option.getD_none, Option.getD_some, ProcessPoint.position, isWork,
      decide_true, if_true, List.length_cons]
    omega
  | workerCrash => cases hserves
  | expire => cases hserves

theorem events_le (h : s.Orderly answers maxAttempts H) (hpos : 1 ≤ maxAttempts) (jobId : String) :
    s.cluster.count .input jobId + s.cluster.count .retry jobId ≤ maxAttempts := by
  have htally : ∀ {runs retries results deadLetters},
      s.cluster.Tally jobId 1 runs retries results deadLetters → retries + 1 ≤ maxAttempts →
      s.cluster.count .input jobId + s.cluster.count .retry jobId ≤ maxAttempts := by
    intro runs retries results deadLetters htally hle
    rw [htally.inputs, htally.retries, Nat.add_comm]
    exact hle
  have hclosed : Closed answers maxAttempts s.cluster jobId →
      s.cluster.count .input jobId + s.cluster.count .retry jobId ≤ maxAttempts := by
    rintro (⟨attempt, hreached, -, hcount, -⟩ | ⟨-, hcount, -⟩)
    · exact htally hcount hreached.left
    · exact htally hcount (Nat.sub_add_cancel hpos).le
  cases h.jobs jobId with
  | absent _ _ _ hcount | created _ _ _ _ _ _ _ _ _ hcount =>
    rw [hcount.inputs, hcount.retries]
    exact Nat.zero_le _
  | waiting _ _ _ _ _ _ hdue => exact htally hdue.tally hdue.left
  | closed _ _ _ hend => exact hclosed hend
  | working delivery _ _ hid hstage =>
    subst hid
    have hrequeued : Requeued answers maxAttempts s.cluster delivery.event.jobId delivery.offset
        delivery.event.attempt → s.cluster.count .input delivery.event.jobId
          + s.cluster.count .retry delivery.event.jobId ≤ maxAttempts := by
      rintro ⟨_, _, -, -, -, hdue⟩
      exact htally hdue.tally hdue.left
    cases hpoint : delivery.point with
    | get | saveProcessing _ | moderate _ =>
      rw [hpoint] at hstage
      exact htally hstage.2.tally hstage.2.left
    | publishResult _ _ | saveSucceeded _ =>
      rw [hpoint] at hstage
      exact htally hstage.2.2.2 hstage.2.1.left
    | publishRetry _ _ =>
      rw [hpoint] at hstage
      exact htally hstage.2.2.1 (Nat.le_of_succ_le hstage.2.1.left)
    | publishExhausted _ | saveFailed _ =>
      rw [hpoint] at hstage
      exact htally hstage.2.2.2 hstage.2.2.1.le
    | saveRetrying _ =>
      rw [hpoint] at hstage
      exact hrequeued hstage
    | returned =>
      rw [hpoint] at hstage
      exact hstage.elim hrequeued fun h ↦ hclosed h.2
    | publishMissing =>
      rw [hpoint] at hstage
      exact hstage.elim

theorem exists_call (h : s.Orderly answers maxAttempts H) {message : Message}
    (hmem : message ∈ s.cluster.log) (htopic : message.topic.subscribed = true) :
    ∃ client call, s.submits client = some call ∧ call.jobId H = message.key := by
  have hsubmitted : s.Submitted H message.key →
      ∃ client call, s.submits client = some call ∧ call.jobId H = message.key := by
    rintro ⟨client, call, job, hcall, hid, -⟩
    exact ⟨client, call, hcall, hid⟩
  cases h.jobs message.key with
  | absent _ _ _ htally =>
    have hnone : ∀ topic, s.cluster.count topic message.key = 0 → message.topic ≠ topic := by
      intro topic hcount heq
      exact List.countP_eq_zero.mp hcount message hmem (decide_eq_true ⟨heq, rfl⟩)
    cases htop : message.topic with
    | input => exact absurd htop (hnone _ htally.inputs)
    | retry => exact absurd htop (hnone _ htally.retries)
    | result | dlq =>
      rw [htop] at htopic
      cases htopic
  | created client call record hcall hid => exact ⟨client, call, hcall, hid⟩
  | waiting _ _ hdone | working _ hdone | closed hdone => exact hsubmitted hdone

theorem received_le (h : s.Orderly answers maxAttempts H) :
    s.received.length ≤ s.cluster.log.countP fun message ↦ message.topic.subscribed := by
  rw [← Collections.countP_range_getElem, List.countP_eq_length_filter]
  refine (List.subperm_of_subset h.received_nodup fun offset hmem ↦
    List.mem_filter.mpr ?_).length_le
  obtain ⟨event, hpoll⟩ := Option.isSome_iff_exists.mp (h.isSome_poll hmem)
  refine ⟨List.mem_range.mpr (Cluster.lt_of_poll hpoll), ?_⟩
  rw [Cluster.poll] at hpoll
  split at hpoll
  · rename_i topic key event' acknowledged hlog
    split_ifs at hpoll with htopic
    rw [hlog, Option.any_some]
    exact htopic
  · cases hpoll

theorem log_le (h : s.Orderly answers maxAttempts H) (hpos : 1 ≤ maxAttempts) {jobs : List String}
    (hjobs : ∀ client call, s.submits client = some call → call.jobId H ∈ jobs) :
    (s.cluster.log.countP fun message ↦ message.topic.subscribed) ≤ jobs.length * maxAttempts := by
  apply Collections.countP_le_of_classes Message.key
  · intro message hmem htopic
    obtain ⟨client, call, hcall, hid⟩ := h.exists_call hmem htopic
    exact hid ▸ hjobs client call hcall
  · intro jobId _
    refine le_trans (le_of_eq ?_) (h.events_le hpos jobId)
    rw [Cluster.count, Cluster.count]
    induction s.cluster.log with
    | nil => rfl
    | cons message log ih =>
      rw [List.countP_cons, List.countP_cons, List.countP_cons, ih]
      cases message.topic <;> by_cases hkey : message.key = jobId <;>
        simp [Topic.subscribed, hkey] <;> omega

end Orderly

/-- Nothing is pending and nothing in hand: both topics are empty for the worker. -/
def Drained (s : System) : Prop :=
  s.workers 0 = none ∧ ∀ offset, (s.cluster.poll offset).isSome → offset ∈ s.cluster.committed

/-- **As long as something is pending, the worker has something to do.** -/
theorem exists_work (answers : String → ℕ → Option ModerationResponse) (maxAttempts : ℕ)
    (H : Hashing) (s : System) (h : ¬s.Drained) : ∃ a, isWork a = true ∧ s.Serves answers a ∧
    (step H maxAttempts s a).isSome := by
  cases hworker : s.workers 0 with
  | none =>
    have hpending : ∃ offset, (s.cluster.poll offset).isSome ∧ offset ∉ s.cluster.committed := by
      by_contra hnone
      push Not at hnone
      exact h ⟨hworker, hnone⟩
    obtain ⟨offset, hpoll, hfresh⟩ := hpending
    refine ⟨.poll 0 offset, rfl, ⟨rfl, hfresh⟩, ?_⟩
    simp only [step, hworker, Option.isSome_map, hpoll]
  | some delivery =>
    by_cases hpoint : delivery.point = .returned
    · refine ⟨.commit 0, rfl, rfl, ?_⟩
      simp only [step, hworker, hpoint, if_true, Option.isSome_some]
    · refine ⟨.processStep 0 sampleNow .acknowledged
        (answers delivery.event.jobId (s.cluster.runs delivery.event.jobId)), rfl,
        ⟨rfl, rfl, fun delivery' _ hdelivery' _ ↦ ?_⟩, ?_⟩
      · cases hworker.symm.trans hdelivery'
        rfl
      · simp only [step, hworker, Option.isSome_map]
        rw [Delivery.step]
        split
        case h_11 hreturned => exact absurd hreturned hpoint
        all_goals rfl


instance (s : System) : Decidable s.Drained :=
  decidable_of_iff ((s.workers 0).isNone ∧ ∀ offset ∈ List.range s.cluster.log.length,
      (s.cluster.poll offset).isSome → offset ∈ s.cluster.committed) <| by
    rw [Option.isNone_iff_eq_none]
    refine and_congr_right' ⟨fun h offset hpoll ↦ h offset ?_ hpoll, fun h offset _ ↦ h offset⟩
    obtain ⟨event, hevent⟩ := Option.isSome_iff_exists.mp hpoll
    exact List.mem_range.mpr (Cluster.lt_of_poll hevent)

end System

def Action.submittedJob (H : Hashing) : Action → Option String
  | .submit _ request uuid4 _ => some ((SubmitCall.mk request uuid4 .get).jobId H)
  | _ => none

namespace System

variable {answers : String → ℕ → Option ModerationResponse} {maxAttempts : ℕ} {H : Hashing}
  {s s' : System} {a : Action} {jobId : String}

theorem submittedJobs_of_run {as : List Action} (hrun : run H maxAttempts init as = some s) :
    ∀ client call, s.submits client = some call →
      call.jobId H ∈ as.filterMap (Action.submittedJob H) := by
  refine Transition.run_history (P := fun as s ↦ ∀ client call, s.submits client = some call →
    call.jobId H ∈ as.filterMap (Action.submittedJob H)) (fun _ _ h ↦ by cases h) ?_ hrun
  intro as t t' a _ h hstep client call hcall
  rw [List.filterMap_append]
  have hbefore : ∀ {call}, t.submits client = some call →
      call.jobId H ∈
        as.filterMap (Action.submittedJob H) ++ [a].filterMap (Action.submittedJob H) :=
    fun hcall ↦ List.mem_append_left _ (h client _ hcall)
  cases moves_of_step hstep with
  | submit client' request uuid4 now hfree =>
    simp only [Function.update_apply] at hcall
    split_ifs at hcall
    · cases hcall
      exact List.mem_append_right _ List.mem_cons_self
    · exact hbefore hcall
  | submitStep client' now outcome call' cluster point hcall' | submitCrash client' call' hcall' =>
    simp only [Function.update_apply] at hcall
    split_ifs at hcall
    · cases hcall
      exact List.mem_append_left _ (h client' call' hcall')
    · exact hbefore hcall
  | poll | processStep | commit | workerCrash | expire => exact hbefore hcall

theorem countP_isWork_le (hinj : Function.Injective H.uuid5) (hpos : 1 ≤ maxAttempts)
    {as : List Action} (hserves : Transition.Along (step H maxAttempts) (Serves answers) init as)
    (hrun : run H maxAttempts init as = some s) : as.countP isWork ≤ s.work := by
  refine Transition.run_history (P := fun as s ↦
    Transition.Along (step H maxAttempts) (Serves answers) init as → as.countP isWork ≤ s.work)
    (fun _ ↦ Nat.zero_le _) ?_ hrun hserves
  intro as t t' a hrun' ih hstep hall
  obtain ⟨hbefore, hlast⟩ := (Transition.along_append hrun').mp hall
  have hwork := (Orderly.run hinj hpos hbefore hrun').work_step hlast.1 hstep
  rw [List.countP_append, List.countP_singleton]
  exact (Nat.add_le_add_right (ih hbefore) _).trans hwork

end System

/-! ## The outcome -/

/-- The job has ended with its first success, if that is within the limit, and else with the failure
of the last attempt; and it has been retried once less than it has been run. -/
structure EndedOnce (answers : String → ℕ → Option ModerationResponse) (maxAttempts : ℕ)
    (c : Cluster) (jobId : String) : Prop where
  success : ∀ k < maxAttempts, (answers jobId k).isSome → (∀ i < k, answers jobId i = none) →
    c.runs jobId = k + 1 ∧ c.count .result jobId = 1 ∧ c.count .dlq jobId = 0 ∧
      c.InState jobId .succeeded
  exhaustion : (∀ i < maxAttempts, answers jobId i = none) →
    c.runs jobId = maxAttempts ∧ c.count .dlq jobId = 1 ∧ c.count .result jobId = 0 ∧
      c.Exhausted jobId
  retries : c.count .retry jobId + 1 = c.runs jobId

theorem Closed.endedOnce {answers : String → ℕ → Option ModerationResponse} {maxAttempts : ℕ}
    {c : Cluster} {jobId : String} (h : Closed answers maxAttempts c jobId)
    (hpos : 1 ≤ maxAttempts) : EndedOnce answers maxAttempts c jobId := by
  rcases h with ⟨attempt, hreached, hanswer, htally, hstate⟩ | ⟨hfailed, htally, hexhausted⟩
  · refine ⟨fun k hk hsome hnone ↦ ?_, fun hfailed ↦ ?_, by rw [htally.retries, htally.runs]⟩
    · -- there is only one first success
      have heq : attempt = k := by
        refine le_antisymm (not_lt.mp fun hlt ↦ ?_) (not_lt.mp fun hlt ↦ ?_)
        · rw [hreached.failed k hlt] at hsome
          cases hsome
        · rw [hnone attempt hlt] at hanswer
          cases hanswer
      subst heq
      exact ⟨htally.runs, htally.results, htally.deadLetters, hstate⟩
    · rw [hfailed attempt hreached.left] at hanswer
      cases hanswer
  · refine ⟨fun k hk hsome hnone ↦ ?_, fun _ ↦ ?_, ?_⟩
    · rw [hfailed k hk] at hsome
      cases hsome
    · exact ⟨htally.runs, htally.deadLetters, htally.results, hexhausted⟩
    · rw [htally.retries, htally.runs, Nat.sub_add_cancel hpos]

/-- **Bounded retries end in exactly one outcome.** However the submissions and the events are
ordered: the worker's actions are bounded; it stops only when nothing is pending; and then each
submitted job has ended once. -/
theorem retries_end_once (H : Hashing) (hinj : Function.Injective H.uuid5)
    (answers : String → ℕ → Option ModerationResponse) (maxAttempts : ℕ) (hpos : 1 ≤ maxAttempts)
    {as : List Action} {s : System}
    (hserves : Transition.Along (System.step H maxAttempts) (System.Serves answers) System.init as)
    (hrun : System.run H maxAttempts System.init as = some s) :
    as.countP System.isWork
      ≤ 7 * ((as.filterMap (Action.submittedJob H)).length * maxAttempts) ∧
    ((∀ a, System.isWork a = true → s.Serves answers a → System.step H maxAttempts s a = none) →
      s.Drained) ∧
    (s.Drained → ∀ client call job, s.submits client = some call → call.point = .returned job →
      EndedOnce answers maxAttempts s.cluster (call.jobId H)) := by
  have h : s.Orderly answers maxAttempts H := System.Orderly.run hinj hpos hserves hrun
  refine ⟨?_, fun hstops ↦ ?_, fun hdrained client call job hcall hpoint ↦ ?_⟩
  · calc as.countP System.isWork
        ≤ s.work := System.countP_isWork_le hinj hpos hserves hrun
      _ ≤ 7 * s.received.length := s.work_le
      _ ≤ 7 * s.cluster.log.countP fun message ↦ message.topic.subscribed :=
          Nat.mul_le_mul_left 7 h.received_le
      _ ≤ 7 * ((as.filterMap (Action.submittedJob H)).length * maxAttempts) :=
          Nat.mul_le_mul_left 7 (h.log_le hpos (System.submittedJobs_of_run hrun))
  · by_contra hpending
    obtain ⟨a, hwork, ha, hstep⟩ := System.exists_work answers maxAttempts H s hpending
    rw [hstops a hwork ha] at hstep
    cases hstep
  · have hempty : s.cluster.pending (call.jobId H) = [] := by
      rw [List.eq_nil_iff_forall_not_mem]
      intro offset hmem
      obtain ⟨⟨event, hpoll, -⟩, hfresh⟩ := Cluster.mem_pending.mp hmem
      exact hfresh (hdrained.2 offset (by rw [hpoll, Option.isSome_some]))
    cases h.jobs (call.jobId H) with
    | absent _ _ _ _ hcalls =>
      obtain ⟨record, hcreate⟩ := hcalls client call hcall rfl
      cases hpoint.symm.trans hcreate
    | created client' call' record hcall' hid hpublish =>
      obtain ⟨rfl, rfl⟩ := h.eq_of_jobId hinj hcall' hcall hid
      cases hpoint.symm.trans hpublish
    | waiting offset _ _ _ hpending => cases hempty.symm.trans hpending
    | working delivery _ hdelivery => cases hdrained.1.symm.trans hdelivery
    | closed _ _ _ hclosed => exact hclosed.endedOnce hpos

/-! ## A run -/

/-- A step, other than a submission, of the kind that the runs are made of. -/
def System.servesNow (answers : String → ℕ → Option ModerationResponse) (s : System) :
    Action → Bool
  | .submitStep _ _ outcome => outcome = .acknowledged
  | .poll worker offset => worker = 0 ∧ offset ∉ s.cluster.committed
  | .processStep worker _ outcome reply => worker = 0 ∧ outcome = .acknowledged ∧
      (s.workers 0).all fun delivery ↦ match delivery.point with
        | .moderate _ => reply = answers delivery.event.jobId (s.cluster.runs delivery.event.jobId)
        | _ => true
  | .commit worker => worker = 0
  | _ => false

theorem System.Serves.of_servesNow {answers : String → ℕ → Option ModerationResponse} {s : System}
    {a : Action} (h : s.servesNow answers a = true) : s.Serves answers a := by
  cases a with
  | submitStep client now outcome => exact of_decide_eq_true (p := outcome = .acknowledged) h
  | poll worker offset =>
    exact of_decide_eq_true (p := worker = 0 ∧ offset ∉ s.cluster.committed) h
  | processStep worker now outcome reply =>
    obtain ⟨hworker, houtcome, hreply⟩ := of_decide_eq_true (p := worker = 0 ∧
      outcome = .acknowledged ∧ _) h
    refine ⟨hworker, houtcome, fun delivery processing hdelivery hpoint ↦ ?_⟩
    simpa only [hdelivery, hpoint, Option.all_some, decide_eq_true_eq] using hreply
  | commit worker => exact of_decide_eq_true (p := worker = 0) h
  | submit | submitCrash | workerCrash | expire => cases h

/-- The engine fails on its first call for a job and succeeds on the second. -/
def System.sampleAnswers (_ : String) (i : ℕ) : Option ModerationResponse :=
  if i = 1 then some sampleResponse else none

def System.sampleServing (offset : ℕ) (reply : Option ModerationResponse) : List Action :=
  .poll 0 offset :: List.replicate 5 (sampleProcess 0 reply) ++ [.commit 0]

def System.sampleRetry : List Action :=
  sampleSubmission ++ sampleServing 0 none ++ sampleServing 1 (some sampleResponse)

theorem System.serves_sample : Transition.Along (System.step Hashing.sample 2)
    (System.Serves System.sampleAnswers) System.init System.sampleRetry := by
  refine ⟨fun client call hcall ↦ (by cases hcall), fun s hstep ↦ ?_⟩
  apply Transition.Along.mono System.Serves.of_servesNow
  have hrest : (System.step Hashing.sample 2 System.init
      (.submit 0 sampleRequest "" sampleNow)).any (fun s ↦ decide
        (Transition.Along (System.step Hashing.sample 2)
          (fun s a ↦ s.servesNow System.sampleAnswers a = true) s
          System.sampleRetry.tail)) = true := by decide
  rw [hstep, Option.any_some] at hrest
  exact of_decide_eq_true hrest

/-- The sample job fails, is retried and succeeds. -/
theorem retries_end_once_sample : ∃ s,
    System.run Hashing.sample 2 System.init System.sampleRetry = some s ∧ s.Drained ∧
    EndedOnce System.sampleAnswers 2 s.cluster System.sampleJobId := by
  obtain ⟨s, hrun, hs⟩ := (Option.any_eq_true _ _).mp
    (show (System.run Hashing.sample 2 System.init System.sampleRetry).any (fun s ↦
      decide s.Drained && (s.submits 0).any fun call ↦
        decide (call.jobId Hashing.sample = System.sampleJobId) &&
          decide (call.point = .returned
            { System.sampleRecord.job with state := .accepted, result := none })) = true by decide)
  obtain ⟨hdrained, hcalls⟩ := Bool.and_eq_true_iff.mp hs
  obtain ⟨call, hcall, hid⟩ := (Option.any_eq_true _ _).mp hcalls
  obtain ⟨hid, hpoint⟩ := Bool.and_eq_true_iff.mp hid
  have hends := (retries_end_once Hashing.sample Hashing.sample_injective.1 System.sampleAnswers 2
    (by decide) System.serves_sample hrun).2.2 (of_decide_eq_true hdrained) 0 call _ hcall
      (of_decide_eq_true hpoint)
  exact ⟨s, hrun, of_decide_eq_true hdrained, of_decide_eq_true hid ▸ hends⟩

end Sentinel
