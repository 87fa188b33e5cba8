import Sentinel.Distributed.Tally

/-!
# Jobs in their places

Jobs are submitted, and one worker takes the pending events in any order, each of them once. The
engine's answers are given beforehand: to its `i`-th call for a job it answers `answers jobId i`.

Each step moves one job from its place to the next and leaves the others where they are. So every
job is where the counts say that it is, in every state of such a run.
-/

namespace Sentinel

/-! ## The runs -/

/-- Requests with distinct ids are submitted, every publication is acknowledged, and one worker
takes each pending event once and lives; the engine answers as it is told. -/
def System.Serves (answers : String → ℕ → Option ModerationResponse) (s : System) : Action → Prop
  | .submit _ request uuid4 _ => ∀ client call, s.submits client = some call →
      call.requestId ≠ (SubmitCall.mk request uuid4 .get).requestId
  | .submitStep _ _ outcome => outcome = .acknowledged
  | .poll worker offset => worker = 0 ∧ offset ∉ s.cluster.committed
  | .processStep worker _ outcome reply => worker = 0 ∧ outcome = .acknowledged ∧
      ∀ delivery processing, s.workers 0 = some delivery →
        delivery.point = .moderate processing →
          reply = answers delivery.event.jobId (s.cluster.runs delivery.event.jobId)
  | .commit worker => worker = 0
  | .submitCrash _ | .workerCrash _ | .expire _ => False

/-! ## The parties at other jobs -/

theorem update_eq_some_iff {ι α : Type*} [DecidableEq ι] (f : ι → Option α) (i : ι)
    {new : Option α} {p : α → Prop} (hold : ∀ a, f i = some a → ¬p a)
    (hnew : ∀ a, new = some a → ¬p a) (j : ι) {a : α} (ha : p a) :
    Function.update f i new j = some a ↔ f j = some a := by
  rw [Function.update_apply]
  split_ifs with hj
  · subst hj
    exact iff_of_false (fun h ↦ hnew a h ha) fun h ↦ hold a h ha
  · exact Iff.rfl

theorem SubmitCall.Moves.sameJob {H : Hashing} {c c' : Cluster} {call : SubmitCall}
    {point : SubmitPoint} {jobId : String} (hbacked : SubmitBacked H c call)
    (hmoves : call.Moves H c c' point) (hid : call.jobId H ≠ jobId) : c.SameJob c' jobId := by
  have hevent : ∀ {acknowledged}, c.SameJob
      (c.append ⟨.input, call.jobId H, .event (call.event H), acknowledged⟩) jobId :=
    .of_append hid fun event hpayload ↦ by
      cases hpayload
      exact hid
  cases hmoves with
  | created storedJob hpoint hfree =>
    rw [SubmitBacked, hpoint] at hbacked
    obtain ⟨now, rfl⟩ := hbacked
    exact ⟨(RedisJobStore.get_set _ _ _).trans (if_neg fun heq ↦ hid heq.symm), fun _ ↦ rfl, rfl,
      rfl, fun h ↦ h⟩
  | taken | disappeared | conflict | replay | existing => exact .refl c jobId
  | published | republished => exact hevent
  | unpublished storedJob replay now c' hpoint hc' =>
    rcases hc' with rfl | rfl
    · exact .refl c' jobId
    · exact hevent
  | failed record replay hpoint | accepted record hpoint =>
    rw [SubmitBacked, hpoint] at hbacked
    exact .of_save fun heq ↦ hid (hbacked.1.jobId_eq.symm.trans heq)

theorem Delivery.Moves.sameJob {maxAttempts : ℤ} {c c' : Cluster} {delivery : Delivery}
    {point : Option ProcessPoint} {jobId : String} (hbacked : DeliveryBacked c delivery)
    (hmoves : delivery.Moves maxAttempts c c' point) (hid : delivery.event.jobId ≠ jobId) :
    c.SameJob c' jobId := by
  have hother : ∀ {topic payload acknowledged}, (∀ event, payload ≠ .event event) →
      c.SameJob (c.append ⟨topic, delivery.event.jobId, payload, acknowledged⟩) jobId :=
    fun hpayload ↦ .of_append hid fun event hevent ↦ absurd hevent (hpayload event)
  have hretry : ∀ {processing retryEvent acknowledged},
      delivery.point = .publishRetry processing retryEvent →
      c.SameJob (c.append ⟨.retry, delivery.event.jobId, .event retryEvent, acknowledged⟩)
        jobId := by
    intro processing retryEvent acknowledged hpoint
    rw [DeliveryBacked, hpoint] at hbacked
    obtain ⟨-, rfl⟩ := hbacked
    refine .of_append hid fun event hpayload ↦ ?_
    cases hpayload
    exact hid
  cases hmoves with
  | missing | duplicate | taken => exact .refl c jobId
  | processing record hpoint | succeeded record hpoint | retrying record hpoint
  | failed record hpoint =>
    rw [DeliveryBacked, hpoint] at hbacked
    exact .of_save fun heq ↦ hid (hbacked.1.jobId_eq.symm.trans heq)
  | moderated | failedRetry | failedLast =>
    exact ⟨rfl, fun _ ↦ rfl, by rw [Cluster.runs_moderated, if_neg hid, Nat.add_zero], rfl, id⟩
  | publishedMissing | publishedResult | publishedExhausted => exact hother fun _ h ↦ by cases h
  | publishedRetry processing retryEvent now hpoint => exact hretry hpoint
  | unpublished topic payload c' hpublication hc' =>
    rcases hc' with rfl | rfl
    · exact .refl c' jobId
    · rw [publication] at hpublication
      split at hpublication
      case h_3 hpoint =>
        cases hpublication
        exact hretry hpoint
      all_goals
        cases hpublication
        try exact hother fun _ h ↦ by cases h

/-! ## The job in hand -/

section Stage

variable {answers : String → ℕ → Option ModerationResponse} {maxAttempts : ℕ} {c c' : Cluster}
  {delivery : Delivery} {next : Option ProcessPoint} {now : DateTime}
  {reply : Option ModerationResponse}

theorem Stage.mem_pending {jobId : String} {offset attempt : ℕ} {point : ProcessPoint}
    (h : Stage answers maxAttempts c jobId offset attempt point) : offset ∈ c.pending jobId := by
  have hone : c.pending jobId = [offset] → offset ∈ c.pending jobId := fun hpending ↦ by
    rw [hpending]
    exact List.mem_singleton_self _
  have htwo : Requeued answers maxAttempts c jobId offset attempt → offset ∈ c.pending jobId := by
    rintro ⟨offset', event, hpending, -⟩
    rw [hpending]
    exact List.mem_cons_self
  cases point with
  | get | saveProcessing _ | moderate _ | publishResult _ _ | saveSucceeded _ | publishRetry _ _
  | publishExhausted _ | saveFailed _ => exact hone h.1
  | saveRetrying _ => exact htwo h
  | returned => exact h.elim htwo fun h ↦ hone h.1
  | publishMissing => exact h.elim

theorem Reached.succ {jobId : String} {attempt : ℕ} (h : Reached answers maxAttempts jobId attempt)
    (hfailed : answers jobId attempt = none) : ∀ i < attempt + 1, answers jobId i = none := by
  intro i hi
  rcases Nat.lt_succ_iff_lt_or_eq.mp hi with hlt | rfl
  · exact h.failed i hlt
  · exact hfailed

theorem Due.save {jobId : String} {attempt : ℕ} (h : Due answers maxAttempts c jobId attempt)
    {record : StoredModerationJob} (hsome : (c.store.get jobId).isSome)
    (hid : record.job.jobId = jobId) (hstate : record.job.state ≠ .succeeded) :
    Due answers maxAttempts (c.save record) jobId attempt :=
  ⟨h.toReached, h.tally.congr rfl rfl, record, Cluster.get_save hsome hid, hstate⟩

theorem Stage.moderate {processing : StoredModerationJob}
    (hpoint : delivery.point = .moderate processing)
    (hstage : Stage answers maxAttempts c delivery.event.jobId delivery.offset
      delivery.event.attempt delivery.point)
    (hreply : reply = answers delivery.event.jobId (c.runs delivery.event.jobId)) :
    Stage answers maxAttempts (c.moderated ⟨delivery.event, reply⟩) delivery.event.jobId
      delivery.offset delivery.event.attempt
      (delivery.afterModerate maxAttempts processing reply) := by
  rw [hpoint] at hstage
  obtain ⟨hpending, hdue⟩ := hstage
  have htally := hdue.tally.moderated rfl reply
  rw [hdue.tally.runs] at hreply
  cases reply with
  | some result => exact ⟨hpending, hdue.toReached, hreply.symm, htally⟩
  | none =>
    have hfailed := hdue.toReached.succ hreply.symm
    simp only [Delivery.afterModerate, Delivery.handleFailure]
    split_ifs with hleft
    · exact ⟨hpending, ⟨Int.ofNat_lt.mp hleft, hfailed⟩, htally, hdue.unfinished⟩
    · have hlast : delivery.event.attempt + 1 = maxAttempts :=
        le_antisymm hdue.left (Int.ofNat_le.mp (not_lt.mp hleft))
      exact ⟨hpending, hlast ▸ hfailed, hlast, htally⟩

/-- **A step of the worker keeps its job on track.** -/
theorem Stage.step (hbacked : DeliveryBacked c delivery) (hcopies : delivery.point.Copies)
    (hsome : (c.store.get delivery.event.jobId).isSome)
    (hcommitted : ∀ offset ∈ c.committed, offset < c.log.length)
    (hstage : Stage answers maxAttempts c delivery.event.jobId delivery.offset
      delivery.event.attempt delivery.point)
    (hreply : ∀ processing, delivery.point = .moderate processing →
      reply = answers delivery.event.jobId (c.runs delivery.event.jobId))
    (hstep : delivery.step maxAttempts now .acknowledged reply c = some (c', next)) :
    ∃ point, next = some point ∧ Stage answers maxAttempts c' delivery.event.jobId
      delivery.offset delivery.event.attempt point := by
  rw [Delivery.step] at hstep
  split at hstep
  case h_1 hpoint =>
    rw [hpoint] at hstage
    obtain ⟨record, hget, hstate⟩ := hstage.2.unfinished
    obtain ⟨rfl, rfl⟩ := Prod.mk.inj (Option.some_inj.mp hstep)
    refine ⟨_, rfl, ?_⟩
    rw [hget, Delivery.afterGet, if_neg hstate]
    exact hstage
  case h_2 hpoint =>
    rw [hpoint] at hstage
    exact hstage.elim
  case h_3 processing hpoint =>
    rw [hpoint] at hstage hcopies
    rw [DeliveryBacked, hpoint] at hbacked
    obtain ⟨rfl, rfl⟩ := Prod.mk.inj (Option.some_inj.mp hstep)
    exact ⟨_, rfl, hstage.1, hstage.2.save hsome hbacked.1.jobId_eq hbacked.2⟩
  case h_4 processing hpoint =>
    obtain ⟨rfl, rfl⟩ := Prod.mk.inj (Option.some_inj.mp hstep)
    exact ⟨_, rfl, hstage.moderate hpoint (hreply processing hpoint)⟩
  case h_5 processing result hpoint =>
    rw [hpoint] at hstage
    obtain ⟨hpending, hreached, hanswer, htally⟩ := hstage
    obtain ⟨rfl, rfl⟩ := Prod.mk.inj (Option.some_inj.mp hstep)
    refine ⟨_, rfl, ?_, hreached, by rw [hanswer, Option.isSome_some], htally.append rfl⟩
    exact (Cluster.pending_append_end rfl).trans hpending
  case h_6 record hpoint =>
    rw [hpoint] at hstage hcopies
    rw [DeliveryBacked, hpoint] at hbacked
    obtain ⟨hpending, hreached, hanswer, htally⟩ := hstage
    obtain ⟨rfl, rfl⟩ := Prod.mk.inj (Option.some_inj.mp hstep)
    exact ⟨_, rfl, .inr ⟨hpending, .inl ⟨_, hreached, hanswer, htally.congr rfl rfl, record,
      Cluster.get_save hsome hbacked.1.jobId_eq, hcopies⟩⟩⟩
  case h_7 processing retryEvent hpoint =>
    rw [hpoint] at hstage
    rw [DeliveryBacked, hpoint] at hbacked
    obtain ⟨-, rfl⟩ := hbacked
    obtain ⟨hpending, hreached, htally, hunfinished⟩ := hstage
    obtain ⟨rfl, rfl⟩ := Prod.mk.inj (Option.some_inj.mp hstep)
    -- The retry is pending behind the event, which has not been committed yet.
    let retryEvent : ModerationJobEvent :=
      { delivery.event with attempt := delivery.event.attempt + 1 }
    have hnew : ∀ message : Message, message.topic = .retry → message.payload = .event retryEvent →
        (c.append message).pending delivery.event.jobId = [delivery.offset, c.log.length] := by
      intro message htopic hpayload
      rw [Cluster.pending_append (by rw [htopic]; rfl) hpayload rfl hcommitted, hpending,
        List.singleton_append]
    exact ⟨_, rfl, c.log.length, retryEvent, hnew _ rfl rfl, Cluster.poll_append_self rfl rfl, rfl,
      hreached, htally.append rfl, hunfinished⟩
  case h_8 record hpoint =>
    rw [hpoint] at hstage hcopies
    rw [DeliveryBacked, hpoint] at hbacked
    obtain ⟨offset', event, hpending, hpoll, hattempt, hdue⟩ := hstage
    obtain ⟨rfl, rfl⟩ := Prod.mk.inj (Option.some_inj.mp hstep)
    exact ⟨_, rfl, .inl ⟨offset', event, hpending, hpoll, hattempt,
      hdue.save hsome hbacked.1.jobId_eq hbacked.2⟩⟩
  case h_9 processing hpoint =>
    rw [hpoint] at hstage
    obtain ⟨hpending, hfailed, hlast, htally⟩ := hstage
    obtain ⟨rfl, rfl⟩ := Prod.mk.inj (Option.some_inj.mp hstep)
    refine ⟨_, rfl, ?_, hfailed, hlast, htally.append rfl⟩
    exact (Cluster.pending_append_end rfl).trans hpending
  case h_10 record hpoint =>
    rw [hpoint] at hstage hcopies
    rw [DeliveryBacked, hpoint] at hbacked
    obtain ⟨hpending, hfailed, hlast, htally⟩ := hstage
    obtain ⟨rfl, rfl⟩ := Prod.mk.inj (Option.some_inj.mp hstep)
    refine ⟨_, rfl, .inr ⟨hpending, .inr ⟨hfailed, ?_, record,
      Cluster.get_save hsome hbacked.1.jobId_eq, hcopies⟩⟩⟩
    rw [← hlast, Nat.add_sub_cancel]
    exact htally.congr rfl rfl
  case h_11 => cases hstep

end Stage

/-! ## The invariant -/

/-- Everything is where it should be. -/
structure System.Orderly (answers : String → ℕ → Option ModerationResponse) (maxAttempts : ℕ)
    (H : Hashing) (s : System) : Prop where
  known : s.Known H
  polled : ∀ delivery, s.workers 0 = some delivery →
    s.cluster.poll delivery.offset = some delivery.event
  committed : ∀ offset ∈ s.cluster.committed, (s.cluster.poll offset).isSome
  nodup : s.cluster.committed.Nodup
  unique : ∀ {client client' call call'}, s.submits client = some call →
    s.submits client' = some call' → call.requestId = call'.requestId → client = client'
  jobs : ∀ jobId, s.OnTrack answers maxAttempts H jobId

namespace System

variable {answers : String → ℕ → Option ModerationResponse} {maxAttempts : ℕ} {H : Hashing}
  {s s' : System} {a : Action} {jobId : String}

theorem orderly_init : init.Orderly answers maxAttempts H where
  known := known_init H
  polled _ h := by cases h
  committed _ h := by cases h
  nodup := List.nodup_nil
  unique h := by cases h
  jobs jobId := by
    refine .absent (fun _ h ↦ by cases h) rfl rfl ⟨rfl, rfl, rfl, rfl, rfl⟩ fun _ _ h ↦ ?_
    cases h

theorem Serves.keepsKeys (h : s.Serves answers a) : a.keepsKeys = true := by
  cases a with
  | expire => cases h
  | _ => rfl

namespace Orderly

theorem committed_lt (h : s.Orderly answers maxAttempts H) :
    ∀ offset ∈ s.cluster.committed, offset < s.cluster.log.length := by
  intro offset hmem
  obtain ⟨event, hpoll⟩ := Option.isSome_iff_exists.mp (h.committed offset hmem)
  exact Cluster.lt_of_poll hpoll

theorem eq_of_jobId (hinj : Function.Injective H.uuid5) (h : s.Orderly answers maxAttempts H)
    {client client' : ℕ} {call call' : SubmitCall} (hcall : s.submits client = some call)
    (hcall' : s.submits client' = some call') (hid : call.jobId H = call'.jobId H) :
    client = client' ∧ call = call' := by
  obtain rfl := h.unique hcall hcall' ((String.append_right_inj _).mp (hinj hid))
  exact ⟨rfl, Option.some_inj.mp (hcall.symm.trans hcall')⟩

theorem stage (h : s.Orderly answers maxAttempts H) {delivery : Delivery}
    (hdelivery : s.workers 0 = some delivery) :
    s.Submitted H delivery.event.jobId ∧ Stage answers maxAttempts s.cluster delivery.event.jobId
      delivery.offset delivery.event.attempt delivery.point := by
  cases h.jobs delivery.event.jobId with
  | working delivery' hsubmitted hdelivery' hid hstage =>
    cases hdelivery.symm.trans hdelivery'
    exact ⟨hsubmitted, hstage⟩
  | absent hidle | created _ _ _ _ _ _ hidle | waiting _ _ _ hidle | closed _ hidle =>
    exact absurd rfl (hidle delivery hdelivery)

theorem not_committed (h : s.Orderly answers maxAttempts H) {delivery : Delivery}
    (hdelivery : s.workers 0 = some delivery) : delivery.offset ∉ s.cluster.committed :=
  (Cluster.mem_pending.mp (h.stage hdelivery).2.mem_pending).2

theorem submit (h : s.Orderly answers maxAttempts H) (hinj : Function.Injective H.uuid5)
    {client : ℕ} {request : ModerationRequest} {uuid4 : String} {now : DateTime}
    (hfree : s.submits client = none)
    (hserves : s.Serves answers (.submit client request uuid4 now)) (jobId : String) :
    OnTrack answers maxAttempts H
      ⟨s.cluster, Function.update s.submits client (some (Sentinel.submit H request uuid4 now)),
        s.workers⟩ jobId := by
  by_cases hid : (Sentinel.submit H request uuid4 now).jobId H = jobId
  · have hnew : ∀ client' call', s.submits client' = some call' → call'.jobId H ≠ jobId := by
      intro client' call' hcall' hid'
      apply hserves client' call' hcall'
      exact (String.append_right_inj _).mp (hinj (hid'.trans hid.symm))
    have hnone : ¬s.Submitted H jobId := by
      rintro ⟨client', call', job, hcall', hid', -⟩
      exact hnew client' call' hcall' hid'
    cases h.jobs jobId with
    | absent hidle hget hpending htally hcalls =>
      refine .absent hidle hget hpending htally fun client' call' hcall' hid' ↦ ?_
      simp only [Function.update_apply] at hcall'
      split_ifs at hcall'
      · cases hcall'
        exact ⟨_, rfl⟩
      · exact hcalls client' call' hcall' hid'
    | created client' call' record hcall' hid' => exact absurd hid' (hnew client' call' hcall')
    | waiting _ _ hsubmitted | working _ hsubmitted | closed hsubmitted =>
      exact absurd hsubmitted hnone
  · refine (h.jobs jobId).congr (.refl _ _) (fun _ _ ↦ Iff.rfl) fun client' call' ↦
      update_eq_some_iff s.submits client (p := fun call : SubmitCall ↦ call.jobId H = jobId)
        (fun call hcall ↦ ?_) (fun call hcall ↦ ?_) client'
    · cases hfree.symm.trans hcall
    · cases hcall
      exact hid

theorem submitStep (h : s.Orderly answers maxAttempts H) (hinj : Function.Injective H.uuid5)
    (hpos : 1 ≤ maxAttempts) {client : ℕ} {call : SubmitCall} {now : DateTime} {c' : Cluster}
    {point : SubmitPoint} (hcall : s.submits client = some call)
    (hstep : call.step H now .acknowledged s.cluster = some (c', point)) (jobId : String) :
    OnTrack answers maxAttempts H
      ⟨c', Function.update s.submits client (some { call with point := point }), s.workers⟩
      jobId := by
  obtain ⟨hbacked, -⟩ := h.known.contents.submits hcall
  have hmoves := SubmitCall.moves_of_step hstep
  by_cases hid : call.jobId H = jobId
  · subst hid
    have hself : ∀ {client' call'}, s.submits client' = some call' →
        call'.jobId H = call.jobId H → client' = client ∧ call' = call :=
      fun hcall' hid' ↦ h.eq_of_jobId hinj hcall' hcall hid'
    have hdone : ¬s.Submitted H (call.jobId H) := by
      rintro ⟨client', call', job, hcall', hid', hpoint⟩
      obtain ⟨rfl, rfl⟩ := hself hcall' hid'
      rw [SubmitCall.step, hpoint] at hstep
      cases hstep
    -- The job is the call's own, and the call has not returned: there is no event of it yet.
    cases h.jobs (call.jobId H) with
    | absent hidle hnone hpending htally hcalls =>
      obtain ⟨record, hpoint⟩ := hcalls client call hcall rfl
      rw [SubmitBacked, hpoint] at hbacked
      obtain ⟨now', rfl⟩ := hbacked
      have hcreate : s.cluster.create (call.storedJob H now') = (true, _) :=
        Cluster.create_of_eq_none hnone
      rw [SubmitCall.step, hpoint] at hstep
      simp only [hcreate] at hstep
      obtain ⟨rfl, rfl⟩ := Prod.mk.inj (Option.some_inj.mp hstep)
      have hget : (s.cluster.store.set (call.storedJob H now')).get (call.jobId H)
          = some (call.storedJob H now') := (RedisJobStore.get_set _ _ _).trans (if_pos rfl)
      exact .created client _ (call.storedJob H now') (Function.update_self ..) rfl rfl hidle
        ⟨_, hget, (fun h ↦ by cases h)⟩ hpending (htally.congr rfl rfl)
    | created client' call' record hcall' hid' hpoint hidle hrecord hpending htally =>
      obtain ⟨rfl, rfl⟩ := hself hcall' hid'
      rw [SubmitCall.step, hpoint] at hstep
      obtain ⟨rfl, rfl⟩ := Prod.mk.inj (Option.some_inj.mp hstep)
      have hreached : Reached answers maxAttempts (call'.jobId H) 0 :=
        ⟨hpos, fun i hi ↦ absurd hi (Nat.not_lt_zero i)⟩
      refine .waiting s.cluster.log.length (call'.event H)
        ⟨client', _, record.job, Function.update_self .., rfl, rfl⟩ hidle ?_
        (Cluster.poll_append_self rfl rfl) ⟨hreached, htally.append rfl, hrecord⟩
      have hnew : ∀ message : Message, message.topic = .input →
          message.payload = .event (call'.event H) →
          (s.cluster.append message).pending (call'.jobId H) = [s.cluster.log.length] := by
        intro message htopic hpayload
        have hown : (call'.event H).jobId = call'.jobId H := rfl
        rw [Cluster.pending_append (by rw [htopic]; rfl) hpayload hown h.committed_lt, hpending,
          List.nil_append]
      exact hnew _ rfl rfl
    | waiting _ _ hsubmitted | working _ hsubmitted | closed hsubmitted =>
      exact absurd hsubmitted hdone
  · refine (h.jobs jobId).congr (hmoves.sameJob hbacked hid) (fun _ _ ↦ Iff.rfl)
      fun client' call' ↦ update_eq_some_iff s.submits client
        (p := fun call : SubmitCall ↦ call.jobId H = jobId)
        (fun before hbefore ↦ ?_) (fun after hafter ↦ ?_) client'
    · cases hcall.symm.trans hbefore
      exact hid
    · cases hafter
      exact hid

theorem poll (h : s.Orderly answers maxAttempts H) {offset : ℕ} {event : ModerationJobEvent}
    (hidle : s.workers 0 = none) (hpoll : s.cluster.poll offset = some event)
    (hfresh : offset ∉ s.cluster.committed) (jobId : String) :
    OnTrack answers maxAttempts H
      ⟨s.cluster, s.submits, Function.update s.workers 0 (some ⟨offset, event, .get⟩)⟩ jobId := by
  by_cases hid : event.jobId = jobId
  · have hmem : offset ∈ s.cluster.pending jobId :=
      Cluster.mem_pending.mpr ⟨⟨event, hpoll, hid⟩, hfresh⟩
    -- an event is pending and nobody has it in hand, so the job is waiting for it
    cases h.jobs jobId with
    | absent _ _ hpending | created _ _ _ _ _ _ _ _ hpending | closed _ _ hpending =>
      rw [hpending] at hmem
      cases hmem
    | waiting offset' event' hsubmitted hfree hpending hpoll' hdue =>
      rw [hpending, List.mem_singleton] at hmem
      subst hmem
      cases hpoll.symm.trans hpoll'
      exact .working ⟨offset, event, .get⟩ hsubmitted (by simp only [Function.update_self]) hid
        ⟨hpending, hdue⟩
    | working delivery hsubmitted hdelivery => cases hidle.symm.trans hdelivery
  · refine (h.jobs jobId).congr (.refl _ _) (fun _ ↦
      update_eq_some_iff s.workers 0 (p := fun delivery : Delivery ↦ delivery.event.jobId = jobId)
        (fun before hbefore ↦ ?_) (fun after hafter ↦ ?_) 0) fun _ _ _ ↦ Iff.rfl
    · cases hidle.symm.trans hbefore
    · cases hafter
      exact hid

theorem processStep (h : s.Orderly answers maxAttempts H) {delivery : Delivery} {now : DateTime}
    {reply : Option ModerationResponse} {c' : Cluster} {point : Option ProcessPoint}
    (hdelivery : s.workers 0 = some delivery)
    (hreply : ∀ processing, delivery.point = .moderate processing →
      reply = answers delivery.event.jobId (s.cluster.runs delivery.event.jobId))
    (hstep : delivery.step maxAttempts now .acknowledged reply s.cluster = some (c', point))
    (jobId : String) :
    OnTrack answers maxAttempts H ⟨c', s.submits, Function.update s.workers 0
      (point.map fun point ↦ { delivery with point := point })⟩ jobId := by
  have hbacked := (h.known.contents.workers hdelivery).backed
  by_cases hid : delivery.event.jobId = jobId
  · subst hid
    obtain ⟨hsubmitted, hstage⟩ := h.stage hdelivery
    obtain ⟨next, rfl, hnext⟩ := hstage.step hbacked (h.known.copies.workers hdelivery)
      (h.known.isSome hdelivery) h.committed_lt hreply hstep
    exact .working { delivery with point := next } hsubmitted
      (by simp only [Option.map_some, Function.update_self]) rfl hnext
  · refine (h.jobs jobId).congr ((Delivery.moves_of_step hstep).sameJob hbacked hid) (fun _ ↦
      update_eq_some_iff s.workers 0 (p := fun delivery : Delivery ↦ delivery.event.jobId = jobId)
        (fun before hbefore ↦ ?_) (fun after hafter ↦ ?_) 0) fun _ _ _ ↦ Iff.rfl
    · cases hdelivery.symm.trans hbefore
      exact hid
    · obtain ⟨next, -, rfl⟩ := Option.map_eq_some_iff.mp hafter
      exact hid

theorem commit (h : s.Orderly answers maxAttempts H) {delivery : Delivery}
    (hdelivery : s.workers 0 = some delivery) (hpoint : delivery.point = .returned)
    (jobId : String) :
    OnTrack answers maxAttempts H
      ⟨s.cluster.commit delivery.offset, s.submits, Function.update s.workers 0 none⟩ jobId := by
  -- there is one worker, and it has let go of its event
  have hidle : ∀ {jobId}, Idle ⟨s.cluster.commit delivery.offset, s.submits,
      Function.update s.workers 0 none⟩ jobId := by
    intro jobId delivery' hdelivery'
    simp only [Function.update_self] at hdelivery'
    cases hdelivery'
  have hsame : ∀ {jobId}, (s.cluster.commit delivery.offset).pending jobId
      = s.cluster.pending jobId → s.cluster.SameJob (s.cluster.commit delivery.offset) jobId :=
    fun hpending ↦ ⟨rfl, fun _ ↦ rfl, rfl, hpending, fun h ↦ h⟩
  by_cases hid : delivery.event.jobId = jobId
  · subst hid
    obtain ⟨hsubmitted, hstage⟩ := h.stage hdelivery
    rw [hpoint] at hstage
    have hcommit : (s.cluster.commit delivery.offset).pending delivery.event.jobId = _ :=
      Cluster.pending_commit delivery.offset
    -- Behind the event there may be the retry that its processing has published.
    rcases hstage with ⟨offset, event, hpending, hpoll, hattempt, hdue⟩ | ⟨hpending, hclosed⟩
    · have hne : offset ≠ delivery.offset := by
        have hnodup := s.cluster.pending_nodup delivery.event.jobId
        rw [hpending] at hnodup
        rintro rfl
        exact (List.nodup_cons.mp hnodup).1 (List.mem_singleton_self _)
      rw [hpending] at hcommit
      refine .waiting offset event hsubmitted hidle (by simpa [hne] using hcommit) hpoll ?_
      rw [hattempt]
      exact ⟨hdue.toReached, hdue.tally.congr rfl rfl, hdue.unfinished⟩
    · rw [hpending] at hcommit
      refine .closed hsubmitted hidle (by simpa using hcommit) ?_
      rcases hclosed with ⟨attempt, hreached, hanswer, htally, hstate⟩ | ⟨hfailed, htally, hrecord⟩
      · exact .inl ⟨attempt, hreached, hanswer, htally.congr rfl rfl, hstate⟩
      · exact .inr ⟨hfailed, htally.congr rfl rfl, hrecord⟩
  · refine (h.jobs jobId).congr (hsame ?_) (fun _ ↦
      update_eq_some_iff s.workers 0 (p := fun delivery : Delivery ↦ delivery.event.jobId = jobId)
        (fun before hbefore ↦ ?_) (fun after hafter ↦ ?_) 0) fun _ _ _ ↦ Iff.rfl
    · rw [Cluster.pending_commit, List.filter_eq_self]
      intro offset hoffset
      obtain ⟨⟨event, hpoll, hid'⟩, -⟩ := Cluster.mem_pending.mp hoffset
      refine decide_eq_true ?_
      rintro rfl
      rw [h.polled delivery hdelivery] at hpoll
      cases hpoll
      exact hid hid'
    · cases hdelivery.symm.trans hbefore
      exact hid
    · cases hafter

/-- **A step keeps everything in order.** -/
theorem step (h : s.Orderly answers maxAttempts H) (hinj : Function.Injective H.uuid5)
    (hpos : 1 ≤ maxAttempts) (hserves : s.Serves answers a)
    (hstep : step H maxAttempts s a = some s') : s'.Orderly answers maxAttempts H := by
  have hmoves := moves_of_step hstep
  have hgrows := hmoves.grows
  have hknown := h.known.step hserves.keepsKeys hmoves
  -- the log grows at its end, so what has been committed is still there
  have hstays : ∀ offset ∈ s.cluster.committed, (s'.cluster.poll offset).isSome := by
    intro offset hmem
    obtain ⟨event, hpoll⟩ := Option.isSome_iff_exists.mp (h.committed offset hmem)
    rw [hgrows.poll hpoll, Option.isSome_some]
  have hpolled : ∀ delivery, s.workers 0 = some delivery →
      s'.cluster.poll delivery.offset = some delivery.event :=
    fun delivery hdelivery ↦ hgrows.poll (h.polled delivery hdelivery)
  have hcommitted : s'.cluster.committed = s.cluster.committed →
      (∀ offset ∈ s'.cluster.committed, (s'.cluster.poll offset).isSome) ∧
        s'.cluster.committed.Nodup := by
    intro hsame
    rw [hsame]
    exact ⟨hstays, h.nodup⟩
  cases hmoves with
  | submit client request uuid4 now hfree =>
    refine ⟨hknown, hpolled, h.committed, h.nodup, ?_, h.submit hinj hfree hserves⟩
    -- the new call comes with an id that no other call has
    intro client₁ client₂ call₁ call₂ hcall₁ hcall₂ hrequest
    simp only [Function.update_apply] at hcall₁ hcall₂
    split_ifs at hcall₁ hcall₂ with h₁ h₂ h₂
    · exact h₁.trans h₂.symm
    · cases hcall₁
      exact absurd hrequest.symm (hserves client₂ call₂ hcall₂)
    · cases hcall₂
      exact absurd hrequest (hserves client₁ call₁ hcall₁)
    · exact h.unique hcall₁ hcall₂ hrequest
  | submitStep client now outcome call cluster point hcall hmoves =>
    obtain rfl : outcome = .acknowledged := hserves
    simp only [System.step, hcall] at hstep
    obtain ⟨⟨cluster', point'⟩, hstep', heq⟩ := Option.map_eq_some_iff.mp hstep
    obtain ⟨hcommitted, hnodup⟩ := hcommitted hmoves.committed_eq
    refine ⟨hknown, hpolled, hcommitted, hnodup, ?_, heq ▸ h.submitStep hinj hpos hcall hstep'⟩
    intro client₁ client₂ call₁ call₂ hcall₁ hcall₂ hrequest
    simp only [Function.update_apply] at hcall₁ hcall₂
    split_ifs at hcall₁ hcall₂ with h₁ h₂ h₂
    · exact h₁.trans h₂.symm
    · cases hcall₁
      exact h₁.trans (h.unique hcall hcall₂ hrequest)
    · cases hcall₂
      exact (h.unique hcall₁ hcall hrequest).trans h₂.symm
    · exact h.unique hcall₁ hcall₂ hrequest
  | submitCrash => cases hserves
  | poll worker offset event hidle hpoll =>
    obtain ⟨rfl, hfresh⟩ := hserves
    refine ⟨hknown, fun delivery hdelivery ↦ ?_, h.committed, h.nodup, h.unique,
      h.poll hidle hpoll hfresh⟩
    simp only [Function.update_self] at hdelivery
    cases hdelivery
    exact hpoll
  | processStep worker now outcome reply delivery cluster point hdelivery hmoves =>
    obtain ⟨rfl, rfl, hreply⟩ := hserves
    simp only [System.step, hdelivery] at hstep
    obtain ⟨⟨cluster', point'⟩, hstep', heq⟩ := Option.map_eq_some_iff.mp hstep
    obtain ⟨hcommitted, hnodup⟩ := hcommitted hmoves.committed_eq
    refine ⟨hknown, fun delivery' hdelivery' ↦ ?_, hcommitted, hnodup, h.unique,
      heq ▸ h.processStep hdelivery (fun processing ↦ hreply delivery processing hdelivery) hstep'⟩
    simp only [Function.update_self] at hdelivery'
    obtain ⟨next, -, rfl⟩ := Option.map_eq_some_iff.mp hdelivery'
    exact hpolled delivery hdelivery
  | commit worker delivery hdelivery hpoint =>
    obtain rfl := hserves
    refine ⟨hknown, fun delivery' hdelivery' ↦ ?_, fun offset hmem ↦ ?_,
      List.nodup_cons.mpr ⟨h.not_committed hdelivery, h.nodup⟩, h.unique,
      h.commit hdelivery hpoint⟩
    · simp only [Function.update_self] at hdelivery'
      cases hdelivery'
    · rcases List.mem_cons.mp hmem with rfl | hmem
      · rw [hpolled delivery hdelivery, Option.isSome_some]
      · exact hstays offset hmem
  | workerCrash => cases hserves
  | expire => cases hserves

/-- **In every run everything is in order.** -/
theorem run (hinj : Function.Injective H.uuid5) (hpos : 1 ≤ maxAttempts) {as : List Action}
    (hserves : Transition.Along (System.step H maxAttempts) (Serves answers) init as)
    (hrun : System.run H maxAttempts init as = some s) : s.Orderly answers maxAttempts H :=
  Transition.run_invariant_along (fun h hC hstep ↦ h.step hinj hpos hC hstep) orderly_init hserves
    hrun

end Orderly

end System
end Sentinel
