import Sentinel.Distributed.Engaged

/-!
# When dead-lettering is final

One worker takes the events one at a time, dies where it likes, and is handed the same event again
as often as the broker likes. Two things can then go wrong with a job whose attempts are exhausted.

The check at the top of `process` lets only succeeded jobs pass. A redelivery of the last attempt
after the failure has been recorded takes the job up again: it is marked as processing, the engine
gets another chance, and the job may end with a result after all.

Between the publication of the dead letter and the save that records it, nothing but the broker
knows of the dead letter. If the worker dies there, the job is taken up again as well, and rightly
so as far as its record goes. The pipeline is at least once, and nothing ties the broker to the
store.

Without these two, an ended job is left alone.
-/

namespace Sentinel

/-! ## What has been published -/

theorem Delivery.eq_of_step_none {maxAttempts : ℤ} {delivery : Delivery} {now : DateTime}
    {outcome : PublishOutcome} {reply : Option ModerationResponse} {c c' : Cluster}
    (h : delivery.step maxAttempts now outcome reply c = some (c', none))
    (hne : outcome ≠ .unacknowledged) : c' = c := by
  rw [step] at h
  split at h
  case h_2 | h_5 | h_7 | h_9 =>
    cases outcome with
    | acknowledged => cases h
    | lost => exact (Prod.mk.inj (Option.some_inj.mp h)).1.symm
    | unacknowledged => exact absurd rfl hne
  all_goals cases h

namespace System

variable {H : Hashing} {maxAttempts : ℤ} {jobId : String} {s s' : System} {a : Action}
  {c' : Cluster}

/-- No end of the job has been published in this step, and none that was published is lost. -/
theorem Recorded.congr (h : s.Recorded jobId)
    (hlog : ∀ topic, topic = .result ∨ topic = .dlq → s'.cluster.HasEvent topic jobId →
      s.cluster.HasEvent topic jobId)
    (hget : s.cluster.Ended jobId → s'.cluster.store.get jobId = s.cluster.store.get jobId)
    (hfound : s'.inHand jobId ≠ some .publishMissing)
    (hhand : ∀ point, s.inHand jobId = some point → point.savesEnd = true →
      s'.inHand jobId = some point) : s'.Recorded jobId where
  found := hfound
  result hevent := by
    rcases h.result (hlog .result (.inl rfl) hevent) with hstate | ⟨record, hpoint⟩
    · exact .inl (hstate.congr (hget (.inl hstate)))
    · exact .inr ⟨record, hhand _ hpoint rfl⟩
  deadLetter hevent := by
    rcases h.deadLetter (hlog .dlq (.inr rfl) hevent) with hexhausted | ⟨record, hpoint⟩
    · exact .inl (hexhausted.congr (hget (.inr hexhausted)))
    · exact .inr ⟨record, hhand _ hpoint rfl⟩

/-- The end of a job that the worker is engaged with is known to the worker alone. -/
theorem Recorded.not_hasEvent (htracked : s.Tracked H jobId) (h : s.Recorded jobId)
    {point : ProcessPoint} (hhand : s.inHand jobId = some point) (hengaged : point.engaged = true) :
    ((∀ record, point ≠ .saveSucceeded record) → ¬s.cluster.HasEvent .result jobId) ∧
      ((∀ record, point ≠ .saveFailed record) → ¬s.cluster.HasEvent .dlq jobId) := by
  have hended : ¬s.cluster.Ended jobId :=
    (htracked.engaged point hhand hengaged).2.not_ended (by decide) (by decide)
  constructor
  · intro hne hevent
    rcases h.result hevent with hstate | ⟨record, hpoint⟩
    · exact hended (.inl hstate)
    · exact hne record (Option.some_inj.mp (hhand.symm.trans hpoint))
  · intro hne hevent
    rcases h.deadLetter hevent with hexhausted | ⟨record, hpoint⟩
    · exact hended (.inr hexhausted)
    · exact hne record (Option.some_inj.mp (hhand.symm.trans hpoint))

theorem hasEvent_of_submit {c : Cluster} {call : SubmitCall} {point : SubmitPoint}
    (hmoves : call.Moves H c c' point) {topic : Topic} (htopic : topic = .result ∨ topic = .dlq)
    (hevent : c'.HasEvent topic jobId) : c.HasEvent topic jobId := by
  have hinput : ∀ {payload acknowledged},
      (c.append ⟨.input, call.jobId H, payload, acknowledged⟩).HasEvent topic jobId →
      c.HasEvent topic jobId := by
    intro payload acknowledged hevent
    refine hevent.append.resolve_right ?_
    rintro ⟨rfl, -⟩
    rcases htopic with htopic | htopic <;> cases htopic
  cases hmoves with
  | created | taken | disappeared | conflict | replay | existing | failed | accepted =>
    exact hevent
  | published | republished => exact hinput hevent
  | unpublished storedJob replay now c' hpoint hc' =>
    rcases hc' with rfl | rfl
    · exact hevent
    · exact hinput hevent

theorem hasEvent_of_process {c : Cluster} {delivery : Delivery} {point : Option ProcessPoint}
    (hmoves : delivery.Moves maxAttempts c c' point)
    (hother : delivery.event.jobId = jobId → delivery.point ≠ .publishMissing ∧
      (delivery.point.publishesEnd = true → c' = c))
    {topic : Topic} (htopic : topic = .result ∨ topic = .dlq)
    (hevent : c'.HasEvent topic jobId) : c.HasEvent topic jobId := by
  have hend : ∀ {topic' payload acknowledged}, delivery.publication = some (topic', payload) →
      c' = c.append ⟨topic', delivery.event.jobId, payload, acknowledged⟩ →
      c.HasEvent topic jobId := by
    rintro topic' payload acknowledged hpublication rfl
    refine hevent.append.elim id ?_
    rintro ⟨rfl, hid⟩
    obtain ⟨hmissing, hsame⟩ := hother hid
    rw [Delivery.publication] at hpublication
    split at hpublication
    case h_1 hpoint => exact absurd hpoint hmissing
    case h_3 => rcases htopic with rfl | rfl <;> cases hpublication
    case h_5 => cases hpublication
    all_goals
      rename_i hpoint
      have hsame' := hsame (by rw [hpoint]; rfl)
      rw [hsame'] at hevent
      exact hevent
  cases hmoves with
  | missing | duplicate | taken | processing | moderated | failedRetry | failedLast | succeeded
  | retrying | failed => exact hevent
  | publishedMissing hpoint | publishedResult _ _ _ hpoint | publishedRetry _ _ _ hpoint
  | publishedExhausted _ _ hpoint => exact hend (by rw [Delivery.publication, hpoint]) rfl
  | unpublished topic' payload c' hpublication hc' =>
    rcases hc' with rfl | rfl
    · exact hevent
    · exact hend hpublication rfl

theorem Recorded.passes (h : s.Recorded jobId) {delivery : Delivery} {point : Option ProcessPoint}
    (hhand : s.inHand jobId = some delivery.point)
    (hmoves : delivery.Moves maxAttempts s.cluster c' point)
    (hget : s.cluster.Ended jobId → c'.store.get jobId = s.cluster.store.get jobId)
    (hhand' : s'.inHand jobId = point) (hcluster : s'.cluster = c')
    (hfound : point ≠ some .publishMissing) (hsaves : delivery.point.savesEnd = false)
    (hpublishes : delivery.point.publishesEnd = true → c' = s.cluster) : s'.Recorded jobId := by
  subst hcluster
  have hmissing : delivery.point ≠ .publishMissing := fun hpoint ↦
    h.found (hhand.trans (congrArg some hpoint))
  refine h.congr (fun topic htopic hevent ↦ hasEvent_of_process hmoves
    (fun _ ↦ ⟨hmissing, hpublishes⟩) htopic hevent) hget (hhand' ▸ hfound) ?_
  intro point' hpoint' hsaves'
  cases hhand.symm.trans hpoint'
  rw [hsaves] at hsaves'
  cases hsaves'

theorem Recorded.publishedEnd (h : s.Recorded jobId) (htracked : s.Tracked H jobId)
    {point next : ProcessPoint} {message : Message} (hhand : s.inHand jobId = some point)
    (hpublishes : point.publishesEnd = true)
    (hcluster : s'.cluster = s.cluster.append message) (hhand' : s'.inHand jobId = some next)
    (hnext : (message.topic = .result ∧ ∃ record, next = .saveSucceeded record) ∨
      (message.topic = .dlq ∧ ∃ record, next = .saveFailed record)) : s'.Recorded jobId := by
  have hengaged : point.engaged = true := by
    cases point with
    | publishResult | publishExhausted => rfl
    | _ => cases hpublishes
  obtain ⟨hresult, hdead⟩ := h.not_hasEvent htracked hhand hengaged
  have hnoResult : ¬s.cluster.HasEvent .result jobId := hresult fun record hpoint ↦ by
    rw [hpoint] at hpublishes
    cases hpublishes
  have hnoDead : ¬s.cluster.HasEvent .dlq jobId := hdead fun record hpoint ↦ by
    rw [hpoint] at hpublishes
    cases hpublishes
  rcases hnext with ⟨htopic, record, rfl⟩ | ⟨htopic, record, rfl⟩
  · refine ⟨by simp [hhand'], fun _ ↦ .inr ⟨record, hhand'⟩, fun hevent ↦ ?_⟩
    rw [hcluster] at hevent
    obtain ⟨hdlq, -⟩ := hevent.append.resolve_left hnoDead
    cases htopic.symm.trans hdlq
  · refine ⟨by simp [hhand'], fun hevent ↦ ?_, fun _ ↦ .inr ⟨record, hhand'⟩⟩
    rw [hcluster] at hevent
    obtain ⟨hresult, -⟩ := hevent.append.resolve_left hnoResult
    cases htopic.symm.trans hresult

theorem Recorded.saveSucceeded (h : s.Recorded jobId) (htracked : s.Tracked H jobId)
    {record : StoredModerationJob} (hhand : s.inHand jobId = some (.saveSucceeded record))
    (hhand' : s'.inHand jobId = some .returned) (hcluster : s'.cluster = s.cluster.save record)
    (hstate : (s.cluster.save record).InState jobId .succeeded) : s'.Recorded jobId := by
  have hdead : ¬s.cluster.HasEvent .dlq jobId := by
    apply (h.not_hasEvent htracked hhand rfl).2
    intro record' hpoint
    cases hpoint
  refine ⟨fun hpoint ↦ ?_, fun _ ↦ .inl ?_, fun hevent ↦ ?_⟩
  · cases hhand'.symm.trans hpoint
  · rw [hcluster]
    exact hstate
  · rw [hcluster] at hevent
    exact absurd hevent hdead

theorem Recorded.saveFailed (h : s.Recorded jobId) (htracked : s.Tracked H jobId)
    {record : StoredModerationJob} (hhand : s.inHand jobId = some (.saveFailed record))
    (hhand' : s'.inHand jobId = some .returned) (hcluster : s'.cluster = s.cluster.save record)
    (hexhausted : (s.cluster.save record).Exhausted jobId) : s'.Recorded jobId := by
  have hresult : ¬s.cluster.HasEvent .result jobId := by
    apply (h.not_hasEvent htracked hhand rfl).1
    intro record' hpoint
    cases hpoint
  refine ⟨fun hpoint ↦ ?_, fun hevent ↦ ?_, fun _ ↦ .inl ?_⟩
  · cases hhand'.symm.trans hpoint
  · rw [hcluster] at hevent
    exact absurd hevent hresult
  · rw [hcluster]
    exact hexhausted

theorem Recorded.processStep (hknown : s.Known H) (htracked : s.Tracked H jobId)
    (h : s.Recorded jobId) {delivery : Delivery} {point : Option ProcessPoint} {now : DateTime}
    {outcome : PublishOutcome} {reply : Option ModerationResponse}
    (hdelivery : s.workers 0 = some delivery) (hid : delivery.event.jobId = jobId)
    (hstep : delivery.step maxAttempts now outcome reply s.cluster = some (c', point))
    (hget : s.cluster.Ended jobId → c'.store.get jobId = s.cluster.store.get jobId)
    (hdies : outcome = .unacknowledged → delivery.point.publishesEnd = false)
    (hhand' : s'.inHand jobId = point) (hcluster : s'.cluster = c') : s'.Recorded jobId := by
  have hmoves := Delivery.moves_of_step hstep
  have hhand := inHand_of_delivery hdelivery hid
  have hbacked := (hknown.contents.workers hdelivery).backed
  have hcopies := hknown.copies.workers hdelivery
  have hsome := hid ▸ hknown.isSome hdelivery
  have hpasses := h.passes hhand hmoves hget hhand' hcluster
  cases hmoves with
  | missing hpoint hnone =>
    rw [← hid, hnone] at hsome
    cases hsome
  | duplicate _ hpoint | taken _ _ hpoint | processing _ hpoint | moderated _ _ hpoint
  | failedRetry _ hpoint | failedLast _ hpoint | publishedRetry _ _ _ hpoint
  | retrying _ hpoint =>
    refine hpasses (by simp) (by rw [hpoint]; rfl) ?_
    rw [hpoint]
    exact fun h ↦ by cases h
  | publishedMissing hpoint => exact absurd (hhand.trans (congrArg some hpoint)) h.found
  | unpublished topic payload c' hpublication hc' =>
    refine hpasses (by simp) ?_ fun hpublishes ↦
      Delivery.eq_of_step_none hstep fun houtcome ↦ ?_
    · rw [Delivery.publication] at hpublication
      split at hpublication
      case h_5 => cases hpublication
      all_goals
        rename_i hpoint
        rw [hpoint]
        rfl
    · rw [hdies houtcome] at hpublishes
      cases hpublishes
  | publishedResult processing result now hpoint =>
    exact h.publishedEnd htracked hhand (by rw [hpoint]; rfl) hcluster hhand' (.inl ⟨rfl, _, rfl⟩)
  | publishedExhausted processing now hpoint =>
    exact h.publishedEnd htracked hhand (by rw [hpoint]; rfl) hcluster hhand' (.inr ⟨rfl, _, rfl⟩)
  | succeeded record hpoint =>
    rw [hpoint] at hcopies hhand
    rw [DeliveryBacked, hpoint] at hbacked
    exact h.saveSucceeded htracked hhand hhand' hcluster
      ⟨record, Cluster.get_save hsome (hbacked.1.jobId_eq.trans hid), hcopies⟩
  | failed record hpoint =>
    rw [hpoint] at hcopies hhand
    rw [DeliveryBacked, hpoint] at hbacked
    exact h.saveFailed htracked hhand hhand' hcluster
      ⟨record, Cluster.get_save hsome (hbacked.1.jobId_eq.trans hid), hcopies⟩

/-- **What a step does to the ends of a job.** -/
theorem Recorded.step (hknown : s.Known H) (htracked : s.Tracked H jobId) (h : s.Recorded jobId)
    (hone : s.OneWorker H jobId a) (hdies : ¬s.DiesUnrecorded jobId a)
    (hstep : step H maxAttempts s a = some s') : s'.Recorded jobId := by
  have hmoves := moves_of_step hstep
  have hget := htracked.get_eq hknown hone hmoves
  cases hmoves with
  | submit | submitCrash => exact h.congr (fun _ _ ↦ id) hget h.found fun _ hpoint _ ↦ hpoint
  | submitStep client now outcome call cluster point hcall hmoves =>
    exact h.congr (fun topic ↦ hasEvent_of_submit hmoves) hget h.found fun _ hpoint _ ↦ hpoint
  | poll worker offset event hidle hpoll =>
    obtain rfl := hone
    refine h.congr (fun _ _ ↦ id) hget ?_ fun point hpoint ↦ ?_
    · rw [inHand_update, Option.bind_some]
      split_ifs <;> exact fun h ↦ by cases h
    · rw [inHand, hidle] at hpoint
      cases hpoint
  | processStep worker now outcome reply delivery cluster point hdelivery hmoves =>
    obtain ⟨rfl, -⟩ := hone
    simp only [System.step, hdelivery] at hstep
    obtain ⟨⟨cluster', point'⟩, hstep', heq⟩ := Option.map_eq_some_iff.mp hstep
    rw [← heq] at hget ⊢
    have hhand' := inHand_map s cluster' jobId delivery point'
    by_cases hid : delivery.event.jobId = jobId
    · rw [if_pos hid] at hhand'
      refine h.processStep hknown htracked hdelivery hid hstep' hget (fun houtcome ↦ ?_) hhand' rfl
      rw [← Bool.not_eq_true]
      intro hpublishes
      refine hdies ⟨houtcome, ?_⟩
      rw [inHand_of_delivery hdelivery hid, Option.any_some, hpublishes]
    · rw [if_neg hid] at hhand'
      refine h.congr (fun topic htopic hevent ↦ ?_) hget (by simp [hhand']) ?_
      · exact hasEvent_of_process (Delivery.moves_of_step hstep') (fun hid' ↦ absurd hid' hid)
          htopic hevent
      · intro point hpoint
        rw [inHand_of_other hdelivery hid] at hpoint
        cases hpoint
  | commit worker delivery hdelivery hpoint =>
    obtain rfl := hone
    refine h.congr (fun _ _ ↦ id) hget (by simp [inHand_update]) fun point hhand ↦ ?_
    rw [inHand, hdelivery, Option.bind_some, hpoint] at hhand
    split_ifs at hhand
    rintro hsaves
    cases hhand
    cases hsaves
  | workerCrash worker delivery hdelivery =>
    obtain rfl := hone
    refine h.congr (fun _ _ ↦ id) hget (by simp [inHand_update]) ?_
    intro point hpoint hsaves
    refine absurd ?_ hdies
    change (s.inHand jobId).any ProcessPoint.savesEnd = true
    rw [hpoint, Option.any_some, hsaves]
  | expire => cases hone

theorem OneWorker.keepsKeys (h : s.OneWorker H jobId a) : a.keepsKeys = true := by
  cases a with
  | expire => cases h
  | _ => rfl

theorem tracked_init (H : Hashing) (jobId : String) : init.Tracked H jobId where
  engaged _ hpoint := by cases hpoint
  ended hended := absurd hended.isSome (fun h ↦ by cases h)

theorem recorded_init (jobId : String) : init.Recorded jobId where
  found hpoint := by cases hpoint
  result := by
    rintro ⟨message, hmem, -⟩
    cases hmem
  deadLetter := by
    rintro ⟨message, hmem, -⟩
    cases hmem

end System

/-- **When dead-lettering is final.** One worker, which dies and is handed events again as it may:
if it takes up no exhausted job, then a job that is exhausted stays so; and if besides it does not
die between the publication of an end and the save that records it, no job has both a result and a
dead letter. -/
theorem dead_letter_final (H : Hashing) (maxAttempts : ℤ) (jobId : String) {as bs : List Action}
    {s t : System} (hrun : System.run H maxAttempts System.init as = some s)
    (hrun' : System.run H maxAttempts s bs = some t)
    (hone : Transition.Along (System.step H maxAttempts) (System.OneWorker H jobId) System.init
      (as ++ bs))
    (hexhausted : Transition.Along (System.step H maxAttempts)
      (fun s a ↦ ¬s.TakesUpExhausted jobId a) System.init (as ++ bs)) :
    (s.cluster.Exhausted jobId → t.cluster.Exhausted jobId) ∧
    (Transition.Along (System.step H maxAttempts) (fun s a ↦ ¬s.DiesUnrecorded jobId a)
        System.init (as ++ bs) →
      ¬(t.cluster.HasEvent .result jobId ∧ t.cluster.HasEvent .dlq jobId)) := by
  have htracks : ∀ {s a s'}, s.Known H ∧ s.Tracked H jobId →
      s.OneWorker H jobId a ∧ ¬s.TakesUpExhausted jobId a →
      System.step H maxAttempts s a = some s' → s'.Known H ∧ s'.Tracked H jobId :=
    fun hs hC hstep ↦ ⟨hs.1.step hC.1.keepsKeys (System.moves_of_step hstep),
      hs.2.moves hs.1 hC.1 hC.2 (System.moves_of_step hstep)⟩
  obtain ⟨hbefore, hafter⟩ := (Transition.along_append hrun).mp (hone.and hexhausted)
  have hs := Transition.run_invariant_along htracks
    ⟨System.known_init H, System.tracked_init H jobId⟩ hbefore hrun
  constructor
  · intro h
    refine (Transition.run_invariant_along (P := fun s ↦ (s.Known H ∧ s.Tracked H jobId) ∧
      s.cluster.Exhausted jobId) (fun hs hC hstep ↦ ⟨htracks hs.1 hC hstep, ?_⟩) ⟨hs, h⟩ hafter
      hrun').2
    exact hs.2.congr
      (hs.1.2.get_eq hs.1.1 hC.1 (System.moves_of_step hstep) (.inr hs.2))
  · intro hdies
    have hrecords : ∀ {s a s'}, (s.Known H ∧ s.Tracked H jobId) ∧ s.Recorded jobId →
        (s.OneWorker H jobId a ∧ ¬s.TakesUpExhausted jobId a) ∧ ¬s.DiesUnrecorded jobId a →
        System.step H maxAttempts s a = some s' →
        (s'.Known H ∧ s'.Tracked H jobId) ∧ s'.Recorded jobId :=
      fun hs hC hstep ↦ ⟨htracks hs.1 hC.1 hstep, hs.2.step hs.1.1 hs.1.2 hC.1.1 hC.2 hstep⟩
    obtain ⟨hbefore', hafter'⟩ := (Transition.along_append hrun).mp
      ((hone.and hexhausted).and hdies)
    obtain ⟨⟨-, htracked⟩, hrecorded⟩ := Transition.run_invariant_along hrecords
      (Transition.run_invariant_along hrecords ⟨⟨System.known_init H, System.tracked_init H jobId⟩,
        System.recorded_init jobId⟩ hbefore' hrun) hafter' hrun'
    rintro ⟨hresult, hdead⟩
    rcases hrecorded.result hresult with hstate | ⟨record, hpoint⟩
    · rcases hrecorded.deadLetter hdead with h | ⟨record, hpoint⟩
      · exact hstate.not_exhausted h
      · exact (htracked.engaged _ hpoint rfl).2.not_ended (by decide) (by decide) (.inl hstate)
    · refine (hrecorded.not_hasEvent htracked hpoint rfl).2 (fun record' hpoint' ↦ ?_) hdead
      cases hpoint'

/-! ## Runs

With one attempt for each job, a worker whose engine raises exhausts the sample job at once. -/

namespace System

/-- While a worker works on its own, nobody else reaches for a job that nobody holds. -/
theorem along_oneWorker {H : Hashing} {maxAttempts : ℤ} {jobId : String} {as : List Action} :
    ∀ {s : System}, (∀ a ∈ as, isWork a = true) → ¬s.Held H jobId →
      Transition.Along (step H maxAttempts) (OneWorker H jobId) s as := by
  induction as with
  | nil => exact fun _ _ ↦ trivial
  | cons a as ih =>
    intro s hwork hfree
    have ha := hwork a List.mem_cons_self
    refine ⟨?_, fun s' hstep ↦ ih (fun b hb ↦ hwork b (List.mem_cons_of_mem a hb)) ?_⟩
    · cases a with
      | poll worker | commit worker | workerCrash worker =>
        exact of_decide_eq_true (p := worker = 0) ha
      | processStep worker => exact ⟨of_decide_eq_true (p := worker = 0) ha, fun _ ↦ hfree⟩
      | submit | submitStep | submitCrash | expire => cases ha
    · cases moves_of_step hstep with
      | poll | processStep | commit | workerCrash => exact hfree
      | submit | submitStep | submitCrash | expire => cases ha

/-- `process` from the poll of the first event to the publication of the dead letter. -/
def sampleFailing : List Action :=
  .poll 0 0 :: List.replicate 4 (sampleProcess 0 none)

/-- The worker dies, and the engine succeeds when the event is delivered again. -/
def sampleRedelivery : List Action := .workerCrash 0 :: sampleProcessing 0

/-- The failure of the sample job is recorded by one worker, after the submission is over. -/
theorem oneWorker_sample : Transition.Along (step Hashing.sample 1)
    (OneWorker Hashing.sample sampleJobId) init
    (sampleSubmission ++ (sampleFailing ++ [sampleProcess 0, .commit 0])) := by
  obtain ⟨s, hrun, hidle⟩ := (Option.any_eq_true _ _).mp
    (show (run Hashing.sample 1 init sampleSubmission).any
      (fun s ↦ (s.submits 0).all fun call ↦ !call.point.holds) = true by decide)
  have hothers := (others_of_run
    (show ∀ a ∈ sampleSubmission, among 1 1 a = true by decide) hrun).1
  refine (Transition.along_append hrun).mpr ⟨?_, along_oneWorker (by decide) ?_⟩
  · exact Transition.along_of_forall (C := OneWorker Hashing.sample sampleJobId)
      (D := fun a ↦ a.isSubmission = true) (fun {s a} ha ↦ by
        cases a with
        | submit | submitStep | submitCrash => trivial
        | _ => cases ha) init (by decide)
  · rintro ⟨client, call, hcall, -, hholds⟩
    match client with
    | 0 =>
      rw [hcall, Option.all_some, hholds] at hidle
      cases hidle
    | client + 1 =>
      rw [hothers (client + 1) (Nat.le_add_left 1 client)] at hcall
      cases hcall

end System

/-- The worker records the failure of the sample job and commits; the job stays exhausted and has
no result. -/
theorem dead_letter_final_sample : ∃ s t,
    System.run Hashing.sample 1 System.init
      (System.sampleSubmission ++ (System.sampleFailing ++ [System.sampleProcess 0])) = some s ∧
    System.run Hashing.sample 1 s [.commit 0] = some t ∧
    t.cluster.Exhausted System.sampleJobId ∧
    ¬(t.cluster.HasEvent .result System.sampleJobId ∧
      t.cluster.HasEvent .dlq System.sampleJobId) := by
  obtain ⟨s, hrun, hs⟩ := (Option.any_eq_true _ _).mp
    (show (System.run Hashing.sample 1 System.init
      (System.sampleSubmission ++ (System.sampleFailing ++ [System.sampleProcess 0]))).any
        (fun s ↦ (System.run Hashing.sample 1 s [.commit 0]).isSome &&
          decide (s.cluster.Exhausted System.sampleJobId)) = true by decide)
  obtain ⟨hnext, hexhausted⟩ := Bool.and_eq_true_iff.mp hs
  obtain ⟨t, hrun'⟩ := Option.isSome_iff_exists.mp hnext
  obtain ⟨hstays, honly⟩ := dead_letter_final Hashing.sample 1 System.sampleJobId hrun hrun'
    System.oneWorker_sample (by decide)
  exact ⟨s, t, hrun, hrun', hstays (of_decide_eq_true hexhausted), honly (by decide)⟩

/-- **Dead-lettering is not final.** One worker, and every publication is acknowledged. It dies
after it has recorded the failure and before the commit; the event is delivered again, and the job
is no longer exhausted and gets a result. Or it dies between the dead letter and its record, and the
job gets a result as well. -/
theorem dead_letter_not_final : ∃ s t u,
    (∀ a ∈ System.sampleSubmission ++ (System.sampleFailing ++ [System.sampleProcess 0]) ++
      System.sampleRedelivery, System.among 1 1 a = true ∧ a.keepsKeys = true) ∧
    System.run Hashing.sample 1 System.init
      (System.sampleSubmission ++ (System.sampleFailing ++ [System.sampleProcess 0])) = some s ∧
    s.cluster.Exhausted System.sampleJobId ∧
    System.run Hashing.sample 1 s System.sampleRedelivery = some t ∧
    ¬t.cluster.Exhausted System.sampleJobId ∧
    t.cluster.HasEvent .result System.sampleJobId ∧ t.cluster.HasEvent .dlq System.sampleJobId ∧
    System.run Hashing.sample 1 System.init
      (System.sampleSubmission ++ System.sampleFailing ++ System.sampleRedelivery) = some u ∧
    u.cluster.HasEvent .result System.sampleJobId ∧
    u.cluster.HasEvent .dlq System.sampleJobId := by
  obtain ⟨s, hrun, hs⟩ := (Option.any_eq_true _ _).mp
    (show (System.run Hashing.sample 1 System.init
      (System.sampleSubmission ++ (System.sampleFailing ++ [System.sampleProcess 0]))).any
        (fun s ↦ decide (s.cluster.Exhausted System.sampleJobId) &&
          (System.run Hashing.sample 1 s System.sampleRedelivery).any fun t ↦
            decide (¬t.cluster.Exhausted System.sampleJobId ∧
              t.cluster.HasEvent .result System.sampleJobId ∧
              t.cluster.HasEvent .dlq System.sampleJobId)) = true by decide)
  obtain ⟨hexhausted, hnext⟩ := Bool.and_eq_true_iff.mp hs
  obtain ⟨t, hrun', ht⟩ := (Option.any_eq_true _ _).mp hnext
  obtain ⟨hnot, hresult, hdead⟩ := of_decide_eq_true ht
  obtain ⟨u, hrun'', hu⟩ := (Option.any_eq_true _ _).mp
    (show (System.run Hashing.sample 1 System.init
      (System.sampleSubmission ++ System.sampleFailing ++ System.sampleRedelivery)).any
        (fun u ↦ decide (u.cluster.HasEvent .result System.sampleJobId ∧
          u.cluster.HasEvent .dlq System.sampleJobId)) = true by decide)
  obtain ⟨hresult', hdead'⟩ := of_decide_eq_true hu
  exact ⟨s, t, u, by decide, hrun, of_decide_eq_true hexhausted, hrun', hnot, hresult, hdead,
    hrun'', hresult', hdead'⟩

end Sentinel
