import Sentinel.Distributed.Consistency

/-!
# When a finished job stays finished

Both methods read a record, do other things, and then save a copy of what they have read. A save
does not look at what it overwrites, so a job that has been finished in between is un-finished by
it. The sample run at the end does this with one worker and without any redelivery: a replayed
submission publishes its event first and saves `accepted` afterwards, and the worker is faster.

What is dangerous is exactly a copy in hand. A call *endangers* a finished job when it stands
between a read of the record and the save that follows, and the job is *settled* when nobody
endangers it. A settled job stays settled, because whoever reads it from now on finds it finished
and leaves it alone; and a job that is not settled can be un-finished by letting the call that
endangers it run on. So the two are equivalent, and the runs in which success is only ever stored
for settled jobs are those in which finished jobs stay finished.
-/

namespace Sentinel

/-- The stored record of the job has the state `succeeded` with this result. -/
def Cluster.Finished (c : Cluster) (jobId : String) (result : ModerationResponse) : Prop :=
  ∃ record, c.store.get jobId = some record ∧ record.job.state = .succeeded ∧
    record.job.result = some result

/-- The call holds a copy of the record of the job, and a save of the copy may follow. -/
def SubmitPoint.Endangers (jobId : String) : SubmitPoint → Prop
  | .publish record _ | .saveFailed record _ | .saveAccepted record => record.job.jobId = jobId
  | .create _ | .get | .returned _ | .raised _ | .crashed => False

/-- The worker holds a copy of the record of the job, and the save of a record without this result
may follow. -/
def ProcessPoint.Endangers (jobId : String) (result : ModerationResponse) : ProcessPoint → Prop
  | .saveProcessing record | .moderate record | .publishRetry record _ | .saveRetrying record
  | .publishExhausted record | .saveFailed record => record.job.jobId = jobId
  | .publishResult record result' => record.job.jobId = jobId ∧ result' ≠ result
  | .saveSucceeded record => record.job.jobId = jobId ∧ record.job.result ≠ some result
  | .get | .publishMissing | .returned => False

/-- The record that is saved next, if it says that the job has succeeded. -/
def ProcessPoint.success : ProcessPoint → Option StoredModerationJob
  | .saveSucceeded record => some record
  | _ => none

theorem ProcessPoint.success_eq_some {point : ProcessPoint} {record : StoredModerationJob} :
    point.success = some record ↔ point = .saveSucceeded record := by
  cases point <;> simp [success]

/-- Nobody endangers the job. -/
structure System.Settled (s : System) (jobId : String) (result : ModerationResponse) : Prop where
  submits : ∀ {client call}, s.submits client = some call → ¬call.point.Endangers jobId
  workers : ∀ {worker delivery}, s.workers worker = some delivery →
    ¬delivery.point.Endangers jobId result

namespace Cluster.Finished

variable {c c' : Cluster} {jobId : String} {result : ModerationResponse}
  {record : StoredModerationJob}

theorem congr (h : c.Finished jobId result) (hstore : c'.store = c.store) :
    c'.Finished jobId result := by
  obtain ⟨record, hget, hrecord⟩ := h
  exact ⟨record, hstore ▸ hget, hrecord⟩

theorem isSome (h : c.Finished jobId result) : (c.store.get jobId).isSome := by
  obtain ⟨record, hget, hrecord⟩ := h
  rw [hget, Option.isSome_some]

theorem save_of_ne (h : c.Finished jobId result) (hne : record.job.jobId ≠ jobId) :
    (c.save record).Finished jobId result := by
  obtain ⟨record', hget, hrecord'⟩ := h
  refine ⟨record', ?_, hrecord'⟩
  rw [Cluster.save, RedisJobStore.get_save_of_ne hne.symm]
  exact hget

theorem save (h : c.Finished jobId result) (hid : record.job.jobId = jobId)
    (hstate : record.job.state = .succeeded) (hresult : record.job.result = some result) :
    (c.save record).Finished jobId result := by
  refine ⟨record, ?_, hstate, hresult⟩
  rw [Cluster.save, RedisJobStore.get_save, if_pos ⟨hid.symm, h.isSome⟩]

theorem state_eq (h : c.Finished jobId result) (hget : c.store.get jobId = some record) :
    record.job.state = .succeeded := by
  obtain ⟨record', hget', hstate, hresult⟩ := h
  have heq : record = record' := Option.some_inj.mp (hget.symm.trans hget')
  exact heq ▸ hstate

end Cluster.Finished

theorem Cluster.not_finished_save {c : Cluster} {jobId : String} {result : ModerationResponse}
    {record : StoredModerationJob} (hid : record.job.jobId = jobId)
    (hrecord : ¬(record.job.state = .succeeded ∧ record.job.result = some result)) :
    ¬(c.save record).Finished jobId result := by
  rintro ⟨record', hget, hrecord'⟩
  rw [Cluster.save, RedisJobStore.get_save] at hget
  by_cases hsome : (c.store.get jobId).isSome
  · rw [if_pos ⟨hid.symm, hsome⟩] at hget
    exact hrecord (Option.some_inj.mp hget ▸ hrecord')
  · rw [if_neg fun hc ↦ hsome hc.2] at hget
    exact hsome (by rw [hget, Option.isSome_some])

/-! ## A settled job stays settled -/

theorem SubmitCall.Moves.settled {H : Hashing} {c c' : Cluster} {call : SubmitCall}
    {point : SubmitPoint} {jobId : String} {result : ModerationResponse}
    (hstore : StoreBacked c) (hfinished : c.Finished jobId result)
    (hsafe : ¬call.point.Endangers jobId) (hmoves : call.Moves H c c' point) :
    c'.Finished jobId result ∧ ¬point.Endangers jobId := by
  cases hmoves with
  | created storedJob hpoint hfree =>
    -- the key was free, so this is another job
    have hne : jobId ≠ storedJob.job.jobId := by
      rintro rfl
      have hsome := hfinished.isSome
      rw [hfree] at hsome
      cases hsome
    refine ⟨?_, fun hid ↦ hne hid.symm⟩
    obtain ⟨record, hget, hrecord⟩ := hfinished
    refine ⟨record, ?_, hrecord⟩
    rw [RedisJobStore.get_set, if_neg hne]
    exact hget
  | taken | disappeared | conflict | existing => exact ⟨hfinished, id⟩
  | replay existing hpoint hget heq hfailed =>
    refine ⟨hfinished, fun hid ↦ ?_⟩
    have hown : existing.job.jobId = call.jobId H := (hstore _ _ hget).jobId_eq
    have hstate : existing.job.state = .succeeded :=
      hfinished.state_eq (hid ▸ hown ▸ hget)
    rw [hfailed.1] at hstate
    cases hstate
  | published => exact ⟨hfinished.congr rfl, id⟩
  | republished storedJob now hpoint =>
    rw [hpoint] at hsafe
    exact ⟨hfinished.congr rfl, hsafe⟩
  | unpublished storedJob replay now c' hpoint hc' =>
    rw [hpoint] at hsafe
    have hsame : c'.store = c.store := by rcases hc' with rfl | rfl <;> rfl
    exact ⟨hfinished.congr hsame, hsafe⟩
  | failed record replay hpoint =>
    rw [hpoint] at hsafe
    exact ⟨hfinished.save_of_ne hsafe, id⟩
  | accepted record hpoint =>
    rw [hpoint] at hsafe
    exact ⟨hfinished.save_of_ne hsafe, id⟩

theorem Delivery.Moves.settled {maxAttempts : ℤ} {c c' : Cluster} {delivery : Delivery}
    {point : Option ProcessPoint} {jobId : String} {result : ModerationResponse}
    (hstore : StoreBacked c) (hfinished : c.Finished jobId result)
    (hdelivery : DeliveryBacked c delivery) (hsafe : ¬delivery.point.Endangers jobId result)
    (hmoves : delivery.Moves maxAttempts c c' point) :
    c'.Finished jobId result ∧ ∀ next ∈ point, ¬next.Endangers jobId result := by
  cases hmoves with
  | missing | duplicate | publishedMissing =>
    refine ⟨hfinished.congr rfl, ?_⟩
    rintro _ ⟨⟩
    exact id
  | taken storedJob now hpoint hget hstate =>
    refine ⟨hfinished, ?_⟩
    rintro _ ⟨⟩ hid
    have hown : storedJob.job.jobId = delivery.event.jobId := (hstore _ _ hget).jobId_eq
    exact hstate (hfinished.state_eq (hid ▸ hown ▸ hget))
  | processing record hpoint =>
    rw [hpoint] at hsafe
    refine ⟨hfinished.save_of_ne hsafe, ?_⟩
    rintro _ ⟨⟩
    exact hsafe
  | moderated record result' hpoint =>
    rw [hpoint] at hsafe
    refine ⟨hfinished.congr rfl, ?_⟩
    rintro _ ⟨⟩
    exact fun hboth ↦ hsafe hboth.1
  | failedRetry record hpoint | failedLast record hpoint =>
    rw [hpoint] at hsafe
    refine ⟨hfinished.congr rfl, ?_⟩
    rintro _ ⟨⟩
    exact hsafe
  | publishedResult record result' now hpoint =>
    rw [hpoint] at hsafe
    refine ⟨hfinished.congr rfl, ?_⟩
    rintro _ ⟨⟩
    exact fun hboth ↦ hsafe ⟨hboth.1, fun heq ↦ hboth.2 (congrArg some heq)⟩
  | publishedRetry record retryEvent now hpoint =>
    rw [hpoint] at hsafe
    refine ⟨hfinished.congr rfl, ?_⟩
    rintro _ ⟨⟩
    exact hsafe
  | publishedExhausted record now hpoint =>
    rw [hpoint] at hsafe
    refine ⟨hfinished.congr rfl, ?_⟩
    rintro _ ⟨⟩
    exact hsafe
  | unpublished topic payload c' hpublication hc' =>
    have hsame : c'.store = c.store := by rcases hc' with rfl | rfl <;> rfl
    exact ⟨hfinished.congr hsame, by rintro _ ⟨⟩⟩
  | succeeded record hpoint =>
    rw [hpoint] at hsafe
    rw [DeliveryBacked, hpoint] at hdelivery
    refine ⟨?_, by rintro _ ⟨⟩; exact id⟩
    by_cases hid : record.job.jobId = jobId
    · have hresult : record.job.result = some result := by
        by_contra hne
        exact hsafe ⟨hid, hne⟩
      exact hfinished.save hid hdelivery.2 hresult
    · exact hfinished.save_of_ne hid
  | retrying record hpoint | failed record hpoint =>
    rw [hpoint] at hsafe
    exact ⟨hfinished.save_of_ne hsafe, by rintro _ ⟨⟩; exact id⟩

/-- A finished and settled job, together with what the argument needs of the rest. -/
theorem isInductive_settled (H : Hashing) (maxAttempts : ℤ) (jobId : String)
    (result : ModerationResponse) :
    System.IsInductive H maxAttempts (fun a ↦ a.keepsKeys = true)
      (fun c ↦ StoreBacked c ∧ c.Finished jobId result)
      (fun c call ↦ SubmitBacked H c call ∧ ¬call.point.Endangers jobId)
      (fun c delivery ↦ DeliveryBacked c delivery ∧ ¬delivery.point.Endangers jobId result) where
  submit_mono hgrows h := ⟨h.1.mono hgrows, h.2⟩
  delivery_mono hgrows h := ⟨h.1.mono hgrows, h.2⟩
  submit _ _ now _ := ⟨⟨now, rfl⟩, id⟩
  submitStep h hcall hmoves := by
    obtain ⟨hstore, hbacked⟩ := hcall.1.moves h.1 hmoves
    obtain ⟨hfinished, hsafe⟩ := hmoves.settled h.1 h.2 hcall.2
    exact ⟨⟨hstore, hfinished⟩, hbacked, hsafe⟩
  submitCrash _ := ⟨trivial, id⟩
  poll _ _ := ⟨trivial, id⟩
  processStep h hdelivery hmoves := by
    obtain ⟨hstore, hbacked⟩ := hdelivery.1.moves h.1 hmoves
    obtain ⟨hfinished, hsafe⟩ := hmoves.settled h.1 h.2 hdelivery.1 hdelivery.2
    exact ⟨⟨hstore, hfinished⟩, fun next hnext ↦ ⟨hbacked next hnext, hsafe next hnext⟩⟩
  commit h _ _ := ⟨h.1.congr (Cluster.grows_commit _ _) rfl, h.2.congr rfl⟩
  expire _ hkeeps _ := by cases hkeeps

/-- Success is stored only for settled jobs. The condition concerns the steps at
`self._store.save(succeeded)`, and reads the state before such a step. -/
def System.FinishesSettled (s : System) : Action → Prop
  | .processStep worker _ _ _ => ∀ delivery ∈ s.workers worker, ∀ record ∈ delivery.point.success,
      ∀ result ∈ record.job.result, s.Settled record.job.jobId result
  | _ => True

def System.storesNoSuccess (s : System) : Action → Bool
  | .processStep worker _ _ _ => ((s.workers worker).bind fun d ↦ d.point.success).isNone
  | _ => true

namespace System

variable {H : Hashing} {maxAttempts : ℤ} {s s' t : System} {a : Action} {jobId : String}
  {result : ModerationResponse}

theorem FinishesSettled.of_storesNoSuccess (h : s.storesNoSuccess a = true) :
    s.FinishesSettled a := by
  cases a with
  | processStep worker now outcome reply =>
    intro delivery hdelivery record hrecord
    have hnone : (s.workers worker).bind (fun d ↦ d.point.success) = none :=
      Option.isNone_iff_eq_none.mp h
    rw [hdelivery, Option.bind_some, hrecord] at hnone
    cases hnone
  | _ => trivial

theorem Moves.settled (hsound : s.Sound H) (hfinished : s.cluster.Finished jobId result)
    (hsettled : s.Settled jobId result) (hkeeps : a.keepsKeys = true)
    (hmoves : s.Moves H maxAttempts a s') :
    s'.cluster.Finished jobId result ∧ s'.Settled jobId result := by
  have hs : s.Holds (fun c ↦ StoreBacked c ∧ c.Finished jobId result)
      (fun c call ↦ SubmitBacked H c call ∧ ¬call.point.Endangers jobId)
      (fun c delivery ↦ DeliveryBacked c delivery ∧ ¬delivery.point.Endangers jobId result) :=
    ⟨⟨hsound.cluster, hfinished⟩,
      fun hcall ↦ ⟨hsound.submits hcall, hsettled.submits hcall⟩,
      fun hdelivery ↦ ⟨hsound.workers hdelivery, hsettled.workers hdelivery⟩⟩
  have hs' := (isInductive_settled H maxAttempts jobId result).moves hs hkeeps hmoves
  exact ⟨hs'.cluster.2, fun hcall ↦ (hs'.submits hcall).2,
    fun hdelivery ↦ (hs'.workers hdelivery).2⟩

theorem Settled.run {as : List Action} (hsettled : s.Settled jobId result) (hsound : s.Sound H)
    (hfinished : s.cluster.Finished jobId result) (hkeeps : ∀ a ∈ as, a.keepsKeys = true)
    (hrun : run H maxAttempts s as = some t) : t.cluster.Finished jobId result :=
  ((isInductive_settled H maxAttempts jobId result).run
    ⟨⟨hsound.cluster, hfinished⟩,
      fun hcall ↦ ⟨hsound.submits hcall, hsettled.submits hcall⟩,
      fun hdelivery ↦ ⟨hsound.workers hdelivery, hsettled.workers hdelivery⟩⟩
    hkeeps hrun).cluster.2

end System

/-! ## How a job gets finished

Of all steps only the save of the `succeeded` copy makes a job finished. -/

theorem Cluster.finished_of_save {c : Cluster} {jobId : String} {result : ModerationResponse}
    {record : StoredModerationJob} (h : (c.save record).Finished jobId result) :
    c.Finished jobId result ∨
      (record.job.jobId = jobId ∧ record.job.state = .succeeded ∧
        record.job.result = some result) := by
  obtain ⟨record', hget, hrecord⟩ := h
  rcases RedisJobStore.get_save_eq_some hget with ⟨hid, rfl⟩ | hget'
  · exact Or.inr ⟨hid.symm, hrecord⟩
  · exact Or.inl ⟨record', hget', hrecord⟩

theorem SubmitCall.Moves.finished_of {H : Hashing} {c c' : Cluster} {call : SubmitCall}
    {point : SubmitPoint} {jobId : String} {result : ModerationResponse}
    (hcall : SubmitBacked H c call) (hmoves : call.Moves H c c' point)
    (h : c'.Finished jobId result) : c.Finished jobId result := by
  cases hmoves with
  | created storedJob hpoint hfree =>
    rw [SubmitBacked, hpoint] at hcall
    obtain ⟨now, rfl⟩ := hcall
    obtain ⟨record, hget, hstate, hresult⟩ := h
    rw [RedisJobStore.get_set] at hget
    split_ifs at hget
    · cases hget
      cases hstate
    · exact ⟨record, hget, hstate, hresult⟩
  | taken | disappeared | conflict | replay | existing => exact h
  | published | republished => exact h.congr rfl
  | unpublished storedJob replay now c' hpoint hc' =>
    have hsame : c.store = c'.store := by rcases hc' with rfl | rfl <;> rfl
    exact h.congr hsame
  | failed record replay hpoint =>
    rw [SubmitBacked, hpoint] at hcall
    exact (Cluster.finished_of_save h).resolve_right fun hrecord ↦ hcall.2 hrecord.2.1
  | accepted record hpoint =>
    rw [SubmitBacked, hpoint] at hcall
    exact (Cluster.finished_of_save h).resolve_right fun hrecord ↦ hcall.2 hrecord.2.1

/-- A worker finishes a job only at `self._store.save(succeeded)`. -/
theorem Delivery.Moves.finished_of {maxAttempts : ℤ} {c c' : Cluster} {delivery : Delivery}
    {point : Option ProcessPoint} {jobId : String} {result : ModerationResponse}
    (hdelivery : DeliveryBacked c delivery) (hmoves : delivery.Moves maxAttempts c c' point)
    (h : c'.Finished jobId result) :
    c.Finished jobId result ∨
      (point = some .returned ∧ ∃ record, delivery.point = .saveSucceeded record ∧
        record.job.jobId = jobId ∧ record.job.result = some result) := by
  cases hmoves with
  | missing | duplicate | taken => exact Or.inl h
  | moderated | failedRetry | failedLast | publishedMissing | publishedResult | publishedRetry
  | publishedExhausted => exact Or.inl (h.congr rfl)
  | unpublished topic payload c' hpublication hc' =>
    have hsame : c.store = c'.store := by rcases hc' with rfl | rfl <;> rfl
    exact Or.inl (h.congr hsame)
  | succeeded record hpoint =>
    rcases Cluster.finished_of_save h with h | ⟨hid, hstate, hresult⟩
    · exact Or.inl h
    · exact Or.inr ⟨rfl, record, hpoint, hid, hresult⟩
  | processing record hpoint | retrying record hpoint | failed record hpoint =>
    rw [DeliveryBacked, hpoint] at hdelivery
    exact Or.inl
      ((Cluster.finished_of_save h).resolve_right fun hrecord ↦ hdelivery.2 hrecord.2.1)

namespace System

variable {H : Hashing} {maxAttempts : ℤ} {s s' t : System} {a : Action} {jobId : String}
  {result : ModerationResponse}

/-- **A step that stores success only for a settled job** leaves every finished job settled. -/
theorem Moves.settled_of_finished (hsound : s.Sound H)
    (hsettled : ∀ jobId result, s.cluster.Finished jobId result → s.Settled jobId result)
    (hkeeps : a.keepsKeys = true) (hcond : s.FinishesSettled a)
    (hmoves : s.Moves H maxAttempts a s') (h : s'.cluster.Finished jobId result) :
    s'.Settled jobId result := by
  by_cases hbefore : s.cluster.Finished jobId result
  · exact (hmoves.settled hsound hbefore (hsettled jobId result hbefore) hkeeps).2
  cases hmoves with
  | submit | submitCrash | poll | workerCrash | commit => exact absurd (h.congr rfl) hbefore
  | expire => cases hkeeps
  | submitStep client now outcome call cluster point hcall hmoves =>
    exact absurd (hmoves.finished_of (hsound.submits hcall) h) hbefore
  | processStep worker now outcome reply delivery cluster point hdelivery hmoves =>
    rcases hmoves.finished_of (hsound.workers hdelivery) h with
      hbefore' | ⟨rfl, record, hpoint, rfl, hresult⟩
    · exact absurd hbefore' hbefore
    have hnow : s.Settled record.job.jobId result :=
      hcond delivery hdelivery record (ProcessPoint.success_eq_some.mpr hpoint) result hresult
    refine ⟨hnow.submits, fun {worker'} {delivery'} hdelivery' ↦ ?_⟩
    simp only [Function.update_apply] at hdelivery'
    split_ifs at hdelivery'
    · cases hdelivery'
      exact id
    · exact hnow.workers hdelivery'

/-! ## A job that is not settled can be un-finished -/

/-- Some run from here leaves the job without the result, although no key expires. -/
def CanUnfinish (H : Hashing) (maxAttempts : ℤ) (s : System) (jobId : String)
    (result : ModerationResponse) : Prop :=
  ∃ as t, (∀ a ∈ as, a.keepsKeys = true) ∧ run H maxAttempts s as = some t ∧
    ¬t.cluster.Finished jobId result

theorem CanUnfinish.of_not_finished (h : ¬s.cluster.Finished jobId result) :
    CanUnfinish H maxAttempts s jobId result :=
  ⟨[], s, fun _ hmem ↦ (by cases hmem), rfl, h⟩

theorem CanUnfinish.of_step (hkeeps : a.keepsKeys = true) (hstep : step H maxAttempts s a = some s')
    (h : CanUnfinish H maxAttempts s' jobId result) : CanUnfinish H maxAttempts s jobId result := by
  obtain ⟨as, t, has, hrun, hnot⟩ := h
  refine ⟨a :: as, t, ?_, Transition.run_cons_eq_some.mpr ⟨s', hstep, hrun⟩, hnot⟩
  intro b hb
  rcases List.mem_cons.mp hb with rfl | hb
  · exact hkeeps
  · exact has b hb

theorem step_submitStep {client : ℕ} {call : SubmitCall} {now : DateTime}
    {outcome : PublishOutcome} {c' : Cluster} {point : SubmitPoint}
    (hcall : s.submits client = some call)
    (hstep : call.step H now outcome s.cluster = some (c', point)) :
    step H maxAttempts s (.submitStep client now outcome) = some
      { s with
        cluster := c'
        submits := Function.update s.submits client (some { call with point := point }) } := by
  simp only [step, hcall, hstep, Option.map_some]

theorem step_processStep {worker : ℕ} {delivery : Delivery} {now : DateTime}
    {outcome : PublishOutcome} {reply : Option ModerationResponse} {c' : Cluster}
    {point : Option ProcessPoint} (hdelivery : s.workers worker = some delivery)
    (hstep : delivery.step maxAttempts now outcome reply s.cluster = some (c', point)) :
    step H maxAttempts s (.processStep worker now outcome reply) = some
      { s with
        cluster := c'
        workers := Function.update s.workers worker
          (point.map fun point ↦ { delivery with point := point }) } := by
  simp only [step, hdelivery, hstep, Option.map_some]

/-- The endangering call runs on, its publication failing. -/
theorem canUnfinish_of_submit (hsound : s.Sound H) {client : ℕ} {call : SubmitCall}
    (hcall : s.submits client = some call) (hdanger : call.point.Endangers jobId) :
    CanUnfinish H maxAttempts s jobId result := by
  -- a save comes next, of a record that is not `succeeded`
  have hsave : ∀ (s : System) (call : SubmitCall) (record : StoredModerationJob)
      (point : SubmitPoint), s.submits client = some call → record.job.jobId = jobId →
      record.job.state ≠ .succeeded →
      call.step H record.job.updatedAt .lost s.cluster = some (s.cluster.save record, point) →
      CanUnfinish H maxAttempts s jobId result := by
    intro s call record point hcall hid hstate hstep
    refine .of_step rfl (step_submitStep hcall hstep) (.of_not_finished ?_)
    exact Cluster.not_finished_save hid fun hboth ↦ hstate hboth.1
  have hbacked := hsound.submits hcall
  cases hpoint : call.point with
  | create | get | returned | raised | crashed => rw [hpoint] at hdanger; exact hdanger.elim
  | saveFailed record replay =>
    rw [hpoint] at hdanger
    rw [SubmitBacked, hpoint] at hbacked
    exact hsave s call record _ hcall hdanger hbacked.2 (by rw [SubmitCall.step, hpoint])
  | saveAccepted record =>
    rw [hpoint] at hdanger
    rw [SubmitBacked, hpoint] at hbacked
    exact hsave s call record _ hcall hdanger hbacked.2 (by rw [SubmitCall.step, hpoint])
  | publish record replay =>
    rw [hpoint] at hdanger
    have hstep : call.step H record.job.updatedAt .lost s.cluster
        = some (s.cluster, .saveFailed (publishFailed record record.job.updatedAt) replay) := by
      rw [SubmitCall.step, hpoint]
      rfl
    apply CanUnfinish.of_step rfl (step_submitStep hcall hstep)
    refine hsave _
      { call with point := .saveFailed (publishFailed record record.job.updatedAt) replay }
      (publishFailed record record.job.updatedAt) _ (Function.update_self ..) hdanger ?_ rfl
    intro hstate
    cases hstate

theorem canUnfinish_of_save {worker : ℕ} {delivery : Delivery} (record : StoredModerationJob)
    {point : Option ProcessPoint} (hdelivery : s.workers worker = some delivery)
    (hid : record.job.jobId = jobId)
    (hrecord : ¬(record.job.state = .succeeded ∧ record.job.result = some result))
    (hstep : delivery.step maxAttempts record.job.updatedAt .acknowledged none s.cluster
      = some (s.cluster.save record, point)) :
    CanUnfinish H maxAttempts s jobId result := by
  refine .of_step rfl (step_processStep hdelivery hstep) (.of_not_finished ?_)
  exact Cluster.not_finished_save hid hrecord

theorem canUnfinish_of_publishRetry {worker : ℕ} {delivery : Delivery}
    {record : StoredModerationJob} {retryEvent : ModerationJobEvent}
    (hdelivery : s.workers worker = some delivery)
    (hpoint : delivery.point = .publishRetry record retryEvent) (hid : record.job.jobId = jobId) :
    CanUnfinish H maxAttempts s jobId result := by
  let retrying := retryingJob record (delivery.event.attempt + 1) record.job.updatedAt
  have hstep : delivery.step maxAttempts record.job.updatedAt .acknowledged none s.cluster
      = some (s.cluster.append ⟨.retry, delivery.event.jobId, .event retryEvent, true⟩,
        some (.saveRetrying retrying)) := by
    simp only [Delivery.step, hpoint, Cluster.publish, retrying]
  apply CanUnfinish.of_step rfl (step_processStep hdelivery hstep)
  refine canUnfinish_of_save retrying (Function.update_self ..) hid ?_ rfl
  rintro ⟨hstate, hresult⟩
  cases hstate

theorem canUnfinish_of_publishExhausted {worker : ℕ} {delivery : Delivery}
    {record : StoredModerationJob} (hdelivery : s.workers worker = some delivery)
    (hpoint : delivery.point = .publishExhausted record) (hid : record.job.jobId = jobId) :
    CanUnfinish H maxAttempts s jobId result := by
  let failed := exhaustedJob record delivery.event record.job.updatedAt
  have hstep : delivery.step maxAttempts record.job.updatedAt .acknowledged none s.cluster
      = some (s.cluster.append ⟨.dlq, delivery.event.jobId,
          .deadLetter (deadLetter delivery.event "processing_attempts_exhausted"), true⟩,
        some (.saveFailed failed)) := by
    simp only [Delivery.step, hpoint, Cluster.publish, failed]
  apply CanUnfinish.of_step rfl (step_processStep hdelivery hstep)
  refine canUnfinish_of_save failed (Function.update_self ..) hid ?_ rfl
  rintro ⟨hstate, hresult⟩
  cases hstate

theorem canUnfinish_of_publishResult {worker : ℕ} {delivery : Delivery}
    {record : StoredModerationJob} {result' : ModerationResponse}
    (hdelivery : s.workers worker = some delivery)
    (hpoint : delivery.point = .publishResult record result') (hid : record.job.jobId = jobId)
    (hne : result' ≠ result) : CanUnfinish H maxAttempts s jobId result := by
  let succeeded := succeededJob record delivery.event result' record.job.updatedAt
  have hstep : delivery.step maxAttempts record.job.updatedAt .acknowledged none s.cluster
      = some (s.cluster.append ⟨.result, delivery.event.jobId, .result result', true⟩,
        some (.saveSucceeded succeeded)) := by
    simp only [Delivery.step, hpoint, Cluster.publish, succeeded]
  apply CanUnfinish.of_step rfl (step_processStep hdelivery hstep)
  refine canUnfinish_of_save succeeded (Function.update_self ..) hid ?_ rfl
  rintro ⟨hstate, hresult⟩
  exact hne (Option.some_inj.mp hresult)

theorem canUnfinish_of_moderate {worker : ℕ} {delivery : Delivery} {record : StoredModerationJob}
    (hdelivery : s.workers worker = some delivery) (hpoint : delivery.point = .moderate record)
    (hid : record.job.jobId = jobId) : CanUnfinish H maxAttempts s jobId result := by
  -- the engine raises, and one of the two failure branches is taken
  have hstep : delivery.step maxAttempts record.job.updatedAt .acknowledged none s.cluster
      = some (s.cluster.moderated ⟨delivery.event, none⟩,
        some (delivery.handleFailure maxAttempts record)) := by
    simp only [Delivery.step, hpoint, Delivery.afterModerate]
  apply CanUnfinish.of_step rfl (step_processStep hdelivery hstep)
  by_cases hleft : ((delivery.event.attempt + 1 : ℕ) : ℤ) < maxAttempts
  · have hnext : delivery.handleFailure maxAttempts record = .publishRetry record
        { delivery.event with attempt := delivery.event.attempt + 1 } := if_pos hleft
    exact canUnfinish_of_publishRetry (Function.update_self ..) hnext hid
  · have hnext : delivery.handleFailure maxAttempts record = .publishExhausted record :=
      if_neg hleft
    exact canUnfinish_of_publishExhausted (Function.update_self ..) hnext hid

/-- The endangering worker runs on, its engine raising if it is asked. -/
theorem canUnfinish_of_process (hsound : s.Sound H) {worker : ℕ} {delivery : Delivery}
    (hdelivery : s.workers worker = some delivery)
    (hdanger : delivery.point.Endangers jobId result) :
    CanUnfinish H maxAttempts s jobId result := by
  have hbacked := hsound.workers hdelivery
  rw [DeliveryBacked] at hbacked
  cases hpoint : delivery.point with
  | get | publishMissing | returned => rw [hpoint] at hdanger; exact hdanger.elim
  | saveProcessing record | saveRetrying record | saveFailed record =>
    rw [hpoint] at hdanger hbacked
    exact canUnfinish_of_save record hdelivery hdanger (fun hboth ↦ hbacked.2 hboth.1)
      (by rw [Delivery.step, hpoint])
  | saveSucceeded record =>
    rw [hpoint] at hdanger
    exact canUnfinish_of_save record hdelivery hdanger.1 (fun hboth ↦ hdanger.2 hboth.2)
      (by rw [Delivery.step, hpoint])
  | moderate record =>
    rw [hpoint] at hdanger
    exact canUnfinish_of_moderate hdelivery hpoint hdanger
  | publishResult record result' =>
    rw [hpoint] at hdanger
    exact canUnfinish_of_publishResult hdelivery hpoint hdanger.1 hdanger.2
  | publishRetry record retryEvent =>
    rw [hpoint] at hdanger
    exact canUnfinish_of_publishRetry hdelivery hpoint hdanger
  | publishExhausted record =>
    rw [hpoint] at hdanger
    exact canUnfinish_of_publishExhausted hdelivery hpoint hdanger

theorem settled_of_not_canUnfinish (hsound : s.Sound H)
    (h : ¬CanUnfinish H maxAttempts s jobId result) : s.Settled jobId result :=
  ⟨fun hcall hdanger ↦ h (canUnfinish_of_submit hsound hcall hdanger),
    fun hdelivery hdanger ↦ h (canUnfinish_of_process hsound hdelivery hdanger)⟩

/-! ## The runs that keep finished jobs finished -/

/-- In the runs that store success only for settled jobs, every finished job is settled. -/
theorem settled_of_along {as : List Action} (hrun : run H maxAttempts init as = some s)
    (hkeeps : ∀ a ∈ as, a.keepsKeys = true)
    (hcond : Transition.Along (step H maxAttempts) FinishesSettled init as) :
    ∀ jobId result, s.cluster.Finished jobId result → s.Settled jobId result := by
  have hboth : Transition.Along (step H maxAttempts)
      (fun s a ↦ a.keepsKeys = true ∧ s.FinishesSettled a) init as :=
    (Transition.along_of_forall id init hkeeps).and hcond
  have hinit : ∀ jobId result, init.cluster.Finished jobId result → init.Settled jobId result := by
    rintro jobId result ⟨record, hget, hrecord⟩
    cases hget
  have hempty : run H maxAttempts init [] = some init := rfl
  refine (Transition.run_invariant_along (P := fun s ↦ s.Sound H ∧ ∀ jobId result,
    s.cluster.Finished jobId result → s.Settled jobId result) ?_
    ⟨holds_backed hempty, hinit⟩ hboth hrun).2
  intro s a s' hs hC hstep
  have hmoves := moves_of_step hstep
  refine ⟨hs.1.step hstep, fun jobId result h ↦ ?_⟩
  exact hmoves.settled_of_finished hs.1 hs.2 hC.1 hC.2 h

end System

/-- **When a finished job stays finished.** If no step of a run stores success for a job that
someone endangers, whatever job the run finishes stays finished, in this run and in every
continuation. In any state of any run, a finished job stays finished in every continuation exactly
if nobody endangers it. -/
theorem finished_job_stays_finished (H : Hashing) (maxAttempts : ℤ) :
    (∀ as s, System.run H maxAttempts System.init as = some s →
      (∀ a ∈ as, a.keepsKeys = true) →
      Transition.Along (System.step H maxAttempts) System.FinishesSettled System.init as →
      ∀ jobId result, s.cluster.Finished jobId result →
        ∀ bs t, System.run H maxAttempts s bs = some t → (∀ b ∈ bs, b.keepsKeys = true) →
          t.cluster.Finished jobId result) ∧
    (∀ as s, System.run H maxAttempts System.init as = some s →
      ∀ jobId result, s.cluster.Finished jobId result →
        ((∀ bs t, System.run H maxAttempts s bs = some t → (∀ b ∈ bs, b.keepsKeys = true) →
          t.cluster.Finished jobId result) ↔ s.Settled jobId result)) := by
  have hkept : ∀ {as s}, System.run H maxAttempts System.init as = some s →
      ∀ {jobId result}, s.cluster.Finished jobId result → s.Settled jobId result →
        ∀ bs t, System.run H maxAttempts s bs = some t → (∀ b ∈ bs, b.keepsKeys = true) →
          t.cluster.Finished jobId result := by
    intro as s hrun jobId result hfinished hsettled bs t hrun' hkeeps
    exact hsettled.run (holds_backed hrun) hfinished hkeeps hrun'
  constructor
  · intro as s hrun hkeeps hcond jobId result hfinished
    exact hkept hrun hfinished (System.settled_of_along hrun hkeeps hcond jobId result hfinished)
  · intro as s hrun jobId result hfinished
    refine ⟨fun h ↦ ?_, hkept hrun hfinished⟩
    have hnever : ¬System.CanUnfinish H maxAttempts s jobId result := by
      rintro ⟨bs, t, hkeeps, hrun', hnot⟩
      exact hnot (h bs t hrun' hkeeps)
    exact System.settled_of_not_canUnfinish (holds_backed hrun) hnever

/-- The worker of the sample run is alone when it stores success. -/
theorem System.finishesSettled_sample : Transition.Along (System.step Hashing.sample 3)
    System.FinishesSettled System.init (System.sampleSubmission ++ System.sampleProcessing 0) := by
  let before : List Action :=
    System.sampleSubmission ++ .poll 0 0 :: List.replicate 4 (System.sampleProcess 0)
  obtain ⟨s, hrun, hs⟩ := Option.bind_eq_some_iff.mp
    (show ((System.run Hashing.sample 3 System.init before).bind fun s ↦ (s.submits 0).bind
      fun call ↦ (s.workers 0).map fun delivery ↦ (call.point, delivery.point)) = some
        (.returned { System.sampleRecord.job with state := .accepted, result := none },
          .saveSucceeded System.sampleRecord) by decide)
  obtain ⟨call, hcall, hmap⟩ := Option.bind_eq_some_iff.mp hs
  obtain ⟨delivery, hdelivery, hpair⟩ := Option.map_eq_some_iff.mp hmap
  obtain ⟨hcallPoint, hpoint⟩ := Prod.mk.inj hpair
  obtain ⟨hsubmits, hworkers⟩ := System.others_of_run
    (show ∀ a ∈ before, System.among 1 1 a = true by decide) hrun
  change Transition.Along _ _ _ (before ++ [System.sampleProcess 0])
  refine (Transition.along_append hrun).mpr ⟨?_, ?_, fun _ _ ↦ trivial⟩
  · apply Transition.Along.mono System.FinishesSettled.of_storesNoSuccess
    decide
  · intro delivery' hdelivery' record hrecord result hresult
    cases hdelivery.symm.trans hdelivery'
    rw [hpoint] at hrecord
    cases hrecord
    cases hresult
    constructor
    · intro client call' hcall'
      by_cases hclient : client = 0
      · rw [hclient] at hcall'
        cases hcall.symm.trans hcall'
        rw [hcallPoint]
        exact id
      · rw [hsubmits client (Nat.pos_of_ne_zero hclient)] at hcall'
        cases hcall'
    · intro worker delivery' hdelivery'
      by_cases hworker : worker = 0
      · rw [hworker] at hdelivery'
        cases hdelivery.symm.trans hdelivery'
        rw [hpoint]
        exact fun hdanger ↦ hdanger.2 rfl
      · rw [hworkers worker (Nat.pos_of_ne_zero hworker)] at hdelivery'
        cases hdelivery'

/-- The sample job is finished by a worker that is alone with it, and a redelivery leaves it
finished. -/
theorem finished_job_stays_finished_sample : ∃ s t,
    System.run Hashing.sample 3 System.init
      (System.sampleSubmission ++ System.sampleProcessing 0) = some s ∧
    System.run Hashing.sample 3 s [.poll 1 0, System.sampleProcess 1] = some t ∧
    t.cluster.Finished System.sampleJobId System.sampleResponse := by
  obtain ⟨s, hrun, hs⟩ := Option.bind_eq_some_iff.mp
    (show ((System.run Hashing.sample 3 System.init
      (System.sampleSubmission ++ System.sampleProcessing 0)).bind fun s ↦
        (System.run Hashing.sample 3 s [.poll 1 0, System.sampleProcess 1]).bind fun _ ↦
          s.cluster.store.get System.sampleJobId) = some System.sampleRecord by decide)
  obtain ⟨t, hrun', hget⟩ := Option.bind_eq_some_iff.mp hs
  exact ⟨s, t, hrun, hrun', (finished_job_stays_finished Hashing.sample 3).1 _ s hrun (by decide)
    System.finishesSettled_sample _ _ ⟨System.sampleRecord, hget, rfl, rfl⟩ _ t hrun' (by decide)⟩

/-- A submission fails to publish and is replayed; the replay publishes, and the worker finishes the
job before the replay gets to its save. -/
def System.sampleOvertaken : List Action :=
  [.submit 0 sampleRequest "" sampleNow, sampleSubmit 0, sampleSubmit 0 .lost, sampleSubmit 0,
    .submit 1 sampleRequest "" sampleNow, sampleSubmit 1, sampleSubmit 1, sampleSubmit 1] ++
    sampleProcessing 0

/-- **A finished job can be un-finished**, by one worker and without any redelivery: the replay
saves `accepted` over the result. -/
theorem finished_job_overwritten : ∃ s t,
    (∀ a ∈ System.sampleOvertaken ++ [System.sampleSubmit 1], a.keepsKeys = true) ∧
    System.run Hashing.sample 3 System.init System.sampleOvertaken = some s ∧
    s.cluster.Finished System.sampleJobId System.sampleResponse ∧
    System.run Hashing.sample 3 s [System.sampleSubmit 1] = some t ∧
    ¬t.cluster.Finished System.sampleJobId System.sampleResponse := by
  let accepted : StoredModerationJob :=
    { System.sampleRecord with
      job := { System.sampleRecord.job with state := .accepted, result := none } }
  obtain ⟨s, hrun, hs⟩ := Option.bind_eq_some_iff.mp
    (show ((System.run Hashing.sample 3 System.init System.sampleOvertaken).bind fun s ↦
        (System.run Hashing.sample 3 s [System.sampleSubmit 1]).bind fun t ↦
          (s.cluster.store.get System.sampleJobId).bind fun record ↦
            (t.cluster.store.get System.sampleJobId).map fun record' ↦ (record, record'))
      = some (System.sampleRecord, accepted) by decide)
  obtain ⟨t, hrun', hst⟩ := Option.bind_eq_some_iff.mp hs
  obtain ⟨record, hget, hmap⟩ := Option.bind_eq_some_iff.mp hst
  obtain ⟨record', hget', hpair⟩ := Option.map_eq_some_iff.mp hmap
  obtain ⟨rfl, rfl⟩ := Prod.mk.inj hpair
  refine ⟨s, t, by decide, hrun, ⟨System.sampleRecord, hget, rfl, rfl⟩, hrun', ?_⟩
  intro hfinished
  have hstate := hfinished.state_eq hget'
  cases hstate

end Sentinel
