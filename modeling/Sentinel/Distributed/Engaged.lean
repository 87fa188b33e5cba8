import Sentinel.Distributed.Content
import Sentinel.Distributed.Queued

/-!
# One worker and its jobs

One worker takes the events one at a time, dies where it likes, and is handed the same event again
as often as the broker likes. While it has a job under way, the record of the job says `processing`,
so that no call of `submit` reaches for the job; and a job that has ended is left alone, unless the
worker takes up one whose attempts are exhausted.
-/

namespace Sentinel

def StoredModerationJob.AttemptsExhausted (record : StoredModerationJob) : Prop :=
  record.job.state = .failed ∧ record.job.errorCode = some "processing_attempts_exhausted"

instance (record : StoredModerationJob) : Decidable record.AttemptsExhausted :=
  inferInstanceAs (Decidable (_ ∧ _))

namespace Cluster

def InState (c : Cluster) (jobId : String) (state : JobState) : Prop :=
  ∃ record, c.store.get jobId = some record ∧ record.job.state = state

def Exhausted (c : Cluster) (jobId : String) : Prop :=
  ∃ record, c.store.get jobId = some record ∧ record.AttemptsExhausted

def Ended (c : Cluster) (jobId : String) : Prop :=
  c.InState jobId .succeeded ∨ c.Exhausted jobId

/-- The topic has an event of the job, acknowledged or not. -/
def HasEvent (c : Cluster) (topic : Topic) (jobId : String) : Prop :=
  ∃ message ∈ c.log, message.topic = topic ∧ message.key = jobId

instance (c : Cluster) (jobId : String) : Decidable (c.Exhausted jobId) :=
  decidable_of_iff ((c.store.get jobId).any fun record ↦ decide record.AttemptsExhausted) <| by
    simp only [Option.any_eq_true, decide_eq_true_eq, Exhausted]

instance (c : Cluster) (topic : Topic) (jobId : String) : Decidable (c.HasEvent topic jobId) :=
  inferInstanceAs (Decidable (∃ message ∈ c.log, message.topic = topic ∧ message.key = jobId))

end Cluster

/-! ## The runs -/

/-- A call of `submit` stands between its read, or its creation, of the record and its last save. -/
def System.Held (H : Hashing) (s : System) (jobId : String) : Prop :=
  ∃ client call, s.submits client = some call ∧ call.jobId H = jobId ∧ call.point.holds = true

def System.inHand (s : System) (jobId : String) : Option ProcessPoint :=
  (s.workers 0).bind fun delivery ↦
    if delivery.event.jobId = jobId then some delivery.point else none

/-- One worker does everything, no key expires, and the worker goes on with the job only while no
call of `submit` holds it. -/
def System.OneWorker (H : Hashing) (jobId : String) (s : System) : Action → Prop
  | .submit _ _ _ _ | .submitStep _ _ _ | .submitCrash _ => True
  | .poll worker _ | .commit worker | .workerCrash worker => worker = 0
  | .processStep worker _ _ _ => worker = 0 ∧ (s.inHand jobId ≠ none → ¬s.Held H jobId)
  | .expire _ => False

def System.isWork : Action → Bool
  | .poll worker _ | .processStep worker _ _ _ | .commit worker | .workerCrash worker => worker = 0
  | _ => false

/-- The worker takes the job up although it is exhausted. -/
def System.TakesUpExhausted (jobId : String) (s : System) : Action → Prop
  | .processStep _ _ _ _ => s.inHand jobId = some .get ∧ s.cluster.Exhausted jobId
  | _ => False

def ProcessPoint.publishesEnd : ProcessPoint → Bool
  | .publishResult _ _ | .publishExhausted _ => true
  | _ => false

def ProcessPoint.savesEnd : ProcessPoint → Bool
  | .saveSucceeded _ | .saveFailed _ => true
  | _ => false

/-- The worker dies, or gives up on the acknowledgement, when the end of the job has been published
and not yet saved. -/
def System.DiesUnrecorded (jobId : String) (s : System) : Action → Prop
  | .processStep _ _ outcome _ => outcome = .unacknowledged ∧
      (s.inHand jobId).any ProcessPoint.publishesEnd = true
  | .workerCrash _ => (s.inHand jobId).any ProcessPoint.savesEnd = true
  | _ => False

instance (jobId : String) (s : System) : ∀ a, Decidable (s.TakesUpExhausted jobId a)
  | .processStep _ _ _ _ =>
    inferInstanceAs (Decidable (s.inHand jobId = some .get ∧ s.cluster.Exhausted jobId))
  | .submit _ _ _ _ | .submitStep _ _ _ | .submitCrash _ | .poll _ _ | .commit _ | .workerCrash _
  | .expire _ => .isFalse id

instance (jobId : String) (s : System) : ∀ a, Decidable (s.DiesUnrecorded jobId a)
  | .processStep _ _ outcome _ => inferInstanceAs (Decidable (outcome = .unacknowledged ∧
      (s.inHand jobId).any ProcessPoint.publishesEnd = true))
  | .workerCrash _ =>
    inferInstanceAs (Decidable ((s.inHand jobId).any ProcessPoint.savesEnd = true))
  | .submit _ _ _ _ | .submitStep _ _ _ | .submitCrash _ | .poll _ _ | .commit _ | .expire _ =>
    .isFalse id

/-! ## What is saved -/

/-- What the record says that the call is about to save. -/
def SubmitPoint.Copies : SubmitPoint → Prop
  | .saveFailed record _ => record.QueuePublishFailed
  | .saveAccepted record => record.job.state = .accepted
  | _ => True

/-- What the record says that the worker is about to save. -/
def ProcessPoint.Copies : ProcessPoint → Prop
  | .saveProcessing record => record.job.state = .processing
  | .saveSucceeded record => record.job.state = .succeeded
  | .saveRetrying record => record.job.state = .accepted
  | .saveFailed record => record.AttemptsExhausted
  | _ => True

def ProcessPoint.saves : ProcessPoint → Bool
  | .saveProcessing _ | .saveSucceeded _ | .saveRetrying _ | .saveFailed _ => true
  | _ => false

/-- The worker has marked the job as processing, and has not saved what came of it. -/
def ProcessPoint.engaged : ProcessPoint → Bool
  | .moderate _ | .publishResult _ _ | .saveSucceeded _ | .publishRetry _ _ | .saveRetrying _
  | .publishExhausted _ | .saveFailed _ => true
  | .get | .publishMissing | .saveProcessing _ | .returned => false

theorem SubmitCall.Moves.copies {H : Hashing} {c c' : Cluster} {call : SubmitCall}
    {point : SubmitPoint} (hmoves : call.Moves H c c' point) : point.Copies := by
  cases hmoves with
  | unpublished => exact ⟨rfl, rfl⟩
  | republished => rfl
  | _ => trivial

theorem Delivery.Moves.copies {maxAttempts : ℤ} {c c' : Cluster} {delivery : Delivery}
    {point : Option ProcessPoint} (hmoves : delivery.Moves maxAttempts c c' point) :
    ∀ next ∈ point, next.Copies := by
  cases hmoves with
  | publishedExhausted =>
    rintro _ ⟨⟩
    exact ⟨rfl, rfl⟩
  | taken | publishedResult | publishedRetry =>
    rintro _ ⟨⟩
    rfl
  | unpublished => rintro _ ⟨⟩
  | _ =>
    rintro _ ⟨⟩
    trivial

theorem SubmitCall.Moves.get_eq {H : Hashing} {c c' : Cluster} {call : SubmitCall}
    {point : SubmitPoint} {jobId : String} (hbacked : SubmitBacked H c call)
    (hmoves : call.Moves H c c' point)
    (hfree : call.jobId H = jobId → (c.store.get jobId).isSome ∧ call.point.holds = false) :
    c'.store.get jobId = c.store.get jobId := by
  have hsave : ∀ {record : StoredModerationJob}, Backed c (call.jobId H) record →
      call.point.holds = true → (c.save record).store.get jobId = c.store.get jobId := by
    intro record hrecord hholds
    apply RedisJobStore.get_save_of_ne
    rintro rfl
    rw [(hfree hrecord.jobId_eq.symm).2] at hholds
    cases hholds
  cases hmoves with
  | created storedJob hpoint hnone =>
    rw [SubmitBacked, hpoint] at hbacked
    obtain ⟨now, rfl⟩ := hbacked
    rw [RedisJobStore.get_set, if_neg]
    rintro rfl
    have hsome := (hfree rfl).1
    rw [hnone] at hsome
    cases hsome
  | taken | disappeared | conflict | replay | existing | published | republished => rfl
  | unpublished storedJob replay now c' hpoint hc' => rcases hc' with rfl | rfl <;> rfl
  | failed record replay hpoint =>
    rw [SubmitBacked, hpoint] at hbacked
    exact hsave hbacked.1 (by rw [hpoint]; rfl)
  | accepted record hpoint =>
    rw [SubmitBacked, hpoint] at hbacked
    exact hsave hbacked.1 (by rw [hpoint]; rfl)

theorem Delivery.Moves.get_eq {maxAttempts : ℤ} {c c' : Cluster} {delivery : Delivery}
    {point : Option ProcessPoint} {jobId : String} (hbacked : DeliveryBacked c delivery)
    (hmoves : delivery.Moves maxAttempts c c' point)
    (hfree : delivery.event.jobId = jobId → delivery.point.saves = false) :
    c'.store.get jobId = c.store.get jobId := by
  have hsave : ∀ {record : StoredModerationJob}, Backed c delivery.event.jobId record →
      delivery.point.saves = true → (c.save record).store.get jobId = c.store.get jobId := by
    intro record hrecord hsaves
    apply RedisJobStore.get_save_of_ne
    rintro rfl
    rw [hfree hrecord.jobId_eq.symm] at hsaves
    cases hsaves
  cases hmoves with
  | missing | duplicate | taken | moderated | failedRetry | failedLast | publishedMissing
  | publishedResult | publishedRetry | publishedExhausted => rfl
  | unpublished topic payload c' hpublication hc' => rcases hc' with rfl | rfl <;> rfl
  | processing record hpoint | succeeded record hpoint | retrying record hpoint
  | failed record hpoint =>
    rw [DeliveryBacked, hpoint] at hbacked
    exact hsave hbacked.1 (by rw [hpoint]; rfl)

/-! ## The invariant -/

/-- What is known of every state of a run that lets no key expire. -/
structure System.Known (H : Hashing) (s : System) : Prop where
  contents : s.Holds (Contents H) (fun c call ↦ SubmitBacked H c call ∧ SubmitContent H c call)
    (DeliveryContent H)
  copies : s.Holds (fun _ ↦ True) (fun _ call ↦ call.point.Copies)
    (fun _ delivery ↦ delivery.point.Copies)

/-- Who has the job, and what its record then says. -/
structure System.Tracked (H : Hashing) (jobId : String) (s : System) : Prop where
  engaged : ∀ point, s.inHand jobId = some point → point.engaged = true →
    ¬s.Held H jobId ∧ s.cluster.InState jobId .processing
  ended : s.cluster.Ended jobId → ¬s.Held H jobId ∧
    ∀ point, s.inHand jobId = some point → point = .get ∨ point = .returned

/-- An end of the job that has been published is saved, or is going to be saved next. -/
structure System.Recorded (jobId : String) (s : System) : Prop where
  found : s.inHand jobId ≠ some .publishMissing
  result : s.cluster.HasEvent .result jobId →
    s.cluster.InState jobId .succeeded ∨ ∃ record, s.inHand jobId = some (.saveSucceeded record)
  deadLetter : s.cluster.HasEvent .dlq jobId →
    s.cluster.Exhausted jobId ∨ ∃ record, s.inHand jobId = some (.saveFailed record)

theorem isInductive_copies (H : Hashing) (maxAttempts : ℤ) :
    System.IsInductive H maxAttempts (fun _ ↦ True) (fun _ ↦ True)
      (fun _ call ↦ call.point.Copies) (fun _ delivery ↦ delivery.point.Copies) where
  submit_mono _ h := h
  delivery_mono _ h := h
  submit _ _ _ _ := trivial
  submitStep _ _ hmoves := ⟨trivial, hmoves.copies⟩
  submitCrash _ := trivial
  poll _ _ := trivial
  processStep _ _ hmoves := ⟨trivial, hmoves.copies⟩
  commit _ _ _ := trivial
  expire _ _ _ := trivial

namespace Cluster

variable {c c' : Cluster} {jobId : String} {state : JobState} {record : StoredModerationJob}

theorem InState.congr (h : c.InState jobId state) (hget : c'.store.get jobId = c.store.get jobId) :
    c'.InState jobId state := by
  obtain ⟨record, hrecord⟩ := h
  exact ⟨record, hget ▸ hrecord⟩

theorem Exhausted.congr (h : c.Exhausted jobId) (hget : c'.store.get jobId = c.store.get jobId) :
    c'.Exhausted jobId := by
  obtain ⟨record, hrecord⟩ := h
  exact ⟨record, hget ▸ hrecord⟩

theorem Ended.congr (h : c.Ended jobId) (hget : c'.store.get jobId = c.store.get jobId) :
    c'.Ended jobId :=
  h.imp (fun h ↦ h.congr hget) (fun h ↦ h.congr hget)

theorem Ended.isSome (h : c.Ended jobId) : (c.store.get jobId).isSome := by
  rcases h with ⟨record, hget, -⟩ | ⟨record, hget, -⟩
  · rw [hget, Option.isSome_some]
  · rw [hget, Option.isSome_some]

theorem Ended.succeeded_or_exhausted (h : c.Ended jobId) (hget : c.store.get jobId = some record) :
    record.job.state = .succeeded ∨ record.AttemptsExhausted := by
  rcases h with ⟨record', hget', hstate⟩ | ⟨record', hget', hexhausted⟩
  · cases hget.symm.trans hget'
    exact .inl hstate
  · cases hget.symm.trans hget'
    exact .inr hexhausted

theorem InState.not_ended (h : c.InState jobId state) (hsucceeded : state ≠ .succeeded)
    (hfailed : state ≠ .failed) : ¬c.Ended jobId := by
  intro hended
  obtain ⟨record, hget, rfl⟩ := h
  rcases hended.succeeded_or_exhausted hget with hstate | ⟨hstate, -⟩
  · exact hsucceeded hstate
  · exact hfailed hstate

theorem not_ended_of_queuePublishFailed (hget : c.store.get jobId = some record)
    (hrecord : record.QueuePublishFailed) : ¬c.Ended jobId := by
  intro hended
  rcases hended.succeeded_or_exhausted hget with hstate | ⟨-, hcode⟩
  · cases hrecord.1.symm.trans hstate
  · exact absurd (Option.some_inj.mp (hrecord.2.symm.trans hcode)) (by decide)

theorem InState.not_exhausted (h : c.InState jobId .succeeded) : ¬c.Exhausted jobId := by
  rintro ⟨record', hget', hstate', -⟩
  obtain ⟨record, hget, hstate⟩ := h
  cases hget.symm.trans hget'
  cases hstate.symm.trans hstate'

theorem get_save (hsome : (c.store.get jobId).isSome) (hid : record.job.jobId = jobId) :
    (c.save record).store.get jobId = some record := by
  rw [save, RedisJobStore.get_save, if_pos ⟨hid.symm, hsome⟩]

theorem not_ended_save (h : ¬c.Ended jobId) (hsucceeded : record.job.state ≠ .succeeded)
    (hexhausted : ¬record.AttemptsExhausted) : ¬(c.save record).Ended jobId := by
  have hboth : ∀ {record'}, (c.save record).store.get jobId = some record' →
      record' = record ∨ c.store.get jobId = some record' := fun hget ↦
    (RedisJobStore.get_save_eq_some hget).imp_left And.right
  rintro (⟨record', hget, hstate⟩ | ⟨record', hget, hrecord⟩)
  · rcases hboth hget with rfl | hget'
    · exact hsucceeded hstate
    · exact h (.inl ⟨record', hget', hstate⟩)
  · rcases hboth hget with rfl | hget'
    · exact hexhausted hrecord
    · exact h (.inr ⟨record', hget', hrecord⟩)

theorem HasEvent.append {message : Message} {topic : Topic}
    (h : (c.append message).HasEvent topic jobId) :
    c.HasEvent topic jobId ∨ (message.topic = topic ∧ message.key = jobId) := by
  obtain ⟨message', hmem, hmessage⟩ := h
  rcases List.mem_append.mp hmem with hmem | hmem
  · exact .inl ⟨message', hmem, hmessage⟩
  · exact .inr (List.mem_singleton.mp hmem ▸ hmessage)

end Cluster

namespace System

variable {H : Hashing} {maxAttempts : ℤ} {jobId : String} {s s' : System} {a : Action}
  {c' : Cluster}

theorem Known.step (h : s.Known H) (hkeeps : a.keepsKeys = true)
    (hmoves : s.Moves H maxAttempts a s') : s'.Known H :=
  ⟨(isInductive_contents H maxAttempts).moves h.contents hkeeps hmoves,
    (isInductive_copies H maxAttempts).moves h.copies trivial hmoves⟩

theorem known_init (H : Hashing) : init.Known H := by
  have hempty : run H 0 init [] = some init := rfl
  exact ⟨contents_of_run (fun _ h ↦ by cases h) hempty, Holds.init trivial⟩

theorem Held.of_update {client : ℕ} {call : SubmitCall}
    (h : Held H ⟨c', Function.update s.submits client (some call), s.workers⟩ jobId) :
    (call.jobId H = jobId ∧ call.point.holds = true) ∨ s.Held H jobId := by
  obtain ⟨client', call', hcall', hheld⟩ := h
  simp only [Function.update_apply] at hcall'
  split_ifs at hcall'
  · cases hcall'
    exact .inl hheld
  · exact .inr ⟨client', call', hcall', hheld⟩

theorem Held.of_call {client : ℕ} {call : SubmitCall} (hcall : s.submits client = some call)
    (hid : call.jobId H = jobId) (hholds : call.point.holds = true) : s.Held H jobId :=
  ⟨client, call, hcall, hid, hholds⟩

theorem inHand_update (next : Option Delivery) :
    inHand ⟨c', s.submits, Function.update s.workers 0 next⟩ jobId
      = next.bind fun delivery ↦
          if delivery.event.jobId = jobId then some delivery.point else none := by
  simp only [inHand, Function.update_self]

theorem inHand_of_delivery {delivery : Delivery} (hdelivery : s.workers 0 = some delivery)
    (hid : delivery.event.jobId = jobId) : s.inHand jobId = some delivery.point := by
  rw [inHand, hdelivery, Option.bind_some, if_pos hid]

theorem inHand_of_other {delivery : Delivery} (hdelivery : s.workers 0 = some delivery)
    (hid : delivery.event.jobId ≠ jobId) : s.inHand jobId = none := by
  rw [inHand, hdelivery, Option.bind_some, if_neg hid]

theorem inHand_map (s : System) (c' : Cluster) (jobId : String) (delivery : Delivery)
    (point : Option ProcessPoint) :
    inHand ⟨c', s.submits, Function.update s.workers 0
      (point.map fun point ↦ { delivery with point := point })⟩ jobId
      = if delivery.event.jobId = jobId then point else none := by
  rw [inHand_update]
  cases point with
  | none => rw [Option.map_none, Option.bind_none, ite_self]
  | some next => rfl

theorem Tracked.congr (h : s.Tracked H jobId)
    (hget : s'.cluster.store.get jobId = s.cluster.store.get jobId)
    (hhand : ∀ point, s'.inHand jobId = some point →
      s.inHand jobId = some point ∨ point = .get ∨ point = .returned)
    (hheld : s'.Held H jobId → s.Held H jobId) : s'.Tracked H jobId where
  engaged point hpoint hengaged := by
    rcases hhand point hpoint with hbefore | rfl | rfl
    · obtain ⟨hfree, hstate⟩ := h.engaged point hbefore hengaged
      exact ⟨mt hheld hfree, hstate.congr hget⟩
    · cases hengaged
    · cases hengaged
  ended hended := by
    obtain ⟨hfree, hpoints⟩ := h.ended (hended.congr hget.symm)
    refine ⟨mt hheld hfree, fun point hpoint ↦ ?_⟩
    exact (hhand point hpoint).elim (hpoints point) id

/-- While a call holds the job, the job has not ended and the worker is not engaged with it. -/
theorem Tracked.of_held (hget : ¬s'.cluster.Ended jobId)
    (hhand : ∀ point, s'.inHand jobId = some point → point.engaged = false) :
    s'.Tracked H jobId where
  engaged point hpoint hengaged := by
    rw [hhand point hpoint] at hengaged
    cases hengaged
  ended hended := absurd hended hget

theorem Tracked.not_engaged (h : s.Tracked H jobId) (hheld : s.Held H jobId) :
    ∀ point, s.inHand jobId = some point → point.engaged = false := by
  intro point hpoint
  rw [← Bool.not_eq_true]
  exact fun hengaged ↦ (h.engaged point hpoint hengaged).1 hheld

theorem Tracked.not_engaged_of_state (h : s.Tracked H jobId)
    (hstate : ¬s.cluster.InState jobId .processing) :
    ∀ point, s.inHand jobId = some point → point.engaged = false := by
  intro point hpoint
  rw [← Bool.not_eq_true]
  exact fun hengaged ↦ hstate (h.engaged point hpoint hengaged).2

theorem Tracked.submitStep (hknown : s.Known H) (h : s.Tracked H jobId) {client : ℕ}
    {call : SubmitCall} {point : SubmitPoint} (hcall : s.submits client = some call)
    (hmoves : call.Moves H s.cluster c' point) :
    Tracked H jobId
      ⟨c', Function.update s.submits client (some { call with point := point }), s.workers⟩ := by
  obtain ⟨hbacked, -⟩ := hknown.contents.submits hcall
  by_cases hid : call.jobId H = jobId
  · subst hid
    have hcopies := hknown.copies.submits hcall
    -- a call that holds the job has kept the worker away from it
    have hheld : call.point.holds = true → ¬s.cluster.Ended (call.jobId H) ∧
        ∀ point, s.inHand (call.jobId H) = some point → point.engaged = false := fun hholds ↦
      ⟨fun hended ↦ (h.ended hended).1 (.of_call hcall rfl hholds),
        h.not_engaged (.of_call hcall rfl hholds)⟩
    cases hmoves with
    | taken | disappeared | conflict | existing =>
      refine h.congr rfl (fun _ hpoint ↦ .inl hpoint) fun hheld' ↦ ?_
      exact hheld'.of_update.resolve_left fun hnow ↦ by cases hnow.2
    | created storedJob hpoint hfree =>
      rw [SubmitBacked, hpoint] at hbacked
      obtain ⟨now, rfl⟩ := hbacked
      have hget : (s.cluster.store.set (call.storedJob H now)).get (call.jobId H)
          = some (call.storedJob H now) := (RedisJobStore.get_set _ _ _).trans (if_pos rfl)
      refine .of_held (fun hended ↦ ?_) (h.not_engaged_of_state fun hstate ↦ ?_)
      · rcases hended.succeeded_or_exhausted hget with hstate | ⟨hstate, -⟩
        · cases hstate
        · cases hstate
      · obtain ⟨record, hget', -⟩ := hstate
        cases hfree.symm.trans hget'
    | replay existing hpoint hget heq hfailed =>
      refine .of_held (Cluster.not_ended_of_queuePublishFailed hget hfailed)
        (h.not_engaged_of_state fun hstate ↦ ?_)
      obtain ⟨record, hget', hstate⟩ := hstate
      cases hget.symm.trans hget'
      cases hfailed.1.symm.trans hstate
    | published storedJob hpoint | republished storedJob now hpoint =>
      obtain ⟨hended, hhand⟩ := hheld (by rw [hpoint]; rfl)
      exact .of_held (fun hended' ↦ hended (hended'.congr rfl)) hhand
    | unpublished storedJob replay now c' hpoint hc' =>
      obtain ⟨hended, hhand⟩ := hheld (by rw [hpoint]; rfl)
      have hsame : s.cluster.store = c'.store := by rcases hc' with rfl | rfl <;> rfl
      exact .of_held (fun hended' ↦ hended (hended'.congr (by rw [hsame]))) hhand
    | failed record replay hpoint =>
      obtain ⟨hended, hhand⟩ := hheld (by rw [hpoint]; rfl)
      rw [hpoint] at hcopies
      refine .of_held (Cluster.not_ended_save hended ?_ ?_) hhand
      · rw [hcopies.1]
        decide
      · intro hexhausted
        exact absurd (Option.some_inj.mp (hcopies.2.symm.trans hexhausted.2)) (by decide)
    | accepted record hpoint =>
      obtain ⟨hended, hhand⟩ := hheld (by rw [hpoint]; rfl)
      rw [hpoint] at hcopies
      refine .of_held (Cluster.not_ended_save hended ?_ ?_) hhand
      · rw [show record.job.state = .accepted from hcopies]
        decide
      · intro hexhausted
        cases hcopies.symm.trans hexhausted.1
  · refine h.congr (hmoves.get_eq hbacked fun hid' ↦ absurd hid' hid)
      (fun _ hpoint ↦ .inl hpoint) fun hheld ↦ ?_
    exact hheld.of_update.resolve_left fun hnow ↦ hid hnow.1

theorem Known.isSome (hknown : s.Known H) {worker : ℕ} {delivery : Delivery}
    (hdelivery : s.workers worker = some delivery) :
    (s.cluster.store.get delivery.event.jobId).isSome := by
  obtain ⟨original, hmem, hid, -⟩ := (hknown.contents.workers hdelivery).bound
  exact hid ▸ hknown.contents.cluster.once.isSome_get original hmem

theorem Tracked.processStep (hknown : s.Known H) (h : s.Tracked H jobId) {delivery : Delivery}
    {point : Option ProcessPoint} (hdelivery : s.workers 0 = some delivery)
    (hfree : s.inHand jobId ≠ none → ¬s.Held H jobId)
    (hexhausted : ¬(s.inHand jobId = some .get ∧ s.cluster.Exhausted jobId))
    (hmoves : delivery.Moves maxAttempts s.cluster c' point) :
    Tracked H jobId ⟨c', s.submits, Function.update s.workers 0
      (point.map fun point ↦ { delivery with point := point })⟩ := by
  have hbacked := (hknown.contents.workers hdelivery).backed
  have hhand' := inHand_map s c' jobId delivery point
  by_cases hid : delivery.event.jobId = jobId
  · have hhand := inHand_of_delivery hdelivery hid
    rw [if_pos hid] at hhand'
    subst hid
    have hnobody : ¬s.Held H delivery.event.jobId := hfree (by simp [hhand])
    have hcopies := hknown.copies.workers hdelivery
    have hsome := hknown.isSome hdelivery
    -- the worker goes on with the job
    have hgoes : (∀ next ∈ point, next.engaged = true →
        c'.InState delivery.event.jobId .processing) → (c'.Ended delivery.event.jobId →
          ∀ next ∈ point, next = .get ∨ next = .returned) →
        Tracked H delivery.event.jobId ⟨c', s.submits, Function.update s.workers 0
          (point.map fun point ↦ { delivery with point := point })⟩ := fun hengaged hended ↦
      ⟨fun next hnext hworks ↦ ⟨hnobody, hengaged next (hhand'.symm.trans hnext) hworks⟩,
        fun hend ↦ ⟨hnobody, fun next hnext ↦ hended hend next (hhand'.symm.trans hnext)⟩⟩
    have hengages : c'.InState delivery.event.jobId .processing →
        Tracked H delivery.event.jobId ⟨c', s.submits, Function.update s.workers 0
          (point.map fun point ↦ { delivery with point := point })⟩ := fun hstate ↦
      hgoes (fun _ _ _ ↦ hstate) fun hended ↦
        absurd hended (hstate.not_ended (by decide) (by decide))
    have hreturns : point = some .returned → Tracked H delivery.event.jobId
        ⟨c', s.submits, Function.update s.workers 0
          (point.map fun point ↦ { delivery with point := point })⟩ := by
      rintro rfl
      refine hgoes ?_ ?_
      · rintro _ ⟨⟩ ⟨⟩
      · rintro - _ ⟨⟩
        exact .inr rfl
    cases hmoves with
    | missing hpoint hget =>
      rw [hget] at hsome
      cases hsome
    | duplicate | publishedMissing | succeeded | retrying | failed => exact hreturns rfl
    | taken storedJob now hpoint hget hstate =>
      -- an ended job is not taken up: it has succeeded, or the step is one that was ruled out
      refine hgoes (by rintro _ ⟨⟩ ⟨⟩) fun hended ↦ ?_
      rcases hended.succeeded_or_exhausted hget with hsucceeded | hrecord
      · exact absurd hsucceeded hstate
      · exact absurd ⟨hhand.trans (congrArg some hpoint), storedJob, hget, hrecord⟩ hexhausted
    | processing processing hpoint =>
      rw [hpoint] at hcopies
      rw [DeliveryBacked, hpoint] at hbacked
      exact hengages ⟨processing, Cluster.get_save hsome hbacked.1.jobId_eq, hcopies⟩
    | moderated _ _ hpoint | failedRetry _ hpoint | failedLast _ hpoint
    | publishedResult _ _ _ hpoint | publishedRetry _ _ _ hpoint | publishedExhausted _ _ hpoint =>
      rw [hpoint] at hhand
      exact hengages ((h.engaged _ hhand rfl).2.congr rfl)
    | unpublished => exact hgoes (by rintro _ ⟨⟩) (by rintro - _ ⟨⟩)
  · rw [if_neg hid] at hhand'
    refine h.congr (hmoves.get_eq hbacked fun hid' ↦ absurd hid' hid) (fun point hpoint ↦ ?_) id
    rw [hhand'] at hpoint
    cases hpoint

/-- **What a step does to a tracked job.** -/
theorem Tracked.moves (hknown : s.Known H) (h : s.Tracked H jobId) (hone : s.OneWorker H jobId a)
    (hexhausted : ¬s.TakesUpExhausted jobId a) (hmoves : s.Moves H maxAttempts a s') :
    s'.Tracked H jobId := by
  cases hmoves with
  | submit client request uuid4 now hidle =>
    refine h.congr rfl (fun _ hpoint ↦ .inl hpoint) fun hheld ↦ ?_
    exact hheld.of_update.resolve_left fun hnow ↦ by cases hnow.2
  | submitStep client now outcome call cluster point hcall hmoves =>
    exact h.submitStep hknown hcall hmoves
  | submitCrash client call hcall hin =>
    refine h.congr rfl (fun _ hpoint ↦ .inl hpoint) fun hheld ↦ ?_
    exact hheld.of_update.resolve_left fun hnow ↦ by cases hnow.2
  | poll worker offset event hidle hpoll =>
    obtain rfl := hone
    refine h.congr rfl (fun point hpoint ↦ ?_) id
    rw [inHand_update, Option.bind_some] at hpoint
    split_ifs at hpoint
    exact .inr (.inl (Option.some_inj.mp hpoint).symm)
  | processStep worker now outcome reply delivery cluster point hdelivery hmoves =>
    obtain ⟨rfl, hfree⟩ := hone
    exact h.processStep hknown hdelivery hfree hexhausted hmoves
  | commit worker delivery hdelivery hpoint | workerCrash worker delivery hdelivery =>
    obtain rfl := hone
    refine h.congr rfl (fun point hpoint ↦ ?_) id
    rw [inHand_update, Option.bind_none] at hpoint
    cases hpoint
  | expire => cases hone

/-- **An ended job is left alone.** -/
theorem Tracked.get_eq (hknown : s.Known H) (h : s.Tracked H jobId)
    (hone : s.OneWorker H jobId a) (hmoves : s.Moves H maxAttempts a s')
    (hended : s.cluster.Ended jobId) :
    s'.cluster.store.get jobId = s.cluster.store.get jobId := by
  obtain ⟨hfree, hpoints⟩ := h.ended hended
  cases hmoves with
  | submit | submitCrash | poll | commit | workerCrash => rfl
  | submitStep client now outcome call cluster point hcall hmoves =>
    refine hmoves.get_eq (hknown.contents.submits hcall).1 fun hid ↦ ⟨hended.isSome, ?_⟩
    rw [← Bool.not_eq_true]
    exact fun hholds ↦ hfree (.of_call hcall hid hholds)
  | processStep worker now outcome reply delivery cluster point hdelivery hmoves =>
    obtain ⟨rfl, -⟩ := hone
    -- with an ended job the worker only reads and returns
    refine hmoves.get_eq (hknown.contents.workers hdelivery).backed fun hid ↦ ?_
    rcases hpoints _ (inHand_of_delivery hdelivery hid) with hpoint | hpoint
    · rw [hpoint]
      rfl
    · rw [hpoint]
      rfl
  | expire => cases hone

end System
end Sentinel
