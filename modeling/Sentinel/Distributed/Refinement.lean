import Sentinel.Distributed.Abstraction

/-!
# The bytes refine the values

Every run of the system on bytes is, as far as the platform's own messages go, a run of `System`.
Nothing of what other producers write can therefore do more to the jobs than keep a worker busy. The
condition is that they write no valid events; such an event would be one that no submission stands
behind.
-/

namespace Sentinel

/-! ## The simulation -/

def Action.unnumbered : Action → Action
  | .poll worker _ => .poll worker 0
  | a => a

def WireAction.action? {β : Type} : WireAction β → Option Action
  | .act a _ => some a.unnumbered
  | _ => none

namespace WireSystem

variable {β : Type} {format : WireFormat β} {H : Hashing} {maxAttempts : ℤ} {w w' : WireSystem β}

/-- The state after a step is sound, and its abstraction is where some actions lead, which are the
ones given except for offsets. -/
def Simulates (format : WireFormat β) (H : Hashing) (maxAttempts : ℤ) (w w' : WireSystem β)
    (actions : List Action) : Prop :=
  w'.Sound format ∧ ∃ as', (as'.map Action.unnumbered).Sublist actions ∧
    System.run H maxAttempts w.system as' = some w'.system

theorem send_value (format : WireFormat β) (partition : ℕ) (sent : Message) (payload : Payload)
    (h : (send format partition sent).origin = some payload) :
    (send format partition sent).value = format.bytes payload := by
  rw [← Option.some_inj.mp h]
  rfl

theorem simulates_one {a : Action} (hsound : w'.Sound format)
    (hstep : System.step H maxAttempts w.system a = some w'.system) :
    Simulates format H maxAttempts w w' [a.unnumbered] := by
  refine ⟨hsound, [a], List.Sublist.refl _, ?_⟩
  rw [System.run, Transition.run_cons, hstep, Option.bind_some, Transition.run_nil]

theorem simulates_none {actions : List Action} (hsound : w'.Sound format)
    (hsystem : w'.system = w.system) : Simulates format H maxAttempts w w' actions :=
  ⟨hsound, [], List.nil_sublist _, by rw [hsystem]; rfl⟩

theorem Sound.submitStep (hsound : w.Sound format) {client : ℕ} {call : SubmitCall}
    {now : DateTime} {outcome : PublishOutcome} {partition : ℕ} {c : Cluster} {point : SubmitPoint}
    (hcall : w.submits client = some call)
    (hstep : call.step H now outcome w.view = some (c, point)) :
    Simulates format H maxAttempts w
      ((w.after format partition c).setCall client { call with point := point })
      [.submitStep client now outcome] := by
  have hvalid := hsound.submits hcall
  refine simulates_one (a := .submitStep client now outcome) ?_ ?_
  · refine Sound.setCall (hsound.append ?_ rfl rfl rfl rfl) ⟨hvalid.request, hvalid.uuid4⟩
    intro message hmem
    obtain ⟨sent, hsent, rfl⟩ := List.mem_map.mp hmem
    refine ⟨send_value format partition sent, fun _ ↦ ?_⟩
    rcases (SubmitCall.moves_of_step hstep).sent hsent with hview | hpayload
    · cases hview
    · exact .inl ⟨call.event H, by rw [send, hpayload], hvalid.normalizedRequest⟩
  · rw [system_setCall, hsound.system_after, System.step]
    simp only [show w.system.submits client = some call from hcall,
      show w.system.cluster = w.view.behind _ _ from rfl, SubmitCall.step_behind, hstep,
      Option.map_some]

theorem Sound.processStep (hsound : w.Sound format) {worker : ℕ} {delivery : Delivery}
    {now : DateTime} {outcome : PublishOutcome} {reply : Option ModerationResponse} {partition : ℕ}
    {c : Cluster} {point : Option ProcessPoint}
    (hworker : w.workers worker = some (.process delivery))
    (hstep : delivery.step maxAttempts now outcome reply w.view = some (c, point)) :
    Simulates format H maxAttempts w
      ((w.after format partition c).setTurn worker
        (point.map fun point ↦ .process { delivery with point := point }))
      [.processStep worker now outcome reply] := by
  obtain ⟨⟨message, hlog, htopic, horigin⟩, hvalid, hretry⟩ := hsound.workers hworker
  have hmoves := Delivery.moves_of_step hstep
  -- the delivery as the abstraction numbers it
  obtain ⟨rank, hrank, hplatform⟩ := exists_rank hlog horigin
  have hdelivery : w.system.workers worker = some { delivery with offset := rank } := by
    simp only [system, hworker, Option.bind_some, Turn.delivery?, hrank, Option.map_some]
  have hrenumbered : Delivery.step maxAttempts { delivery with offset := rank } now outcome reply
      w.view = some (c, point) := hstep
  refine simulates_one (a := .processStep worker now outcome reply) ?_ ?_
  · refine Sound.setTurn (hsound.append ?_ rfl rfl rfl rfl) ?_
    · intro message' hmem
      obtain ⟨sent, hsent, rfl⟩ := List.mem_map.mp hmem
      refine ⟨send_value format partition sent, fun htopic' ↦ ?_⟩
      rcases hmoves.sent hsent with hview | hpublication
      · cases hview
      rcases Delivery.publication_cases hpublication with
        hnot | ⟨processing, retryEvent, hpoint, hp⟩
      · rw [send, hnot] at htopic'
        cases htopic'
      · refine .inl ⟨retryEvent, by rw [send, hp], ?_⟩
        rw [hretry processing retryEvent hpoint]
        exact hvalid
    · intro turn hturn
      obtain ⟨next, rfl, rfl⟩ := Option.map_eq_some_iff.mp hturn
      exact ⟨⟨message, getElem?_append_of_eq_some hlog, htopic, horigin⟩, hvalid,
        fun processing retryEvent hpoint ↦ hmoves.retryEvent (by rw [← hpoint])⟩
  · have hlt : delivery.offset < w.log.length := (List.getElem?_eq_some_iff.mp hlog).1
    have hturns : (point.map fun point ↦ Turn.process { delivery with point := point }).bind
        (Turn.delivery? (w.after format partition c).log)
          = point.map fun point ↦ { delivery with offset := rank, point := point } := by
      cases point with
      | none => rfl
      | some next =>
        simp only [after, Option.map_some, Option.bind_some, Turn.delivery?, rank?_append hlt,
          hrank]
    rw [system_setTurn, hsound.system_after, System.step]
    simp only [hdelivery, show w.system.cluster = w.view.behind _ _ from rfl,
      Delivery.step_behind, hrenumbered, Option.map_some, hturns]

theorem system_setTurn_foreign {worker : ℕ} {next : Option Turn}
    (hold : (w.workers worker).bind (Turn.delivery? w.log) = none)
    (hnext : next.bind (Turn.delivery? w.log) = none) :
    (w.setTurn worker next).system = w.system := by
  have hworker : w.system.workers worker = none := hold
  rw [system_setTurn, hnext, ← hworker, Function.update_eq_self]

theorem Sound.system_foreign (hsound : w.Sound format) {message : WireMessage β}
    (horigin : message.origin = none) :
    { w with log := w.log ++ [message] : WireSystem β }.system = w.system := by
  have hplatform : platformLog [message] = [] := by
    simp [platformLog, WireMessage.message?, horigin]
  rw [hsound.system_append { w with log := w.log ++ [message] } rfl rfl rfl rfl,
    hplatform, List.append_nil]
  rfl

theorem Sound.poll (hsound : w.Sound format) {worker offset : ℕ} {message : WireMessage β}
    (hidle : w.workers worker = none) (hlog : w.log[offset]? = some message)
    (htopic : message.topic.subscribed = true) :
    Simulates format H maxAttempts w (w.setTurn worker (some (receive format offset message)))
      [.poll worker 0] := by
  have hworker : w.system.workers worker = none := by simp only [system, hidle, Option.bind_none]
  have hmessage := hsound.log message (List.mem_of_getElem? hlog)
  rcases hmessage.polled htopic with ⟨event, horigin, hvalid⟩ | ⟨horigin, hread⟩
  · have hreceive : receive format offset message = .process ⟨offset, event, .get⟩ := by
      rw [receive, hmessage.value _ horigin, format.readEvent_bytes hvalid]
    obtain ⟨rank, hrank, hplatform⟩ := exists_rank hlog horigin
    have hpoll : w.system.cluster.poll rank = some event := by
      refine Cluster.poll_eq_some.mpr ⟨message.topic, message.key, message.acknowledged, htopic, ?_⟩
      simp only [system, cluster, Cluster.behind, view, List.append_nil]
      exact hplatform
    refine simulates_one (a := .poll worker rank) (hsound.setTurn ?_) ?_
    · rintro _ ⟨⟩
      rw [hreceive]
      exact ⟨⟨message, hlog, htopic, horigin⟩, hvalid, fun _ _ hpoint ↦ by cases hpoint⟩
    · rw [system_setTurn, hreceive, System.step]
      simp only [hworker, hpoll, Option.map_some, Option.bind_some, Turn.delivery?, hrank]
  · have hreceive : receive format offset message = .publishInvalid offset := by
      rw [receive, hread]
    rw [hreceive]
    refine simulates_none (hsound.setTurn ?_) (system_setTurn_foreign hworker rfl)
    rintro _ ⟨⟩
    exact ⟨message, hlog, horigin⟩

theorem Sound.commitEvent (hsound : w.Sound format) {worker : ℕ} {delivery : Delivery}
    (hworker : w.workers worker = some (.process delivery))
    (hpoint : delivery.point = .returned) :
    Simulates format H maxAttempts w
      ({ w with committed := delivery.offset :: w.committed }.setTurn worker none)
      [.commit worker] := by
  obtain ⟨⟨message, hlog, htopic, horigin⟩, hvalid, hretry⟩ := hsound.workers hworker
  obtain ⟨rank, hrank, hplatform⟩ := exists_rank hlog horigin
  have hdelivery : w.system.workers worker = some { delivery with offset := rank } := by
    simp only [system, hworker, Option.bind_some, Turn.delivery?, hrank, Option.map_some]
  refine simulates_one (a := .commit worker) (Sound.setTurn (hsound.commit ?_) (by simp)) ?_
  · exact ⟨message, hlog, fun hnone ↦ by rw [horigin] at hnone; cases hnone⟩
  · have hcommit : System.step H maxAttempts w.system (.commit worker)
        = some { w.system with
          cluster := w.system.cluster.commit rank
          workers := Function.update w.system.workers worker none } := by
      simp only [System.step, hdelivery, hpoint, if_true]
    rw [hcommit, system_setTurn]
    simp only [system, cluster, Cluster.behind, Cluster.commit, view,
      List.filterMap_cons_some hrank, Option.bind_none]

theorem Sound.crash (hsound : w.Sound format) {worker : ℕ} {turn : Turn}
    (hworker : w.workers worker = some turn) :
    Simulates format H maxAttempts w (w.setTurn worker none) [.workerCrash worker] := by
  have hnone : (w.setTurn worker none).Sound format := hsound.setTurn (by simp)
  cases turn with
  | process delivery =>
    obtain ⟨⟨message, hlog, htopic, horigin⟩, hvalid, hretry⟩ := hsound.workers hworker
    obtain ⟨rank, hrank, hplatform⟩ := exists_rank hlog horigin
    have hdelivery : w.system.workers worker = some { delivery with offset := rank } := by
      simp only [system, hworker, Option.bind_some, Turn.delivery?, hrank, Option.map_some]
    refine simulates_one (a := .workerCrash worker) hnone ?_
    rw [system_setTurn, System.step]
    simp only [hdelivery, Option.bind_none]
  | publishInvalid | commitInvalid =>
    exact simulates_none hnone (system_setTurn_foreign (by rw [hworker]; rfl) rfl)

theorem Sound.publishInvalid (hsound : w.Sound format) {worker offset : ℕ}
    {message : WireMessage β} (hworker : w.workers worker = some (.publishInvalid offset))
    (hlog : w.log[offset]? = some message) (partition : ℕ) (outcome : PublishOutcome) :
    Simulates format H maxAttempts w
      (publishInvalid format w worker offset message partition outcome) [] := by
  have hold : (w.workers worker).bind (Turn.delivery? w.log) = none := by rw [hworker]; rfl
  obtain ⟨message', hlog', horigin⟩ := hsound.workers hworker
  obtain rfl := Option.some_inj.mp (hlog.symm.trans hlog')
  have hlt : offset < w.log.length := (List.getElem?_eq_some_iff.mp hlog).1
  have hgrown : ∀ acknowledged, Sound format
      { w with
        log := w.log ++ [invalidLetter format w.log offset message partition acknowledged] } := by
    intro acknowledged
    refine hsound.append ?_ rfl rfl rfl rfl
    intro letter hmem
    rw [List.mem_singleton.mp hmem]
    exact ⟨fun _ h ↦ (by cases h), fun htopic ↦ (by cases htopic)⟩
  cases outcome with
  | lost => exact simulates_none (hsound.setTurn (by simp)) (system_setTurn_foreign hold rfl)
  | acknowledged =>
    refine simulates_none ((hgrown true).setTurn ?_) ?_
    · rintro _ ⟨⟩
      refine ⟨message, getElem?_append_of_eq_some hlog, horigin, partition, ?_⟩
      rw [invalidLetter_append hlt]
      exact List.mem_append_right _ List.mem_cons_self
    · rw [WireSystem.publishInvalid, system_setTurn_foreign (by simp only [hworker]; rfl) rfl,
        hsound.system_foreign rfl]
  | unacknowledged =>
    refine simulates_none ((hgrown false).setTurn (by simp)) ?_
    rw [WireSystem.publishInvalid, system_setTurn_foreign (by simp only [hworker]; rfl) rfl,
      hsound.system_foreign rfl]

theorem Sound.commitInvalid (hsound : w.Sound format) {worker offset : ℕ}
    (hworker : w.workers worker = some (.commitInvalid offset)) :
    Simulates format H maxAttempts w
      ({ w with committed := offset :: w.committed }.setTurn worker none) [] := by
  obtain ⟨message, hlog, horigin, hletter⟩ := hsound.workers hworker
  have hrank : rank? w.log offset = none := by
    rw [rank?, hlog, Option.bind_some, WireMessage.message?, horigin]
    rfl
  have haccounted : Accounted format w.log offset := ⟨message, hlog, fun _ ↦ hletter⟩
  refine simulates_none (Sound.setTurn (hsound.commit haccounted) (by simp)) ?_
  rw [system_setTurn_foreign (by simp only [hworker]; rfl) rfl]
  simp only [system, cluster, view, List.filterMap_cons_none hrank]

/-- **One step on bytes.** -/
theorem Sound.step (hsound : w.Sound format) {a : WireAction β} (hallowed : a.Allowed format)
    (hstep : WireSystem.step format H maxAttempts w a = some w') :
    Simulates format H maxAttempts w w' a.action?.toList := by
  cases a with
  | act a partition =>
    cases a with
    | submit client request uuid4 now =>
      simp only [WireSystem.step] at hstep
      split at hstep
      · rename_i hfree
        cases hstep
        refine simulates_one (a := .submit client request uuid4 now)
          (hsound.setCall ⟨hallowed.1, hallowed.2⟩) ?_
        rw [system_setCall, System.step, show w.system.submits client = none from hfree]
      · cases hstep
    | submitStep client now outcome =>
      simp only [WireSystem.step] at hstep
      split at hstep
      · cases hstep
      · rename_i call hcall
        obtain ⟨⟨c, point⟩, hcallStep, rfl⟩ := Option.map_eq_some_iff.mp hstep
        exact hsound.submitStep hcall hcallStep
    | submitCrash client =>
      simp only [WireSystem.step] at hstep
      split at hstep
      · cases hstep
      · rename_i call hcall
        split_ifs at hstep with hin
        cases hstep
        have hvalid := hsound.submits hcall
        refine simulates_one (a := .submitCrash client)
          (hsound.setCall ⟨hvalid.request, hvalid.uuid4⟩) ?_
        rw [system_setCall, System.step]
        simp only [show w.system.submits client = some call from hcall, hin, if_true]
    | poll worker offset =>
      simp only [WireSystem.step] at hstep
      split at hstep
      · rename_i message hidle hlog
        split_ifs at hstep with htopic
        cases hstep
        exact hsound.poll hidle hlog htopic
      · cases hstep
    | processStep worker now outcome reply =>
      simp only [WireSystem.step] at hstep
      split at hstep
      · rename_i delivery hworker
        obtain ⟨⟨c, point⟩, hprocess, rfl⟩ := Option.map_eq_some_iff.mp hstep
        exact hsound.processStep hworker hprocess
      · cases hstep
    | commit worker =>
      simp only [WireSystem.step] at hstep
      split at hstep
      · rename_i delivery hworker
        split_ifs at hstep with hpoint
        cases hstep
        exact hsound.commitEvent hworker hpoint
      · cases hstep
    | workerCrash worker =>
      simp only [WireSystem.step] at hstep
      split at hstep
      · cases hstep
      · rename_i turn hworker
        cases hstep
        exact hsound.crash hworker
    | expire jobId =>
      cases hstep
      exact simulates_one (a := .expire jobId)
        ⟨hsound.submits, hsound.log, hsound.workers, hsound.committed⟩ rfl
  | produce topic key value partition =>
    cases hstep
    refine simulates_none (hsound.append ?_ rfl rfl rfl rfl) (hsound.system_foreign rfl)
    intro message hmem
    rw [List.mem_singleton.mp hmem]
    exact ⟨fun _ h ↦ (by cases h), fun htopic ↦ .inr ⟨rfl, hallowed htopic⟩⟩
  | publishInvalid worker outcome partition =>
    simp only [WireSystem.step] at hstep
    split at hstep
    · rename_i offset hworker
      obtain ⟨message, hlog, rfl⟩ := Option.map_eq_some_iff.mp hstep
      exact hsound.publishInvalid hworker hlog partition outcome
    · cases hstep
  | commitInvalid worker =>
    simp only [WireSystem.step] at hstep
    split at hstep
    · rename_i offset hworker
      cases hstep
      exact hsound.commitInvalid hworker
    · cases hstep

/-! ## Runs -/

theorem sound_init : (init : WireSystem β).Sound format where
  submits h := by cases h
  log _ h := by cases h
  workers h := by cases h
  committed _ h := by cases h

/-- The simulation of a run, with its invariant. -/
theorem sound_of_run {as : List (WireAction β)} (hallowed : ∀ a ∈ as, a.Allowed format)
    (hrun : run format H maxAttempts init as = some w) : w.Sound format ∧
      ∃ as', (as'.map Action.unnumbered).Sublist (as.filterMap WireAction.action?) ∧
        System.run H maxAttempts System.init as' = some w.system := by
  refine Transition.run_history
    (P := fun as w ↦ (∀ a ∈ as, a.Allowed format) → w.Sound format ∧
      ∃ as', (as'.map Action.unnumbered).Sublist (as.filterMap WireAction.action?) ∧
        System.run H maxAttempts System.init as' = some w.system)
    (fun _ ↦ ⟨sound_init, [], List.Sublist.refl _, rfl⟩) ?_ hrun hallowed
  intro as w w' a _ ih hstep hallowed
  obtain ⟨hsound, as₁, hsub₁, hrun₁⟩ := ih fun b hb ↦ hallowed b (List.mem_append_left _ hb)
  obtain ⟨hsound', as₂, hsub₂, hrun₂⟩ := hsound.step
    (hallowed a (List.mem_append_right _ List.mem_cons_self)) hstep
  refine ⟨hsound', as₁ ++ as₂, ?_, Transition.run_append_eq_some.mpr ⟨_, hrun₁, hrun₂⟩⟩
  have hlast : [a].filterMap WireAction.action? = a.action?.toList := by
    cases h : a.action? <;> simp [h]
  rw [List.map_append, List.filterMap_append, hlast]
  exact hsub₁.append hsub₂

/-- A request is submitted, something else arrives on the same topic, and a worker disposes of it
before it takes the event. -/
def sampleActions : List (WireAction (List Char)) :=
  [.act (.submit 0 System.sampleRequest "00000000-0000-4000-8000-000000000000" System.sampleNow) 0,
    .act (System.sampleSubmit 0) 0, .act (System.sampleSubmit 0) 0,
    .produce .input "garbage" ['n', 'o', 't', ' ', 'J', 'S', 'O', 'N'] 0, .act (.poll 0 1) 0,
    .publishInvalid 0 .acknowledged 2, .commitInvalid 0, .act (.poll 0 0) 0]

theorem sampleActions_allowed : ∀ a ∈ sampleActions, a.Allowed WireFormat.sample := by
  intro a ha
  simp only [sampleActions, List.mem_cons, List.not_mem_nil, or_false] at ha
  rcases ha with rfl | rfl | rfl | rfl | rfl | rfl | rfl | rfl
  · refine ⟨⟨⟨by decide, by decide, by decide⟩, ?_⟩, ⟨by decide, by decide⟩⟩
    rintro _ ⟨⟩
    exact ⟨by decide, by decide⟩
  · trivial
  · trivial
  · intro _
    rfl
  all_goals trivial

/-- **The bytes refine the values.** However the parties take their turns, whatever other producers
write that is no valid event, and wherever workers die: leaving out the foreign messages gives a
run of `System` with the same steps of the platform in the same order, none added, in which offsets
are numbered anew. What a worker polls of the platform's it reads as the event that was sent. -/
theorem bytes_refine_values (format : WireFormat β) (H : Hashing) (maxAttempts : ℤ)
    {as : List (WireAction β)} {w : WireSystem β} (hallowed : ∀ a ∈ as, a.Allowed format)
    (hrun : run format H maxAttempts init as = some w) :
    (∃ as', (as'.map Action.unnumbered).Sublist (as.filterMap WireAction.action?) ∧
      System.run H maxAttempts System.init as' = some w.system) ∧
    (∀ message ∈ w.log, message.topic.subscribed = true → ∀ event,
      message.origin = some (.event event) ↔
        format.readEvent message.value = some event) ∧
    ∀ worker offset, w.workers worker = some (.publishInvalid offset) ∨
      w.workers worker = some (.commitInvalid offset) →
        ∃ message, w.log[offset]? = some message ∧ message.origin = none := by
  obtain ⟨hsound, hsimulated⟩ := sound_of_run hallowed hrun
  refine ⟨hsimulated, ?_, ?_⟩
  · intro message hmem htopic event
    have hmessage := hsound.log message hmem
    rcases hmessage.polled htopic with ⟨sent, horigin, hvalid⟩ | ⟨horigin, hread⟩
    · rw [hmessage.value _ horigin, horigin, format.readEvent_bytes hvalid, Option.some_inj,
        Option.some_inj, Payload.event.injEq]
    · rw [horigin, hread]
      exact ⟨fun h ↦ (by cases h), fun h ↦ (by cases h)⟩
  · rintro worker offset (hturn | hturn)
    · exact hsound.workers hturn
    · obtain ⟨message, hlog, horigin, hletter⟩ := hsound.workers hturn
      exact ⟨message, hlog, horigin⟩

/-- A sample: the poll and the disposal of the foreign message are no steps of `System`. -/
theorem bytes_refine_values_sample : ∃ w : WireSystem (List Char),
    run WireFormat.sample Hashing.sample 3 init sampleActions = some w ∧
    (∃ as', (as'.map Action.unnumbered).Sublist (sampleActions.filterMap WireAction.action?) ∧
      System.run Hashing.sample 3 System.init as' = some w.system) ∧
    ∀ message ∈ w.log, message.topic.subscribed = true → ∀ event,
      message.origin = some (.event event) ↔
        WireFormat.sample.readEvent message.value = some event := by
  obtain ⟨w, hrun⟩ := Option.isSome_iff_exists.mp
    (show (run WireFormat.sample Hashing.sample 3 init sampleActions).isSome = true by decide)
  obtain ⟨hsimulated, hread, hturns⟩ :=
    bytes_refine_values WireFormat.sample Hashing.sample 3 sampleActions_allowed hrun
  exact ⟨w, hrun, hsimulated, hread⟩

/-! ## No message is dropped -/

/-- The broker has acknowledged a result of the job, or a dead letter for it. -/
def Answered (format : WireFormat β) (w : WireSystem β) (jobId : String) : Prop :=
  ∃ message ∈ w.log, message.key = jobId ∧ message.acknowledged = true ∧
    ((message.topic = .result ∧ ∃ result, message.value = format.bytes (.result result)) ∨
      (message.topic = .dlq ∧ ∃ letter, message.value = format.bytes (.deadLetter letter)))

/-- A worker can still receive an event of the job that has not been committed. -/
def Outstanding (format : WireFormat β) (w : WireSystem β) (jobId : String) : Prop :=
  ∃ offset message event, w.log[offset]? = some message ∧ message.topic.subscribed = true ∧
    format.readEvent message.value = some event ∧ event.jobId = jobId ∧ offset ∉ w.committed

theorem Sound.answered_bytes (hsound : w.Sound format) {jobId : String}
    (h : w.system.cluster.Answered jobId) : w.Answered format jobId := by
  have hlift : ∀ {topic payload}, w.system.cluster.Published topic jobId payload →
      ∃ message ∈ w.log, message.key = jobId ∧ message.acknowledged = true ∧
        message.topic = topic ∧ message.value = format.bytes payload := by
    intro topic payload hpublished
    simp only [system, cluster, Cluster.Published, Cluster.behind, view, List.append_nil]
      at hpublished
    obtain ⟨message, hmem, hsent⟩ := List.mem_filterMap.mp hpublished
    obtain ⟨sent, horigin, heq⟩ := Option.map_eq_some_iff.mp hsent
    obtain ⟨htopic, hkey, rfl, hacknowledged⟩ := Message.mk.inj heq
    exact ⟨message, hmem, hkey, hacknowledged, htopic, (hsound.log message hmem).value _ horigin⟩
  rcases h with ⟨result, hpublished⟩ | ⟨letter, hpublished⟩
  · obtain ⟨message, hmem, hkey, hacknowledged, htopic, hvalue⟩ := hlift hpublished
    exact ⟨message, hmem, hkey, hacknowledged, .inl ⟨htopic, result, hvalue⟩⟩
  · obtain ⟨message, hmem, hkey, hacknowledged, htopic, hvalue⟩ := hlift hpublished
    exact ⟨message, hmem, hkey, hacknowledged, .inr ⟨htopic, letter, hvalue⟩⟩

/-- An event that the platform has left uncommitted can be received from its bytes. -/
theorem Sound.outstanding (hsound : w.Sound format) {jobId : String} {rank : ℕ}
    (hwork : w.system.cluster.WorkAt jobId rank) (hfree : rank ∉ w.system.cluster.committed) :
    w.Outstanding format jobId := by
  obtain ⟨event, hpoll, hid⟩ := hwork
  obtain ⟨topic, key, acknowledged, htopic, hlog⟩ := Cluster.poll_eq_some.mp hpoll
  simp only [system, cluster, Cluster.behind, view, List.append_nil] at hlog hfree
  obtain ⟨offset, message, hmessage, hsent, hrank⟩ := exists_of_platformLog hlog
  obtain ⟨payload, horigin, heq⟩ := Option.map_eq_some_iff.mp hsent
  obtain ⟨rfl, rfl, rfl, rfl⟩ := Message.mk.inj heq
  have hmem := List.mem_of_getElem? hmessage
  have hvalid : event.request.Valid := by
    rcases (hsound.log message hmem).polled htopic with ⟨sent, hsent', hvalid⟩ | ⟨hnone, hread⟩
    · rw [horigin] at hsent'
      cases hsent'
      exact hvalid
    · rw [horigin] at hnone
      cases hnone
  refine ⟨offset, message, event, hmessage, htopic, ?_, hid, fun hcommitted ↦ hfree ?_⟩
  · rw [(hsound.log message hmem).value _ horigin, format.readEvent_bytes hvalid]
  · exact List.mem_filterMap.mpr ⟨offset, hcommitted, hrank⟩

/-- **No message is dropped.** In every state of every run on bytes, whatever other producers write
that is no valid event: a message that a worker can receive and whose offset has been committed
either reads as an event, and then its job has been answered or another event of the job is still
to be received, or reads as none, and then the broker has acknowledged a dead letter with the
message's topic, partition and offset. -/
theorem no_message_dropped (format : WireFormat β) (H : Hashing) (maxAttempts : ℤ)
    {as : List (WireAction β)} {w : WireSystem β} (hallowed : ∀ a ∈ as, a.Allowed format)
    (hrun : run format H maxAttempts init as = some w) {offset : ℕ} {message : WireMessage β}
    (hlog : w.log[offset]? = some message) (htopic : message.topic.subscribed = true)
    (hcommitted : offset ∈ w.committed) :
    (∃ event, format.readEvent message.value = some event ∧
      (w.Answered format event.jobId ∨ w.Outstanding format event.jobId)) ∨
    (format.readEvent message.value = none ∧ DeadLettered format w.log offset message) := by
  obtain ⟨hsound, as', hsub, hrun'⟩ := sound_of_run hallowed hrun
  have hmessage := hsound.log message (List.mem_of_getElem? hlog)
  rcases hmessage.polled htopic with ⟨event, horigin, hvalid⟩ | ⟨horigin, hread⟩
  · have htracked : Tracked w.system.cluster :=
      ((isInductive_tracked H maxAttempts).run (System.Holds.init tracked_empty)
        (fun _ _ ↦ trivial) hrun').cluster
    obtain ⟨rank, hrank, hplatform⟩ := exists_rank hlog horigin
    have hwork : w.system.cluster.WorkAt event.jobId rank := by
      refine ⟨event, Cluster.poll_eq_some.mpr
        ⟨message.topic, message.key, message.acknowledged, htopic, ?_⟩, rfl⟩
      simp only [system, cluster, Cluster.behind, view, List.append_nil]
      exact hplatform
    refine .inl ⟨event, by rw [hmessage.value _ horigin, format.readEvent_bytes hvalid], ?_⟩
    rcases htracked.uncommitted_or_answered hwork with ⟨later, hlater, hfree⟩ | hanswered
    · exact .inr (hsound.outstanding hlater hfree)
    · exact .inl (hsound.answered_bytes hanswered)
  · obtain ⟨message', hlog', hletter⟩ := hsound.committed offset hcommitted
    obtain rfl := Option.some_inj.mp (hlog.symm.trans hlog')
    exact .inr ⟨hread, hletter horigin⟩

/-- A sample: the message that is no JSON. -/
theorem no_message_dropped_sample : ∃ w message,
    run WireFormat.sample Hashing.sample 3 init sampleActions = some w ∧ w.log[1]? = some message ∧
    ((∃ event, WireFormat.sample.readEvent message.value = some event ∧
      (w.Answered WireFormat.sample event.jobId ∨ w.Outstanding WireFormat.sample event.jobId)) ∨
    (WireFormat.sample.readEvent message.value = none ∧
      DeadLettered WireFormat.sample w.log 1 message)) := by
  obtain ⟨w, hrun, hw⟩ := Option.bind_eq_some_iff.mp
    (show ((run WireFormat.sample Hashing.sample 3 init sampleActions).bind fun w ↦
      w.log[1]?.map fun message ↦ (message.topic.subscribed, decide (1 ∈ w.committed)))
        = some (true, true) by decide)
  obtain ⟨message, hlog, hmessage⟩ := Option.map_eq_some_iff.mp hw
  obtain ⟨htopic, hcommitted⟩ := Prod.mk.inj hmessage
  exact ⟨w, message, hrun, hlog,
    no_message_dropped WireFormat.sample Hashing.sample 3 sampleActions_allowed hrun hlog htopic
      (of_decide_eq_true hcommitted)⟩

end WireSystem

end Sentinel
