import Sentinel.Distributed.Delivery
import Sentinel.Distributed.Worker

/-!
# What a log of bytes stands for

The abstraction of a system on bytes leaves out what other producers have written and the dead
letters of invalid messages, and renumbers the offsets. The invariant `Sound` says what a log of
bytes consists of. Its three parts are stable under growth of the log, and each of them mentions one
message, one turn or one call at a time.
-/

namespace Sentinel

theorem tracked_empty : Tracked Cluster.empty where
  backed _ _ hget := by cases hget
  committed _ hmem := by cases hmem
  committed_lt _ hmem := by cases hmem

/-! ## What is published -/

/-- A view of a cluster behind the log and the commits that the view leaves out. -/
def Cluster.behind (c : Cluster) (log : List Message) (committed : List ℕ) : Cluster where
  store := c.store
  log := log ++ c.log
  committed := committed
  created := c.created
  engineRuns := c.engineRuns

theorem Cluster.publish_behind (c : Cluster) (log : List Message) (committed : List ℕ)
    (topic : Topic) (key : String) (payload : Payload) (outcome : PublishOutcome) :
    (c.behind log committed).publish topic key payload outcome
      = ((c.publish topic key payload outcome).1,
        (c.publish topic key payload outcome).2.behind log committed) := by
  cases outcome <;> simp [publish, append, behind, List.append_assoc]

theorem Cluster.create_behind (c : Cluster) (log : List Message) (committed : List ℕ)
    (storedJob : StoredModerationJob) :
    (c.behind log committed).create storedJob
      = ((c.create storedJob).1, (c.create storedJob).2.behind log committed) := by
  cases hget : c.store.get storedJob.job.jobId with
  | none =>
    rw [create_of_eq_none hget, create_of_eq_none (c := c.behind log committed) hget]
    rfl
  | some record =>
    have htaken : (c.store.get storedJob.job.jobId).isSome := by rw [hget, Option.isSome_some]
    rw [create_of_isSome htaken, create_of_isSome (c := c.behind log committed) htaken]

/-- `submit` does not read the log. -/
theorem SubmitCall.step_behind (H : Hashing) (call : SubmitCall) (now : DateTime)
    (outcome : PublishOutcome) (c : Cluster) (log : List Message) (committed : List ℕ) :
    call.step H now outcome (c.behind log committed)
      = (call.step H now outcome c).map fun (c', point) ↦ (c'.behind log committed, point) := by
  simp only [step]
  cases call.point with
  | create storedJob =>
    simp only [Cluster.create_behind]
    rcases c.create storedJob with ⟨_ | _, c'⟩ <;> rfl
  | publish storedJob replay =>
    simp only [Cluster.publish_behind]
    cases outcome <;> rfl
  | get | saveFailed _ _ | saveAccepted _ | returned _ | raised _ | crashed => rfl

theorem Delivery.step_behind (maxAttempts : ℤ) (delivery : Delivery) (now : DateTime)
    (outcome : PublishOutcome) (reply : Option ModerationResponse) (c : Cluster)
    (log : List Message) (committed : List ℕ) :
    delivery.step maxAttempts now outcome reply (c.behind log committed)
      = (delivery.step maxAttempts now outcome reply c).map fun (c', point) ↦
        (c'.behind log committed, point) := by
  simp only [step]
  cases delivery.point with
  | publishMissing | publishResult _ _ | publishRetry _ _ | publishExhausted _ =>
    simp only [Cluster.publish_behind]
    cases outcome <;> rfl
  | get | saveProcessing _ | moderate _ | saveSucceeded _ | saveRetrying _ | saveFailed _
    | returned => rfl

/-! ## The messages of the platform -/

section Platform

variable {β : Type}

/-- The message of the platform that the bytes stand for, if they are the platform's. -/
def WireMessage.message? (message : WireMessage β) : Option Message :=
  message.origin.map fun payload ↦ ⟨message.topic, message.key, payload, message.acknowledged⟩

def platformLog (log : List (WireMessage β)) : List Message := log.filterMap WireMessage.message?

/-- The offset of a message among those of the platform. -/
def rank? (log : List (WireMessage β)) (offset : ℕ) : Option ℕ :=
  (log[offset]?.bind WireMessage.message?).map fun _ ↦ (platformLog (log.take offset)).length

variable {log new : List (WireMessage β)} {offset : ℕ}

theorem platformLog_append (log new : List (WireMessage β)) :
    platformLog (log ++ new) = platformLog log ++ platformLog new :=
  List.filterMap_append

@[simp] theorem platformLog_map_send (format : WireFormat β) (partition : ℕ)
    (messages : List Message) :
    platformLog (messages.map (WireSystem.send format partition)) = messages := by
  rw [platformLog, List.filterMap_map]
  exact List.filterMap_some

theorem rank?_append (h : offset < log.length) : rank? (log ++ new) offset = rank? log offset := by
  rw [rank?, rank?, List.getElem?_append_left h, List.take_append_of_le_length h.le]

theorem rank?_eq_some {message : WireMessage β} {sent : Message}
    (hlog : log[offset]? = some message) (hsent : message.message? = some sent) :
    ∃ rank, rank? log offset = some rank ∧ (platformLog log)[rank]? = some sent := by
  refine ⟨(platformLog (log.take offset)).length, ?_, ?_⟩
  · rw [rank?, hlog, Option.bind_some, hsent, Option.map_some]
  · obtain ⟨hlt, hget⟩ := List.getElem?_eq_some_iff.mp hlog
    have hsplit : log = log.take offset ++ message :: log.drop (offset + 1) := by
      rw [← hget, List.getElem_cons_drop, List.take_append_drop]
    have hplatform : platformLog log
        = platformLog (log.take offset) ++ sent :: platformLog (log.drop (offset + 1)) := by
      conv_lhs => rw [hsplit, platformLog_append]
      rw [platformLog, platformLog, platformLog, List.filterMap_cons_some hsent]
    rw [hplatform, List.getElem?_append_right le_rfl, Nat.sub_self]
    rfl

theorem exists_rank {message : WireMessage β} {event : ModerationJobEvent}
    (hlog : log[offset]? = some message) (horigin : message.origin = some (.event event)) :
    ∃ rank, rank? log offset = some rank ∧ (platformLog log)[rank]?
      = some ⟨message.topic, message.key, .event event, message.acknowledged⟩ :=
  rank?_eq_some hlog (by rw [WireMessage.message?, horigin, Option.map_some])

theorem exists_of_platformLog {rank : ℕ} {sent : Message}
    (h : (platformLog log)[rank]? = some sent) : ∃ offset message, log[offset]? = some message ∧
      message.message? = some sent ∧ rank? log offset = some rank := by
  induction log using List.reverseRecOn with
  | nil => cases h
  | append_singleton log message ih =>
    rw [platformLog_append] at h
    by_cases hlt : rank < (platformLog log).length
    · rw [List.getElem?_append_left hlt] at h
      obtain ⟨offset, earlier, hlog, hsent, hrank⟩ := ih h
      have hoffset := (List.getElem?_eq_some_iff.mp hlog).1
      exact ⟨offset, earlier, by rw [List.getElem?_append_left hoffset, hlog], hsent,
        by rw [rank?_append hoffset, hrank]⟩
    · rw [List.getElem?_append_right (not_lt.mp hlt), platformLog] at h
      cases hmessage : message.message? with
      | none =>
        rw [List.filterMap_cons_none hmessage] at h
        cases h
      | some sent' =>
        rw [List.filterMap_cons_some hmessage, List.filterMap_nil, List.getElem?_singleton] at h
        split_ifs at h with hzero
        obtain rfl := Option.some_inj.mp h
        refine ⟨log.length, message, List.getElem?_concat_length, hmessage, ?_⟩
        rw [rank?, List.getElem?_concat_length, Option.bind_some, hmessage, Option.map_some,
          List.take_left, Option.some_inj]
        omega

/-- What a worker holds of the platform's. -/
def Turn.delivery? (log : List (WireMessage β)) : Turn → Option Delivery
  | .process delivery => (rank? log delivery.offset).map fun rank ↦ { delivery with offset := rank }
  | .publishInvalid _ | .commitInvalid _ => none

namespace WireSystem

variable (w : WireSystem β)

/-- The cluster, as far as the platform's own messages go. -/
def cluster : Cluster :=
  w.view.behind (platformLog w.log) (w.committed.filterMap (rank? w.log))

/-- **The abstraction.** The system, as far as the platform's own messages go. -/
def system : System where
  cluster := w.cluster
  submits := w.submits
  workers worker := (w.workers worker).bind (Turn.delivery? w.log)

end WireSystem

end Platform

/-! ## What a log of bytes consists of -/

/-- What `submit` has been called with has been checked, and the id it would draw is one. -/
structure SubmitCall.Valid (call : SubmitCall) : Prop where
  request : call.request.Valid
  uuid4 : ValidId call.uuid4

theorem SubmitCall.Valid.normalizedRequest {call : SubmitCall} (h : call.Valid) :
    call.normalizedRequest.Valid := by
  refine ⟨h.request.text, ?_⟩
  rintro _ ⟨⟩
  rw [requestId]
  split
  · rename_i given hgiven
    split_ifs
    · exact h.uuid4
    · exact h.request.requestId given hgiven
  · exact h.uuid4

section Sound

variable {β : Type} (format : WireFormat β)

/-- A message of the platform holds the bytes of its payload, and a message that a worker may poll
is a valid event of the platform or no event at all. -/
structure WireMessage.Sound (message : WireMessage β) : Prop where
  value : ∀ payload, message.origin = some payload → message.value = format.bytes payload
  polled : message.topic.subscribed = true →
    (∃ event, message.origin = some (.event event) ∧ event.request.Valid) ∨
    (message.origin = none ∧ format.readEvent message.value = none)

/-- The broker has acknowledged the dead letter of the message, with its coordinates. -/
def DeadLettered (log : List (WireMessage β)) (offset : ℕ) (message : WireMessage β) : Prop :=
  ∃ partition, invalidLetter format log offset message partition true ∈ log

/-- The offset holds a message, and unless it is the platform's it has been dead-lettered. -/
def Accounted (log : List (WireMessage β)) (offset : ℕ) : Prop :=
  ∃ message, log[offset]? = some message ∧
    (message.origin = none → DeadLettered format log offset message)

/-- What a worker is doing fits the message it has polled. -/
def Turn.Sound (log : List (WireMessage β)) : Turn → Prop
  | .process delivery =>
    (∃ message, log[delivery.offset]? = some message ∧ message.topic.subscribed = true ∧
      message.origin = some (.event delivery.event)) ∧
    delivery.event.request.Valid ∧
    ∀ processing retryEvent, delivery.point = .publishRetry processing retryEvent →
      retryEvent.request = delivery.event.request
  | .publishInvalid offset => ∃ message, log[offset]? = some message ∧ message.origin = none
  | .commitInvalid offset => ∃ message, log[offset]? = some message ∧ message.origin = none ∧
      DeadLettered format log offset message

/-- The invariant of the runs on bytes. -/
structure WireSystem.Sound (w : WireSystem β) : Prop where
  submits : ∀ {client call}, w.submits client = some call → call.Valid
  log : ∀ message ∈ w.log, message.Sound format
  workers : ∀ {worker turn}, w.workers worker = some turn → turn.Sound format w.log
  committed : ∀ offset ∈ w.committed, Accounted format w.log offset

/-- What the platform and the other producers may do: requests have been checked before they are
submitted, and nobody else sends what is a valid event. -/
def WireAction.Allowed : WireAction β → Prop
  | .act (.submit _ request uuid4 _) _ => request.Valid ∧ ValidId uuid4
  | .produce topic _ value _ => topic.subscribed = true → format.readEvent value = none
  | _ => True

end Sound

/-! ### Growth -/

section Growth

variable {β : Type} {format : WireFormat β} {log new : List (WireMessage β)} {offset : ℕ}

theorem getElem?_append_of_eq_some {α : Type*} {l l' : List α} {i : ℕ} {x : α}
    (h : l[i]? = some x) : (l ++ l')[i]? = some x := by
  rw [List.getElem?_append_left (List.getElem?_eq_some_iff.mp h).1, h]

theorem invalidLetter_append (h : offset < log.length) (message : WireMessage β) (partition : ℕ)
    (acknowledged : Bool) : invalidLetter format (log ++ new) offset message partition acknowledged
      = invalidLetter format log offset message partition acknowledged := by
  have hoffset : brokerOffset (log ++ new) offset message = brokerOffset log offset message := by
    rw [brokerOffset, brokerOffset, List.take_append_of_le_length h.le]
  simp only [invalidLetter, invalidKey, invalidPayload, hoffset]

theorem DeadLettered.append {message : WireMessage β} (hlt : offset < log.length)
    (h : DeadLettered format log offset message) :
    DeadLettered format (log ++ new) offset message := by
  obtain ⟨partition, hmem⟩ := h
  refine ⟨partition, ?_⟩
  rw [invalidLetter_append hlt]
  exact List.mem_append_left new hmem

theorem Accounted.append (h : Accounted format log offset) :
    Accounted format (log ++ new) offset := by
  obtain ⟨message, hlog, hletter⟩ := h
  exact ⟨message, getElem?_append_of_eq_some hlog,
    fun horigin ↦ (hletter horigin).append (List.getElem?_eq_some_iff.mp hlog).1⟩

theorem Turn.Sound.append {turn : Turn} (h : turn.Sound format log) :
    turn.Sound format (log ++ new) := by
  cases turn with
  | process delivery =>
    obtain ⟨⟨message, hlog, hmessage⟩, hvalid⟩ := h
    exact ⟨⟨message, getElem?_append_of_eq_some hlog, hmessage⟩, hvalid⟩
  | publishInvalid offset =>
    obtain ⟨message, hlog, horigin⟩ := h
    exact ⟨message, getElem?_append_of_eq_some hlog, horigin⟩
  | commitInvalid offset =>
    obtain ⟨message, hlog, horigin, hletter⟩ := h
    exact ⟨message, getElem?_append_of_eq_some hlog, horigin,
      hletter.append (List.getElem?_eq_some_iff.mp hlog).1⟩

end Growth

/-! ## The parties one at a time -/

namespace WireSystem

variable {β : Type} {format : WireFormat β} {w w' : WireSystem β}

theorem Sound.append {new : List (WireMessage β)} (h : w.Sound format)
    (hnew : ∀ message ∈ new, message.Sound format) (hlog : w'.log = w.log ++ new)
    (hsubmits : w'.submits = w.submits) (hworkers : w'.workers = w.workers)
    (hcommitted : w'.committed = w.committed) : w'.Sound format where
  submits hcall := h.submits (hsubmits ▸ hcall)
  log message hmem := by
    rw [hlog] at hmem
    rcases List.mem_append.mp hmem with hmem | hmem
    · exact h.log message hmem
    · exact hnew message hmem
  workers hturn := hlog ▸ (h.workers (hworkers ▸ hturn)).append
  committed offset hmem := hlog ▸ (h.committed offset (hcommitted ▸ hmem)).append

theorem Sound.setTurn {worker : ℕ} {next : Option Turn} (h : w.Sound format)
    (hnext : ∀ turn ∈ next, turn.Sound format w.log) : (w.setTurn worker next).Sound format where
  submits := h.submits
  log := h.log
  workers {worker' turn} hturn := by
    simp only [WireSystem.setTurn, Function.update_apply] at hturn
    split_ifs at hturn
    · exact hnext turn hturn
    · exact h.workers hturn
  committed := h.committed

theorem Sound.setCall {client : ℕ} {call : SubmitCall} (h : w.Sound format) (hcall : call.Valid) :
    (w.setCall client call).Sound format where
  submits {client' call'} hcall' := by
    simp only [WireSystem.setCall, Function.update_apply] at hcall'
    split_ifs at hcall'
    · exact Option.some_inj.mp hcall' ▸ hcall
    · exact h.submits hcall'
  log := h.log
  workers := h.workers
  committed := h.committed

theorem Sound.commit {offset : ℕ} (h : w.Sound format) (hoffset : Accounted format w.log offset) :
    Sound format { w with committed := offset :: w.committed } where
  submits := h.submits
  log := h.log
  workers := h.workers
  committed offset' hmem := by
    rcases List.mem_cons.mp hmem with rfl | hmem
    · exact hoffset
    · exact h.committed offset' hmem

/-! ### The abstraction of a change -/

theorem system_setTurn (w : WireSystem β) (worker : ℕ) (next : Option Turn) :
    (w.setTurn worker next).system
      = { w.system with
          workers := Function.update w.system.workers worker
            (next.bind (Turn.delivery? w.log)) } := by
  have hworkers : (fun worker' ↦ (Function.update w.workers worker next worker').bind
      (Turn.delivery? w.log)) = Function.update w.system.workers worker
        (next.bind (Turn.delivery? w.log)) := by
    funext worker'
    rw [Function.update_apply, Function.update_apply]
    split_ifs <;> rfl
  rw [system]
  exact congrArg (System.mk w.cluster w.submits) hworkers

theorem system_setCall (w : WireSystem β) (client : ℕ) (call : SubmitCall) :
    (w.setCall client call).system
      = { w.system with submits := Function.update w.system.submits client (some call) } := rfl

theorem Sound.system_append (h : w.Sound format) (grown : WireSystem β)
    {new : List (WireMessage β)} (hlog : grown.log = w.log ++ new)
    (hsubmits : grown.submits = w.submits) (hworkers : grown.workers = w.workers)
    (hcommitted : grown.committed = w.committed) :
    grown.system = { w.system with
      cluster := grown.view.behind (platformLog w.log ++ platformLog new)
        (w.committed.filterMap (rank? w.log)) } := by
  have hranks : w.committed.filterMap (rank? (w.log ++ new))
      = w.committed.filterMap (rank? w.log) := by
    refine List.filterMap_congr fun offset hmem ↦ ?_
    obtain ⟨message, hmessage, hletter⟩ := h.committed offset hmem
    exact rank?_append (List.getElem?_eq_some_iff.mp hmessage).1
  have hturns : ∀ worker, (w.workers worker).bind (Turn.delivery? (w.log ++ new))
      = (w.workers worker).bind (Turn.delivery? w.log) := by
    intro worker
    cases hturn : w.workers worker with
    | none => rfl
    | some turn =>
      rw [Option.bind_some, Option.bind_some]
      cases turn with
      | process delivery =>
        obtain ⟨⟨message, hmessage, hpoll⟩, hvalid⟩ := h.workers hturn
        rw [Turn.delivery?, Turn.delivery?,
          rank?_append (List.getElem?_eq_some_iff.mp hmessage).1]
      | publishInvalid | commitInvalid => rfl
  simp only [system, cluster, hlog, hsubmits, hworkers, hcommitted, hranks, hturns,
    platformLog_append]

theorem Sound.system_after (h : w.Sound format) (partition : ℕ) (c : Cluster) :
    (w.after format partition c).system = { w.system with
      cluster := c.behind (platformLog w.log) (w.committed.filterMap (rank? w.log)) } := by
  rw [h.system_append (w.after format partition c) rfl rfl rfl rfl, platformLog_map_send]
  simp only [Cluster.behind, view, after, List.append_nil]

end WireSystem

/-! ### What the parties publish -/

theorem SubmitCall.Moves.sent {H : Hashing} {call : SubmitCall} {c c' : Cluster}
    {point : SubmitPoint} (h : call.Moves H c c' point) {message : Message}
    (hmem : message ∈ c'.log) : message ∈ c.log ∨ message.payload = .event (call.event H) := by
  cases h with
  | created | taken | disappeared | conflict | replay | existing | failed | accepted =>
    exact .inl hmem
  | published | republished =>
    rcases List.mem_append.mp hmem with hmem | hmem
    · exact .inl hmem
    · exact .inr (by rw [List.mem_singleton.mp hmem])
  | unpublished storedJob replay now c' hpoint hc' =>
    rcases hc' with rfl | rfl
    · exact .inl hmem
    · rcases List.mem_append.mp hmem with hmem | hmem
      · exact .inl hmem
      · exact .inr (by rw [List.mem_singleton.mp hmem])

namespace Delivery

variable {maxAttempts : ℤ} {delivery : Delivery} {c c' : Cluster} {point : Option ProcessPoint}

theorem publication_cases {topic : Topic} {payload : Payload}
    (h : delivery.publication = some (topic, payload)) :
    topic.subscribed = false ∨ ∃ processing retryEvent,
      delivery.point = .publishRetry processing retryEvent ∧ payload = .event retryEvent := by
  rw [publication] at h
  split at h
  · cases h
    exact .inl rfl
  · cases h
    exact .inl rfl
  · rename_i processing retryEvent hpoint
    cases h
    exact .inr ⟨processing, retryEvent, hpoint, rfl⟩
  · cases h
    exact .inl rfl
  · cases h

theorem Moves.sent (h : delivery.Moves maxAttempts c c' point) {message : Message}
    (hmem : message ∈ c'.log) :
    message ∈ c.log ∨ delivery.publication = some (message.topic, message.payload) := by
  cases h with
  | missing | duplicate | taken | processing | moderated | failedRetry | failedLast | succeeded
    | retrying | failed => exact .inl hmem
  | publishedMissing hpoint | publishedResult _ _ _ hpoint | publishedRetry _ _ _ hpoint
    | publishedExhausted _ _ hpoint =>
    rcases List.mem_append.mp hmem with hmem | hmem
    · exact .inl hmem
    · rw [List.mem_singleton.mp hmem, publication, hpoint]
      exact .inr rfl
  | unpublished topic payload c' hpublication hc' =>
    rcases hc' with rfl | rfl
    · exact .inl hmem
    · rcases List.mem_append.mp hmem with hmem | hmem
      · exact .inl hmem
      · rw [List.mem_singleton.mp hmem]
        exact .inr hpublication

theorem Moves.retryEvent (h : delivery.Moves maxAttempts c c' point)
    {processing : StoredModerationJob} {retryEvent : ModerationJobEvent}
    (hpoint : point = some (.publishRetry processing retryEvent)) :
    retryEvent.request = delivery.event.request := by
  cases h <;> cases hpoint
  rfl

end Delivery
end Sentinel
