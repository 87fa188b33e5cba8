import Sentinel.Distributed.Processor
import Sentinel.Distributed.Service
import Sentinel.Transition.Run

/-!
# The distributed system

Any number of `submit` calls and workers over one cluster. An action lets one party make its next
request, or lets the environment intervene: a process dies between two requests, a key expires. The
replies that the environment chooses (clocks, outcomes of publications, the engine's answers) are
part of the action, so a run is determined by its list of actions and every interleaving is a run.

A worker's loop is `poll`, then `process`, then `commit`. Nothing restricts which event a poll
returns: any input or retry event, at any time, to any worker, whether or not its offset has been
committed. This covers every redelivery that the broker can produce.

The last section is the rule all global invariants are proved with. An invariant has three parts:
one about the cluster, one about each call of `submit`, one about each delivery. If the parts about
calls and deliveries survive the growth of the cluster, then it is enough to look at one party at a
time: what it does with the cluster, and where it stands afterwards.
-/

namespace Sentinel

/-- All parties, and what they share. -/
structure System where
  cluster : Cluster
  /-- The calls of `submit`, by client; a client makes one call. -/
  submits : ℕ → Option SubmitCall
  /-- What each worker is processing, if anything. -/
  workers : ℕ → Option Delivery

/-- One step of one party, with the choices of the environment. -/
inductive Action
  /-- A client calls `submit`. -/
  | submit (client : ℕ) (request : ModerationRequest) (uuid4 : String) (now : DateTime)
  /-- A call makes its next request. -/
  | submitStep (client : ℕ) (now : DateTime) (outcome : PublishOutcome)
  /-- A call dies, or its next store request raises. -/
  | submitCrash (client : ℕ)
  /-- A worker receives the event at the offset. -/
  | poll (worker offset : ℕ)
  /-- A worker makes the next request of `process`. -/
  | processStep (worker : ℕ) (now : DateTime) (outcome : PublishOutcome)
      (reply : Option ModerationResponse)
  /-- A worker commits the offset of the event it has processed. -/
  | commit (worker : ℕ)
  /-- A worker dies, or its next store request raises. -/
  | workerCrash (worker : ℕ)
  /-- The key of a job expires. -/
  | expire (jobId : String)

def Action.keepsKeys : Action → Bool
  | .expire _ => false
  | _ => true

def Topic.subscribed : Topic → Bool
  | .input | .retry => true
  | .result | .dlq => false

/-- The event that a poll of the offset yields. -/
def Cluster.poll (c : Cluster) (offset : ℕ) : Option ModerationJobEvent :=
  match c.log[offset]? with
  | some ⟨topic, _, .event event, _⟩ => if topic.subscribed then some event else none
  | _ => none

namespace System

def init : System := ⟨Cluster.empty, fun _ ↦ none, fun _ ↦ none⟩

def step (H : Hashing) (maxAttempts : ℤ) (s : System) : Action → Option System
  | .submit client request uuid4 now =>
    match s.submits client with
    | none =>
      some { s with
        submits := Function.update s.submits client (some (submit H request uuid4 now)) }
    | some _ => none
  | .submitStep client now outcome =>
    match s.submits client with
    | none => none
    | some call => (call.step H now outcome s.cluster).map fun (cluster, point) ↦
        { s with
          cluster := cluster
          submits := Function.update s.submits client (some { call with point := point }) }
  | .submitCrash client =>
    match s.submits client with
    | none => none
    | some call =>
      if call.point.inProgress then
        some { s with
          submits := Function.update s.submits client (some { call with point := .crashed }) }
      else none
  | .poll worker offset =>
    match s.workers worker with
    | some _ => none
    | none => (s.cluster.poll offset).map fun event ↦
        { s with workers := Function.update s.workers worker (some ⟨offset, event, .get⟩) }
  | .processStep worker now outcome reply =>
    match s.workers worker with
    | none => none
    | some delivery =>
      (delivery.step maxAttempts now outcome reply s.cluster).map fun (cluster, point) ↦
        { s with
          cluster := cluster
          workers := Function.update s.workers worker
            (point.map fun point ↦ { delivery with point := point }) }
  | .commit worker =>
    match s.workers worker with
    | none => none
    | some delivery =>
      if delivery.point = .returned then
        some { s with
          cluster := s.cluster.commit delivery.offset
          workers := Function.update s.workers worker none }
      else none
  | .workerCrash worker =>
    match s.workers worker with
    | none => none
    | some _ => some { s with workers := Function.update s.workers worker none }
  | .expire jobId => some { s with cluster := s.cluster.expire jobId }

inductive Moves (H : Hashing) (maxAttempts : ℤ) (s : System) : Action → System → Prop
  | submit (client : ℕ) (request : ModerationRequest) (uuid4 : String) (now : DateTime)
      (hfree : s.submits client = none) :
      Moves H maxAttempts s (.submit client request uuid4 now)
        { s with
          submits := Function.update s.submits client (some (submit H request uuid4 now)) }
  | submitStep (client : ℕ) (now : DateTime) (outcome : PublishOutcome) (call : SubmitCall)
      (cluster : Cluster) (point : SubmitPoint) (hcall : s.submits client = some call)
      (hmoves : call.Moves H s.cluster cluster point) :
      Moves H maxAttempts s (.submitStep client now outcome)
        { s with
          cluster := cluster
          submits := Function.update s.submits client (some { call with point := point }) }
  | submitCrash (client : ℕ) (call : SubmitCall) (hcall : s.submits client = some call)
      (hin : call.point.inProgress = true) :
      Moves H maxAttempts s (.submitCrash client)
        { s with
          submits := Function.update s.submits client (some { call with point := .crashed }) }
  | poll (worker offset : ℕ) (event : ModerationJobEvent) (hidle : s.workers worker = none)
      (hpoll : s.cluster.poll offset = some event) :
      Moves H maxAttempts s (.poll worker offset)
        { s with workers := Function.update s.workers worker (some ⟨offset, event, .get⟩) }
  | processStep (worker : ℕ) (now : DateTime) (outcome : PublishOutcome)
      (reply : Option ModerationResponse) (delivery : Delivery) (cluster : Cluster)
      (point : Option ProcessPoint) (hdelivery : s.workers worker = some delivery)
      (hmoves : delivery.Moves maxAttempts s.cluster cluster point) :
      Moves H maxAttempts s (.processStep worker now outcome reply)
        { s with
          cluster := cluster
          workers := Function.update s.workers worker
            (point.map fun point ↦ { delivery with point := point }) }
  | commit (worker : ℕ) (delivery : Delivery) (hdelivery : s.workers worker = some delivery)
      (hpoint : delivery.point = .returned) :
      Moves H maxAttempts s (.commit worker)
        { s with
          cluster := s.cluster.commit delivery.offset
          workers := Function.update s.workers worker none }
  | workerCrash (worker : ℕ) (delivery : Delivery)
      (hdelivery : s.workers worker = some delivery) :
      Moves H maxAttempts s (.workerCrash worker)
        { s with workers := Function.update s.workers worker none }
  | expire (jobId : String) :
      Moves H maxAttempts s (.expire jobId) { s with cluster := s.cluster.expire jobId }

variable {H : Hashing} {maxAttempts : ℤ}

/-- **Inversion of an action.** -/
theorem moves_of_step {s s' : System} {a : Action} (h : step H maxAttempts s a = some s') :
    s.Moves H maxAttempts a s' := by
  cases a with
  | submit client request uuid4 now =>
    simp only [step] at h
    split at h
    · rename_i hfree
      cases h
      exact .submit client request uuid4 now hfree
    · cases h
  | submitStep client now outcome =>
    simp only [step] at h
    split at h
    · cases h
    · rename_i call hcall
      obtain ⟨⟨cluster, point⟩, hstep, rfl⟩ := Option.map_eq_some_iff.mp h
      exact .submitStep client now outcome call cluster point hcall
        (SubmitCall.moves_of_step hstep)
  | submitCrash client =>
    simp only [step] at h
    split at h
    · cases h
    · rename_i call hcall
      split_ifs at h with hin
      cases h
      exact .submitCrash client call hcall hin
  | poll worker offset =>
    simp only [step] at h
    split at h
    · cases h
    · rename_i hidle
      obtain ⟨event, hpoll, rfl⟩ := Option.map_eq_some_iff.mp h
      exact .poll worker offset event hidle hpoll
  | processStep worker now outcome reply =>
    simp only [step] at h
    split at h
    · cases h
    · rename_i delivery hdelivery
      obtain ⟨⟨cluster, point⟩, hstep, rfl⟩ := Option.map_eq_some_iff.mp h
      exact .processStep worker now outcome reply delivery cluster point hdelivery
        (Delivery.moves_of_step hstep)
  | commit worker =>
    simp only [step] at h
    split at h
    · cases h
    · rename_i delivery hdelivery
      split_ifs at h with hpoint
      cases h
      exact .commit worker delivery hdelivery hpoint
  | workerCrash worker =>
    simp only [step] at h
    split at h
    · cases h
    · rename_i delivery hdelivery
      cases h
      exact .workerCrash worker delivery hdelivery
  | expire jobId =>
    cases h
    exact .expire jobId

theorem Moves.grows {s s' : System} {a : Action} (h : s.Moves H maxAttempts a s') :
    s.cluster.Grows s'.cluster := by
  cases h with
  | submit | submitCrash | poll | workerCrash => exact Cluster.Grows.refl _
  | submitStep _ _ _ _ _ _ _ hmoves => exact hmoves.grows
  | processStep _ _ _ _ _ _ _ _ hmoves => exact hmoves.grows
  | commit => exact Cluster.grows_commit _ _
  | expire => exact Cluster.grows_expire _ _

/-! ## Runs -/

abbrev run (H : Hashing) (maxAttempts : ℤ) : System → List Action → Option System :=
  Transition.run (step H maxAttempts)

/-! ## The parties that do not move -/

/-- Only these many clients and these many workers act. -/
def among (clients workers : ℕ) : Action → Bool
  | .submit client _ _ _ | .submitStep client _ _ | .submitCrash client => client < clients
  | .poll worker _ | .processStep worker _ _ _ | .commit worker | .workerCrash worker =>
    worker < workers
  | .expire _ => true

theorem Moves.others {s s' : System} {a : Action} (h : s.Moves H maxAttempts a s')
    {clients workers : ℕ} (hamong : among clients workers a = true) :
    (∀ client, clients ≤ client → s'.submits client = s.submits client) ∧
      ∀ worker, workers ≤ worker → s'.workers worker = s.workers worker := by
  cases h with
  | submit | submitStep | submitCrash =>
    have hlt := of_decide_eq_true hamong
    exact ⟨fun client hle ↦ Function.update_of_ne (hlt.trans_le hle).ne' _ _, fun _ _ ↦ rfl⟩
  | poll | processStep | commit | workerCrash =>
    have hlt := of_decide_eq_true hamong
    exact ⟨fun _ _ ↦ rfl, fun worker hle ↦ Function.update_of_ne (hlt.trans_le hle).ne' _ _⟩
  | expire => exact ⟨fun _ _ ↦ rfl, fun _ _ ↦ rfl⟩

theorem others_of_run {as : List Action} {s : System} {clients workers : ℕ}
    (hamong : ∀ a ∈ as, among clients workers a = true)
    (hrun : run H maxAttempts init as = some s) :
    (∀ client, clients ≤ client → s.submits client = none) ∧
      ∀ worker, workers ≤ worker → s.workers worker = none := by
  refine Transition.run_invariant_along (P := fun s ↦
      (∀ client, clients ≤ client → s.submits client = none) ∧
        ∀ worker, workers ≤ worker → s.workers worker = none)
    (C := fun _ a ↦ among clients workers a = true) ?_ ⟨fun _ _ ↦ rfl, fun _ _ ↦ rfl⟩
    (Transition.along_of_forall id init hamong) hrun
  intro s a s' hs ha hstep
  obtain ⟨hsubmits, hworkers⟩ := (moves_of_step hstep).others ha
  exact ⟨fun client hle ↦ (hsubmits client hle).trans (hs.1 client hle),
    fun worker hle ↦ (hworkers worker hle).trans (hs.2 worker hle)⟩

/-! ## Invariants by parts -/

/-- An invariant in three parts: of the cluster, of the calls of `submit`, of the deliveries. -/
structure Holds (P : Cluster → Prop) (Q : Cluster → SubmitCall → Prop)
    (R : Cluster → Delivery → Prop) (s : System) : Prop where
  cluster : P s.cluster
  submits : ∀ {client call}, s.submits client = some call → Q s.cluster call
  workers : ∀ {worker delivery}, s.workers worker = some delivery → R s.cluster delivery

/-- What has to be shown, one party at a time, for the parts to make up an invariant of all runs
whose actions are allowed. -/
structure IsInductive (H : Hashing) (maxAttempts : ℤ) (allowed : Action → Prop)
    (P : Cluster → Prop) (Q : Cluster → SubmitCall → Prop) (R : Cluster → Delivery → Prop) :
    Prop where
  /-- A call's part survives what others do. -/
  submit_mono : ∀ {c c' call}, c.Grows c' → Q c call → Q c' call
  /-- A delivery's part survives what others do. -/
  delivery_mono : ∀ {c c' delivery}, c.Grows c' → R c delivery → R c' delivery
  submit : ∀ {c} request uuid4 now, P c → Q c (Sentinel.submit H request uuid4 now)
  submitStep : ∀ {c c' call point}, P c → Q c call → call.Moves H c c' point →
    P c' ∧ Q c' { call with point := point }
  submitCrash : ∀ {c call}, Q c call → Q c { call with point := .crashed }
  poll : ∀ {c offset event}, P c → c.poll offset = some event → R c ⟨offset, event, .get⟩
  processStep : ∀ {c c' delivery point}, P c → R c delivery →
    delivery.Moves maxAttempts c c' point →
    P c' ∧ ∀ next ∈ point, R c' { delivery with point := next }
  commit : ∀ {c delivery}, P c → R c delivery → delivery.point = .returned →
    P (c.commit delivery.offset)
  expire : ∀ {c} jobId, allowed (.expire jobId) → P c → P (c.expire jobId)

section Holds

variable {allowed : Action → Prop} {P : Cluster → Prop} {Q : Cluster → SubmitCall → Prop}
  {R : Cluster → Delivery → Prop}

theorem submits_update {s : System} {c' : Cluster} {client : ℕ} {call : SubmitCall}
    (hmono : ∀ {call}, Q s.cluster call → Q c' call) (hnew : Q c' call)
    (h : ∀ {client call}, s.submits client = some call → Q s.cluster call) {client' : ℕ}
    {call' : SubmitCall}
    (h' : Function.update s.submits client (some call) client' = some call') : Q c' call' := by
  rw [Function.update_apply] at h'
  split_ifs at h' with hclient
  · exact Option.some_inj.mp h' ▸ hnew
  · exact hmono (h h')

theorem workers_update {s : System} {c' : Cluster} {worker : ℕ}
    {next : Option Delivery} (hmono : ∀ {delivery}, R s.cluster delivery → R c' delivery)
    (hnew : ∀ delivery ∈ next, R c' delivery)
    (h : ∀ {worker delivery}, s.workers worker = some delivery → R s.cluster delivery)
    {worker' : ℕ} {delivery' : Delivery}
    (h' : Function.update s.workers worker next worker' = some delivery') : R c' delivery' := by
  rw [Function.update_apply] at h'
  split_ifs at h' with hworker
  · exact hnew delivery' h'
  · exact hmono (h h')

/-- **The step rule.** -/
theorem IsInductive.moves (h : IsInductive H maxAttempts allowed P Q R) {s s' : System}
    {a : Action} (hs : s.Holds P Q R) (ha : allowed a) (hmoves : s.Moves H maxAttempts a s') :
    s'.Holds P Q R := by
  have hgrows := hmoves.grows
  cases hmoves with
  | submit client request uuid4 now =>
    exact ⟨hs.cluster, submits_update id (h.submit request uuid4 now hs.cluster) hs.submits,
      hs.workers⟩
  | submitStep client now outcome call cluster point hcall hmoves =>
    obtain ⟨hP, hQ⟩ := h.submitStep hs.cluster (hs.submits hcall) hmoves
    exact ⟨hP, submits_update (h.submit_mono hgrows) hQ hs.submits,
      fun hw ↦ h.delivery_mono hgrows (hs.workers hw)⟩
  | submitCrash client call hcall =>
    exact ⟨hs.cluster, submits_update id (h.submitCrash (hs.submits hcall)) hs.submits,
      hs.workers⟩
  | poll worker offset event hidle hpoll =>
    refine ⟨hs.cluster, hs.submits, workers_update id ?_ hs.workers⟩
    rintro delivery hdelivery
    exact Option.some_inj.mp hdelivery ▸ h.poll hs.cluster hpoll
  | processStep worker now outcome reply delivery cluster point hdelivery hmoves =>
    obtain ⟨hP, hR⟩ := h.processStep hs.cluster (hs.workers hdelivery) hmoves
    refine ⟨hP, fun hc ↦ h.submit_mono hgrows (hs.submits hc),
      workers_update (h.delivery_mono hgrows) ?_ hs.workers⟩
    rintro delivery' hdelivery'
    obtain ⟨next, hnext, rfl⟩ := Option.map_eq_some_iff.mp hdelivery'
    exact hR next hnext
  | commit worker delivery hdelivery hpoint =>
    exact ⟨h.commit hs.cluster (hs.workers hdelivery) hpoint,
      fun hc ↦ h.submit_mono hgrows (hs.submits hc),
      workers_update (h.delivery_mono hgrows) (by simp) hs.workers⟩
  | workerCrash worker delivery hdelivery =>
    exact ⟨hs.cluster, hs.submits, workers_update id (by simp) hs.workers⟩
  | expire jobId =>
    exact ⟨h.expire jobId ha hs.cluster, fun hc ↦ h.submit_mono hgrows (hs.submits hc),
      fun hw ↦ h.delivery_mono hgrows (hs.workers hw)⟩

theorem Holds.init (hP : P Cluster.empty) : init.Holds P Q R where
  cluster := hP
  submits h := by cases h
  workers h := by cases h

/-- **The run rule.** -/
theorem IsInductive.run (h : IsInductive H maxAttempts allowed P Q R) {as : List Action}
    {s t : System} (hs : s.Holds P Q R) (has : ∀ a ∈ as, allowed a)
    (hrun : run H maxAttempts s as = some t) : t.Holds P Q R :=
  Transition.run_invariant_along (C := fun _ a ↦ allowed a)
    (fun hs ha hstep ↦ h.moves hs ha (moves_of_step hstep)) hs
    (Transition.along_of_forall id s has) hrun

end Holds

/-! ## A run

A request is submitted, and one worker takes its event to the end. -/

/-- The request that `Hashing.sample` knows. -/
def sampleRequest : ModerationRequest := ⟨"A test message", some "stable-request"⟩

def sampleJobId : String := "df648bf7-2087-5acd-83d5-58917982d607"

def sampleNow : DateTime := DateTime.utc 2026 8 24 9 30 0 0

def sampleResponse : ModerationResponse where
  requestId := "stable-request"
  decision := .allow
  riskScore := 0
  signals := []
  policyVersion := "2026-08-27"
  evaluatedAt := sampleNow
  riskScore_mem := by decide

def sampleSubmit (client : ℕ) (outcome : PublishOutcome := .acknowledged) : Action :=
  .submitStep client sampleNow outcome

def sampleProcess (worker : ℕ) (reply : Option ModerationResponse := some sampleResponse) :
    Action :=
  .processStep worker sampleNow .acknowledged reply

/-- `submit` to its end. -/
def sampleSubmission : List Action :=
  [.submit 0 sampleRequest "" sampleNow, sampleSubmit 0, sampleSubmit 0]

/-- `process` from the poll of the first event to the end. -/
def sampleProcessing (worker : ℕ) : List Action :=
  .poll worker 0 :: List.replicate 5 (sampleProcess worker)

def sampleRecord : StoredModerationJob where
  job :=
    { jobId := sampleJobId
      requestId := "stable-request"
      state := .succeeded
      result := some sampleResponse
      createdAt := sampleNow
      updatedAt := sampleNow }
  requestFingerprint := "f353bdf239adc3079c45af674b10b5b6956ec4bd284d9b0861d95b3d573b8fc9"

example : ((run Hashing.sample 3 init (sampleSubmission ++ sampleProcessing 0)).bind
    fun s ↦ s.cluster.store.get sampleJobId) = some sampleRecord := by decide

end System

end Sentinel
