import Sentinel.Api.Moderation
import Sentinel.Distributed.Content

/-!
# The asynchronous path and the endpoint

The workers of the pipeline call the engine that the endpoint `moderate_text` calls. So far their
engine could answer anything. With the engine of the service, whose scores are in range, it always
answers; then nothing is retried, nothing is dead-lettered, and a job fails only if its submission
could not be published. Without threat intelligence the answer is a matter of the text, so whatever
a job ends with is the verdict that the endpoint gives on the same request.

What the workers' engine has answered is read off the history of its calls, in whatever state of
the threat store each of them took place.
-/

namespace Sentinel

open Collections

/-! ## Verdicts -/

/-- The responses say the same about the content. -/
structure ModerationResponse.SameVerdict (response other : ModerationResponse) : Prop where
  decision : response.decision = other.decision
  riskScore : response.riskScore = other.riskScore
  signals : response.signals = other.signals
  policyVersion : response.policyVersion = other.policyVersion

namespace ModerationEngine

variable {V : Type*} {engine : ModerationEngine V} {u : Unicode}
  {store store' later later' : ThreatVectorStore V} {request : ModerationRequest}
  {generated generated' : Generated} {response response' : ModerationResponse}

/-- **Without threat intelligence the verdict is a matter of the request.** -/
theorem sameVerdict (hthreat : engine.threatIntelligence = none)
    (h : engine.moderate u store request generated = (.ok response, store'))
    (h' : engine.moderate u later request generated' = (.ok response', later')) :
    response.SameVerdict response' := by
  have hassess : ∀ store generated, (engine.assess store request generated).1 = none := by
    intro store generated
    simp only [assess, hthreat]
  have hmoderated := moderated h
  have hmoderated' := moderated h'
  have hrisk : response.riskScore = response'.riskScore := by
    rw [hmoderated.riskScore_eq, hmoderated'.riskScore_eq, hassess, hassess]
  have hsignals : response.signals.map ModerationSignal.fields
      = response'.signals.map ModerationSignal.fields := by
    rw [hmoderated.signals_eq, hmoderated'.signals_eq, hassess, hassess]
  exact ⟨by rw [hmoderated.decision_eq, hmoderated'.decision_eq, hrisk], hrisk,
    List.map_injective_iff.mpr ModerationSignal.fields_injective hsignals,
    (policyVersion_eq h).trans (policyVersion_eq h').symm⟩

/-- A worker's call of the engine, in some state of the threat store. -/
def Answers (engine : ModerationEngine V) (u : Unicode) (engineRun : EngineRun) : Prop :=
  ∃ store generated,
    engineRun.outcome = (engine.moderate u store engineRun.event.request generated).1.toOption

end ModerationEngine

/-! ## When the engine always answers -/

def Cluster.AllAnswered (c : Cluster) : Prop :=
  ∀ engineRun ∈ c.engineRuns, engineRun.outcome.isSome = true

theorem Cluster.AllAnswered.of_grows {c c' : Cluster} (hgrows : c.Grows c')
    (h : c'.AllAnswered) : c.AllAnswered :=
  fun engineRun hmem ↦ h engineRun (hgrows.engineRuns.subset hmem)

def Topic.plain : Topic → Bool
  | .input | .result => true
  | .retry | .dlq => false

def ProcessPoint.plain : ProcessPoint → Bool
  | .get | .saveProcessing _ | .moderate _ | .publishResult _ _ | .saveSucceeded _ | .returned =>
    true
  | .publishMissing | .publishRetry _ _ | .saveRetrying _ | .publishExhausted _ | .saveFailed _ =>
    false

/-- Contents, and nothing on the topics for what goes wrong. -/
structure PlainContents (H : Hashing) (c : Cluster) : Prop where
  contents : Contents H c
  plain : c.AllAnswered → ∀ message ∈ c.log, message.topic.plain = true

/-- A delivery on its way to a result. -/
structure PlainDelivery (H : Hashing) (c : Cluster) (delivery : Delivery) : Prop where
  content : DeliveryContent H c delivery
  plain : c.AllAnswered → delivery.point.plain = true

variable {H : Hashing} {c c' : Cluster}

theorem PlainContents.of_log (h : PlainContents H c) (hcontents : Contents H c')
    (hgrows : c.Grows c') (hlog : c'.log = c.log) : PlainContents H c' where
  contents := hcontents
  plain hall message hmem := h.plain (hall.of_grows hgrows) message (hlog ▸ hmem)

theorem PlainContents.of_append (h : PlainContents H c) {message : Message}
    (hcontents : Contents H (c.append message))
    (hplain : c.AllAnswered → message.topic.plain = true) :
    PlainContents H (c.append message) where
  contents := hcontents
  plain hall message' hmem := by
    have hall' := hall.of_grows (Cluster.grows_append c message)
    rcases List.mem_append.mp hmem with hmem | hmem
    · exact h.plain hall' message' hmem
    · exact List.mem_singleton.mp hmem ▸ hplain hall'

theorem SubmitCall.Moves.plain {call : SubmitCall} {point : SubmitPoint}
    (hmoves : call.Moves H c c' point) (h : PlainContents H c) (hcontents : Contents H c') :
    PlainContents H c' := by
  have hgrows := hmoves.grows
  cases hmoves with
  | created | taken | disappeared | conflict | replay | existing | failed | accepted =>
    exact h.of_log hcontents hgrows rfl
  | published | republished => exact h.of_append hcontents fun _ ↦ rfl
  | unpublished storedJob replay now c' hpoint hc' =>
    rcases hc' with rfl | rfl
    · exact h
    · exact h.of_append hcontents fun _ ↦ rfl

theorem Delivery.plain_of_publication {delivery : Delivery} {topic : Topic} {payload : Payload}
    (hpublication : delivery.publication = some (topic, payload))
    (hplain : delivery.point.plain = true) : topic.plain = true := by
  rw [publication] at hpublication
  split at hpublication
  · rename_i hpoint
    rw [hpoint] at hplain
    cases hplain
  · cases hpublication
    rfl
  · rename_i hpoint
    rw [hpoint] at hplain
    cases hplain
  · rename_i hpoint
    rw [hpoint] at hplain
    cases hplain
  · cases hpublication

theorem DeliveryContent.isSome_get {delivery : Delivery} (h : DeliveryContent H c delivery)
    (hcontents : Contents H c) : (c.store.get delivery.event.jobId).isSome = true := by
  obtain ⟨original, hmem, hid, -⟩ := h.bound
  exact hid ▸ hcontents.once.isSome_get original hmem

/-- **While the engine answers, a delivery goes on to its result.** -/
theorem Delivery.Moves.plain {maxAttempts : ℤ} {delivery : Delivery} {point : Option ProcessPoint}
    (hmoves : delivery.Moves maxAttempts c c' point) (h : PlainContents H c)
    (hdelivery : PlainDelivery H c delivery) (hcontents : Contents H c') :
    PlainContents H c' ∧ ∀ next ∈ point, c'.AllAnswered → next.plain = true := by
  have hgrows := hmoves.grows
  cases hmoves with
  | missing hpoint hget =>
    have hsome := hdelivery.content.isSome_get h.contents
    rw [hget] at hsome
    cases hsome
  | duplicate | taken =>
    refine ⟨h, ?_⟩
    rintro _ ⟨⟩ -
    rfl
  | processing | moderated | succeeded | retrying | failed =>
    refine ⟨h.of_log hcontents hgrows rfl, ?_⟩
    rintro _ ⟨⟩ -
    rfl
  | failedRetry | failedLast =>
    -- the engine has raised
    refine ⟨h.of_log hcontents hgrows rfl, fun _ _ hall ↦ ?_⟩
    have hanswered := hall ⟨delivery.event, none⟩
      (List.mem_append_right _ (List.mem_singleton_self _))
    cases hanswered
  | publishedResult processing result now hpoint =>
    refine ⟨h.of_append hcontents fun _ ↦ rfl, ?_⟩
    rintro _ ⟨⟩ -
    rfl
  | publishedMissing hpoint | publishedRetry _ _ _ hpoint | publishedExhausted _ _ hpoint =>
    have hfalse : ¬c.AllAnswered := by
      intro hall
      have hplain := hdelivery.plain hall
      rw [hpoint] at hplain
      cases hplain
    exact ⟨h.of_append hcontents fun hall ↦ absurd hall hfalse,
      fun _ _ hall ↦ absurd (hall.of_grows hgrows) hfalse⟩
  | unpublished topic payload c' hpublication hc' =>
    refine ⟨?_, by rintro _ ⟨⟩⟩
    rcases hc' with rfl | rfl
    · exact h
    · exact h.of_append hcontents fun hall ↦
        plain_of_publication hpublication (hdelivery.plain hall)

/-- **The invariant** of the runs that let no key expire. -/
theorem isInductive_plain (H : Hashing) (maxAttempts : ℤ) :
    System.IsInductive H maxAttempts (fun a ↦ a.keepsKeys = true) (PlainContents H)
      (fun c call ↦ SubmitBacked H c call ∧ SubmitContent H c call) (PlainDelivery H) where
  submit_mono := (isInductive_contents H maxAttempts).submit_mono
  delivery_mono hgrows h := ⟨h.content.mono hgrows, fun hall ↦ h.plain (hall.of_grows hgrows)⟩
  submit request uuid4 now h :=
    (isInductive_contents H maxAttempts).submit request uuid4 now h.contents
  submitStep h hcall hmoves := by
    obtain ⟨hcontents, hcall'⟩ :=
      (isInductive_contents H maxAttempts).submitStep h.contents hcall hmoves
    exact ⟨hmoves.plain h hcontents, hcall'⟩
  submitCrash := (isInductive_contents H maxAttempts).submitCrash
  poll h hpoll := ⟨(isInductive_contents H maxAttempts).poll h.contents hpoll, fun _ ↦ rfl⟩
  processStep h hdelivery hmoves := by
    obtain ⟨hcontents, hnext⟩ :=
      (isInductive_contents H maxAttempts).processStep h.contents hdelivery.content hmoves
    obtain ⟨hplain, hpoint⟩ := hmoves.plain h hdelivery hcontents
    exact ⟨hplain, fun next hmem ↦ ⟨hnext next hmem, hpoint next hmem⟩⟩
  commit h hdelivery hreturned :=
    h.of_log ((isInductive_contents H maxAttempts).commit h.contents hdelivery.content hreturned)
      (Cluster.grows_commit _ _) rfl
  expire _ hkeeps _ := by cases hkeeps

theorem plainContents_of_run {maxAttempts : ℤ} {as : List Action} {s : System}
    (hkeeps : ∀ a ∈ as, a.keepsKeys = true)
    (hrun : System.run H maxAttempts System.init as = some s) : PlainContents H s.cluster := by
  have hempty : System.run H maxAttempts System.init [] = some System.init := rfl
  have hinit : PlainContents H Cluster.empty :=
    ⟨(contents_of_run (List.forall_mem_nil _) hempty).cluster, fun _ _ hmem ↦ by cases hmem⟩
  exact ((isInductive_plain H maxAttempts).run (System.Holds.init hinit) hkeeps hrun).cluster

/-! ## With the engine of the service -/

namespace ModerationComponents

variable {V : Type*} {components : ModerationComponents V}

/-- An engine in range always answers. -/
theorem InRange.allAnswered (h : components.InRange) {c : Cluster}
    (hengine : ∀ engineRun ∈ c.engineRuns,
      components.moderationEngine.Answers components.unicode engineRun) : c.AllAnswered := by
  intro engineRun hmem
  obtain ⟨store, generated, houtcome⟩ := hengine engineRun hmem
  obtain ⟨response, hmoderate⟩ := ModerationEngine.exists_moderate components.moderationEngine
    components.unicode store engineRun.event.request generated (h.severity_mem _)
    (h.modelScore_le _)
  rw [houtcome, hmoderate]
  rfl

/-- **Nothing goes wrong where the engine answers.** However submissions, workers, crashes and
publication failures interleave, as long as no key expires there is neither a retry nor a dead
letter, and a job fails only if its submission could not be published. -/
theorem pipeline_plain (hrange : components.InRange) (H : Hashing) (maxAttempts : ℤ)
    {as : List Sentinel.Action} {s : System} (hkeeps : ∀ a ∈ as, a.keepsKeys = true)
    (hrun : System.run H maxAttempts System.init as = some s)
    (hengine : ∀ engineRun ∈ s.cluster.engineRuns,
      components.moderationEngine.Answers components.unicode engineRun) :
    (∀ message ∈ s.cluster.log, message.topic = .input ∨ message.topic = .result) ∧
      ∀ jobId record, s.cluster.store.get jobId = some record →
        (record.job.state = .failed → record.job.errorCode = some "queue_publish_failed") ∧
        record.job.errorCode ≠ some "processing_retry_scheduled" := by
  have hplain := plainContents_of_run hkeeps hrun
  have htopic : ∀ message ∈ s.cluster.log, message.topic.plain = true :=
    hplain.plain (hrange.allAnswered hengine)
  refine ⟨fun message hmem ↦ ?_, fun jobId record hget ↦ ⟨fun hfailed ↦ ?_, fun hcode ↦ ?_⟩⟩
  · have htopic := htopic message hmem
    cases hname : message.topic with
    | input => exact .inl rfl
    | result => exact .inr rfl
    | retry | dlq =>
      rw [hname] at htopic
      cases htopic
  · rcases (hplain.contents.store jobId record hget).failed hfailed with
      hcode | ⟨-, letter, -, -, hpublished⟩
    · exact hcode
    · cases htopic _ hpublished
  · obtain ⟨-, event, -, -, hpublished⟩ := (hplain.contents.store jobId record hget).retrying hcode
    cases htopic _ hpublished

/-- A service with the default rules and nothing else. -/
def textOnly : ModerationComponents Unit where
  moderationEngine := .default none none
  imageSafetyModel := none
  unicode := Unicode.sample
  b64decode := decodeOnePixel
  review := ReviewComponents.sample

theorem textOnly_inRange : textOnly.InRange where
  severity_mem _ _ hrule := severity_mem_of_defaultRules (RuleEngine.mem_of_evaluate hrule)
  modelScore_le _ := zero_le_one
  scores_mem := by
    rintro adapter ⟨⟩
  isValidation := by
    rintro adapter ⟨⟩

theorem moderate_sampleRequest : (textOnly.moderationEngine.moderate textOnly.unicode
    ThreatVectorStore.empty System.sampleRequest ⟨"", "", System.sampleNow⟩).1.toOption
      = some System.sampleResponse := by
  decide +kernel

def sampleEngineRun : EngineRun where
  event := { jobId := System.sampleJobId, request := System.sampleRequest }
  outcome := some System.sampleResponse

/-- The sample run, whose worker has the engine of the service. -/
theorem exists_run_textOnly : ∃ s,
    System.run Hashing.sample 3 System.init
      (System.sampleSubmission ++ System.sampleProcessing 0) = some s ∧
    s.cluster.store.get System.sampleJobId = some System.sampleRecord ∧
    ∀ engineRun ∈ s.cluster.engineRuns,
      textOnly.moderationEngine.Answers textOnly.unicode engineRun := by
  obtain ⟨s, hrun, hstate⟩ := Option.map_eq_some_iff.mp
    (show ((System.run Hashing.sample 3 System.init
      (System.sampleSubmission ++ System.sampleProcessing 0)).map
        fun s ↦ (s.cluster.store.get System.sampleJobId, s.cluster.engineRuns))
      = some (some System.sampleRecord, [sampleEngineRun]) by decide)
  obtain ⟨hget, hruns⟩ := Prod.mk.inj hstate
  refine ⟨s, hrun, hget, fun engineRun hmem ↦ ?_⟩
  rw [hruns, List.mem_singleton] at hmem
  exact hmem ▸ ⟨ThreatVectorStore.empty, ⟨"", "", System.sampleNow⟩, moderate_sampleRequest.symm⟩

theorem pipeline_plain_sample : ∃ s,
    System.run Hashing.sample 3 System.init
      (System.sampleSubmission ++ System.sampleProcessing 0) = some s ∧
    ∀ message ∈ s.cluster.log, message.topic = .input ∨ message.topic = .result := by
  obtain ⟨s, hrun, -, hengine⟩ := exists_run_textOnly
  exact ⟨s, hrun, (pipeline_plain textOnly_inRange Hashing.sample 3 (by decide) hrun hengine).1⟩

/-- **The pipeline ends with the verdict of the endpoint.** Without threat intelligence: the request
that a job is about is one that `moderate_text` answers, and whatever result is stored or published
for the job, in any order of the steps and after any number of deliveries, says the same. -/
theorem asynchronous_verdict (hrange : components.InRange)
    (hthreat : components.moderationEngine.threatIntelligence = none) (H : Hashing)
    (maxAttempts : ℤ) (hsha256 : Function.Injective H.sha256)
    (hdump : Function.Injective H.modelDumpJson) {as : List Sentinel.Action} {s : System}
    (hkeeps : ∀ a ∈ as, a.keepsKeys = true)
    (hrun : System.run H maxAttempts System.init as = some s)
    (hengine : ∀ engineRun ∈ s.cluster.engineRuns,
      components.moderationEngine.Answers components.unicode engineRun)
    {jobId : String} {record : StoredModerationJob}
    (hget : s.cluster.store.get jobId = some record) :
    ∃ request : ModerationRequest, request.requestId = some record.job.requestId ∧
      fingerprint H request = record.requestFingerprint ∧
      ∀ store generated, ∃ response,
        (components.moderate store (.text request generated)).1 = .text response ∧
        (∀ result ∈ record.job.result, result.SameVerdict response) ∧
        ∀ message ∈ s.cluster.log, message.topic = .result → message.key = jobId →
          ∃ result, message.payload = .result result ∧ result.SameVerdict response := by
  have hholds := contents_of_run hkeeps hrun
  have hcontents : Contents H s.cluster := hholds.cluster
  obtain ⟨original, hmem, hsame⟩ := (hcontents.store jobId record hget).created
  obtain ⟨hjobId, request, hrequestId, hfingerprint⟩ := hcontents.created original hmem
  have hown : original.job.jobId = jobId :=
    hsame.jobId.symm.trans (hcontents.store jobId record hget).jobId_eq
  have hcontent := oneContent_of_bound hsha256 hdump hholds
    (⟨original, hmem, hown, hfingerprint⟩ : s.cluster.Bound H jobId request)
  refine ⟨request, by rw [hrequestId, hsame.requestId],
    by rw [hsame.requestFingerprint, hfingerprint], fun store generated ↦ ?_⟩
  obtain ⟨response, hmoderate⟩ := ModerationEngine.exists_moderate components.moderationEngine
    components.unicode store request generated (hrange.severity_mem _) (hrange.modelScore_le _)
  -- a result that the engine has returned for the request
  have hverdict : ∀ {result}, (∃ engineRun ∈ s.cluster.engineRuns,
      engineRun.event.request = request ∧ engineRun.outcome = some result) →
        result.SameVerdict response := by
    rintro result ⟨engineRun, hrunMem, rfl, hreturned⟩
    obtain ⟨store', generated', houtcome⟩ := hengine engineRun hrunMem
    rcases hanswered : components.moderationEngine.moderate components.unicode store'
      engineRun.event.request generated' with ⟨answered, later⟩
    rw [hreturned, hanswered] at houtcome
    cases answered with
    | error error => cases houtcome
    | ok answered =>
      obtain rfl := Option.some_inj.mp houtcome
      exact ModerationEngine.sameVerdict hthreat hanswered hmoderate
  refine ⟨response, by rw [moderate, moderateText, hmoderate], fun result hresult ↦ ?_,
    fun message hmessage htopic hkey ↦ ?_⟩
  · exact hverdict (hcontent.stored record hget result hresult)
  · obtain ⟨result, hpayload, hreturned⟩ := hcontent.published message hmessage htopic hkey
    exact ⟨result, hpayload, hverdict hreturned⟩

theorem asynchronous_verdict_sample : ∃ response,
    (textOnly.moderate ThreatVectorStore.empty (.text System.sampleRequest
      ⟨"", "", System.sampleNow⟩)).1 = .text response ∧
    System.sampleResponse.SameVerdict response := by
  obtain ⟨s, hrun, hget, hengine⟩ := exists_run_textOnly
  obtain ⟨-, hsha256, hdump⟩ := Hashing.sample_injective
  obtain ⟨request, -, hfingerprint, hverdict⟩ := asynchronous_verdict textOnly_inRange rfl
    Hashing.sample 3 hsha256 hdump (by decide) hrun hengine hget
  have hrequest : request = System.sampleRequest := by
    refine hdump (hsha256 (hfingerprint.trans ?_))
    decide +kernel
  obtain ⟨response, hresponse, hstored, -⟩ :=
    hverdict ThreatVectorStore.empty ⟨"", "", System.sampleNow⟩
  exact ⟨response, hrequest ▸ hresponse, hstored _ rfl⟩

end ModerationComponents

end Sentinel
