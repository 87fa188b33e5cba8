import Sentinel.Multimodal.Fusion
import Sentinel.ThreatIntelligence.Campaign

/-!
# A rejected request leaves no trace

The text engine writes to the threat store in the middle of a call, between the signals that it
builds from the rules and the model and those that depend on the store. Everything that can fail for
a score or a severity comes before: what is built afterwards is bounded by what has been built
already, or by the scale of the campaign risk. The fusion adds an image, which has been checked by
then, and the disagreement, whose score is one of the two risks.
-/

namespace Sentinel

open Collections

variable {V : Type*}

/-! ## The text engine -/

namespace ModerationEngine

variable {engine : ModerationEngine V} {u : Unicode} {store store' : ThreatVectorStore V}
  {request : ModerationRequest} {generated : Generated}

/-- Where the first signals are built, severities and model score are in range. -/
theorem scores_mem_of_createSignals {signals : List ModerationSignal} {normalizedText : String}
    (h : createSignals (ruleFields (engine.ruleEngine.evaluate normalizedText)
      ++ engine.modelFields normalizedText) = .ok signals) :
    (∀ rule ∈ engine.ruleEngine.evaluate normalizedText,
      0 ≤ rule.severity ∧ rule.severity ≤ 1) ∧ engine.modelScore normalizedText ≤ 1 := by
  have hfields := createSignals_eq_ok.mp h
  have hscore : ∀ fields ∈ ruleFields (engine.ruleEngine.evaluate normalizedText)
      ++ engine.modelFields normalizedText, 0 ≤ fields.score ∧ fields.score ≤ 1 := by
    rw [← hfields]
    intro fields hmem
    obtain ⟨signal, -, rfl⟩ := List.mem_map.mp hmem
    exact signal.score_mem
  refine ⟨fun rule hrule ↦ hscore _ (List.mem_append_left _ (List.mem_map.mpr ⟨rule, hrule, rfl⟩)),
    ?_⟩
  rw [modelScore]
  cases hmodel : engine.toxicityModel with
  | none => exact zero_le_one
  | some model =>
    -- a score below the threshold builds no signal
    rcases le_or_gt modelReviewThreshold (model.predictScore normalizedText) with hreview | hlow
    · exact (hscore _ (List.mem_append_right _
        (mem_modelFields.mpr ⟨model, hmodel, hreview, rfl⟩))).2
    · exact hlow.le.trans (by norm_num [modelReviewThreshold])

theorem store_eq_of_error {error : ValidationError}
    (h : engine.moderate u store request generated = (.error error, store')) : store' = store := by
  cases hsignals : createSignals (ruleFields (engine.ruleEngine.evaluate
      (normalizeText u request.text)) ++ engine.modelFields (normalizeText u request.text)) with
  | error first =>
    rw [moderate, hsignals] at h
    exact (Prod.mk.inj h).2.symm
  | ok signals =>
    obtain ⟨hrules, hmodel⟩ := scores_mem_of_createSignals hsignals
    obtain ⟨response, hmoderate⟩ := exists_moderate engine u store request generated hrules hmodel
    cases (Prod.mk.inj (hmoderate.symm.trans h)).1

end ModerationEngine

/-! ## The fusion -/

namespace MultimodalModerationEngine

variable {engine : MultimodalModerationEngine V} {u : Unicode}
  {b64decode : String → Option (List UInt8)} {store store' : ThreatVectorStore V}
  {request : MultimodalModerationRequest} {generated : FusionGenerated}

theorem store_eq_of_moderateText_error {text : Option String} {requestId : String}
    {asking : Generated} {error : ValidationError}
    (h : engine.moderateText u store text requestId asking = (.error error, store')) :
    store' = store := by
  cases text with
  | none => cases (Prod.mk.inj h).1
  | some text =>
    rw [moderateText] at h
    cases hcreate : ModerationRequest.create text requestId with
    | error first =>
      rw [hcreate] at h
      exact (Prod.mk.inj h).2.symm
    | ok asked =>
      simp only [hcreate] at h
      rcases hmoderate : engine.textEngine.moderate u store asked asking with ⟨answer, written⟩
      rw [hmoderate] at h
      cases answer with
      | error first =>
        rw [← (Prod.mk.inj h).2]
        exact ModerationEngine.store_eq_of_error hmoderate
      | ok answer => cases (Prod.mk.inj h).1

theorem store_eq_of_error {error : MultimodalError}
    (h : engine.moderate u b64decode store request generated = (.error error, store')) :
    store' = store := by
  cases hdecode : decodeImage b64decode request.imageBase64 request.mediaType with
  | error first =>
    rw [moderate, hdecode] at h
    exact (Prod.mk.inj h).2.symm
  | ok decoded =>
    cases hscores : checkScores (engine.imageModel.predictScores decoded).items with
    | error first =>
      simp only [moderate, hdecode, hscores] at h
      exact (Prod.mk.inj h).2.symm
    | ok checked =>
      rcases htext : engine.moderateText u store request.text
        (idOr request.requestId generated.requestId) generated.text with ⟨textResult, written⟩
      cases textResult with
      | error first =>
        obtain rfl := store_eq_of_moderateText_error htext
        simp only [moderate, hdecode, hscores, htext] at h
        split at h
        · exact (Prod.mk.inj h).2.symm
        · exact (Prod.mk.inj h).2.symm
      | ok textResult =>
        -- from here on nothing can fail
        obtain ⟨response, hmoderate⟩ :=
          exists_moderate hdecode (checkScores_eq_ok.mp hscores) htext
        cases (Prod.mk.inj (hmoderate.symm.trans h)).1

theorem store_eq_of_ok {response : MultimodalModerationResponse}
    {service : ThreatIntelligenceService V}
    (hservice : engine.textEngine.threatIntelligence = some service)
    (hid : ValidId generated.requestId)
    (h : engine.moderate u b64decode store request generated = (.ok response, store')) :
    store' = match request.text with
      | none => store
      | some text => store.upsert (service.pointId response.requestId)
        (service.encoder.encode text) response.requestId := by
  obtain ⟨decoded, textResult, hmoderated⟩ := moderated h
  have htext := hmoderated.text_eq
  cases hgiven : request.text with
  | none =>
    rw [hgiven] at htext
    exact (Prod.mk.inj htext).2.symm
  | some text =>
    have hvalid := request.validId_idOr hid
    rw [hgiven, moderateText_some (request.text_valid text hgiven) hvalid] at htext
    obtain ⟨answer, -, hanswer⟩ := htext
    -- the text engine keeps the id of the fusion, which is not empty
    have hsame : idOr (some (idOr request.requestId generated.requestId)) generated.text.indexId
        = idOr request.requestId generated.requestId := by
      refine if_neg fun hempty ↦ ?_
      have hlength := hvalid.length_mem.1
      rw [hempty] at hlength
      exact absurd hlength (by decide)
    rw [(ModerationEngine.moderated hanswer).store_eq, hmoderated.requestId_eq,
      ModerationEngine.assess, hservice]
    simp only [hsame, ThreatIntelligenceService.assessAndIndex]

/-- **A rejected multimodal request leaves no trace**, and one that is answered leaves one point,
under the id of the response, if it has a text. -/
theorem rejected_leaves_no_trace (engine : MultimodalModerationEngine V)
    (service : ThreatIntelligenceService V)
    (hservice : engine.textEngine.threatIntelligence = some service) (u : Unicode)
    (b64decode : String → Option (List UInt8)) (store : ThreatVectorStore V)
    (request : MultimodalModerationRequest) (generated : FusionGenerated)
    (hid : ValidId generated.requestId) :
    (∀ error store', engine.moderate u b64decode store request generated = (.error error, store') →
      store' = store) ∧
    ∀ response store', engine.moderate u b64decode store request generated
        = (.ok response, store') →
      store' = match request.text with
        | none => store
        | some text => store.upsert (service.pointId response.requestId)
          (service.encoder.encode text) response.requestId :=
  ⟨fun _ _ h ↦ store_eq_of_error h, fun _ _ h ↦ store_eq_of_ok hservice hid h⟩

end MultimodalModerationEngine

/-! ### A violent image and one that is scored out of range -/

namespace MultimodalCall

/-- The threat with an image, on an engine that stores the text. -/
def indexed (score : ℚ) : MultimodalCall String where
  rules := sample.rules
  toxicityModel := none
  threatIntelligence := some (ThreatIntelligenceService.sample
    [("sentinel:threat:multimodal-test", "5a673568-3ae4-5da3-afd3-62c6efe41dfb")])
  imageModel := ⟨"fixed-image-v1", fun _ ↦ Dict.empty.set .graphicViolence score⟩
  store := ThreatVectorStore.empty
  request := sample.request
  generated := sample.generated

theorem indexed_inRange : (indexed (23 / 25)).InRange decodeOnePixel where
  severity_mem := sample_inRange.severity_mem
  model_mem := by
    rintro model ⟨⟩
  image_mem := sample_inRange.image_mem
  validId := sample_inRange.validId
  decodes := sample_inRange.decodes

theorem indexed_raises : (indexed (11 / 10)).moderate Unicode.sample decodeOnePixel
    = (.error (.scoreOutOfRange (11 / 10)), ThreatVectorStore.empty) := by
  have hdecode : decodeImage decodeOnePixel (indexed (11 / 10)).request.imageBase64
      (indexed (11 / 10)).request.mediaType = .ok ⟨onePixel, "PNG", 1, 1, 68⟩ := by
    decide +kernel
  have hscores : checkScores ((indexed (11 / 10)).engine.imageModel.predictScores
      ⟨onePixel, "PNG", 1, 1, 68⟩).items = .error (.scoreOutOfRange (11 / 10)) := by
    decide +kernel
  rw [moderate, MultimodalModerationEngine.moderate, hdecode]
  simp only [hscores]
  rfl

end MultimodalCall

theorem MultimodalModerationEngine.rejected_leaves_no_trace_sample :
    (∃ response store', (MultimodalCall.indexed (23 / 25)).moderate Unicode.sample decodeOnePixel
        = (.ok response, store') ∧
      store'.points.items
        = [("5a673568-3ae4-5da3-afd3-62c6efe41dfb", "I will kill you.", "multimodal-test")]) ∧
    ∃ error store', (MultimodalCall.indexed (11 / 10)).moderate Unicode.sample decodeOnePixel
      = (.error error, store') ∧ store' = ThreatVectorStore.empty := by
  constructor
  · obtain ⟨decoded, textAnswer, response, store', -, -, hresponse, hmoderated⟩ :=
      MultimodalCall.indexed_inRange.exists_moderated (u := Unicode.sample)
    have hstore := (rejected_leaves_no_trace (MultimodalCall.indexed (23 / 25)).engine _ rfl
      Unicode.sample decodeOnePixel ThreatVectorStore.empty MultimodalCall.sample.request
      MultimodalCall.sample.generated MultimodalCall.sample_inRange.validId).2 response store'
      hresponse
    refine ⟨response, store', hresponse, ?_⟩
    rw [hstore, hmoderated.requestId_eq]
    decide +kernel
  · exact ⟨_, _, MultimodalCall.indexed_raises,
      (rejected_leaves_no_trace (MultimodalCall.indexed (11 / 10)).engine _ rfl Unicode.sample
        decodeOnePixel ThreatVectorStore.empty MultimodalCall.sample.request
        MultimodalCall.sample.generated MultimodalCall.sample_inRange.validId).1 _ _
        MultimodalCall.indexed_raises⟩

end Sentinel
