import Sentinel.Multimodal.Image

/-!
# The multimodal engine

`MultimodalModerationEngine.moderate`: the image is decoded and scored, then the text, if there is
one, goes through the text engine, and the two risks are fused. Everything that the image can make
raise comes before the text engine runs, which is what writes to the threat store.
-/

namespace Sentinel

open Collections

/-- `ImageSafetyModel`, a function of the image. -/
structure ImageSafetyModel where
  version : String
  predictScores : ValidatedImage → Dict SafetyCategory ℚ

/-- `MultimodalModerationEngine`. -/
structure MultimodalModerationEngine (V : Type*) where
  textEngine : ModerationEngine V
  imageModel : ImageSafetyModel

/-- What `moderate` can raise. -/
inductive MultimodalError
  | image (error : ImageError)
  /-- `ValueError("unsupported image safety category: ...")`. -/
  | unsupportedCategory (category : SafetyCategory)
  /-- `ValueError("image score must be within [0, 1], got ...")`. -/
  | scoreOutOfRange (score : ℚ)
  | validation (error : ValidationError)
deriving DecidableEq

/-- What one call takes from its surroundings: a `uuid4`, used only where the request has no id,
what the text engine takes, and the time. -/
structure FusionGenerated where
  requestId : String
  text : Generated
  now : DateTime

def imageCategories : List SafetyCategory := [.sexualContent, .graphicViolence]

def checkScores : List (SafetyCategory × ℚ) → Except MultimodalError Unit
  | [] => .ok ()
  | (category, score) :: rest =>
    if category ∉ imageCategories then .error (.unsupportedCategory category)
    else if ¬(0 ≤ score ∧ score ≤ 1) then .error (.scoreOutOfRange score)
    else checkScores rest

theorem checkScores_eq_ok {scores : List (SafetyCategory × ℚ)} :
    checkScores scores = .ok () ↔
      ∀ item ∈ scores, item.1 ∈ imageCategories ∧ 0 ≤ item.2 ∧ item.2 ≤ 1 := by
  induction scores with
  | nil => exact ⟨fun _ item hitem ↦ absurd hitem List.not_mem_nil, fun _ ↦ rfl⟩
  | cons item rest ih =>
    obtain ⟨category, score⟩ := item
    rw [checkScores, List.forall_mem_cons]
    by_cases hcategory : category ∈ imageCategories
    · rw [if_neg (not_not.mpr hcategory)]
      by_cases hscore : 0 ≤ score ∧ score ≤ 1
      · rw [if_neg (not_not.mpr hscore), ih]
        exact ⟨fun h ↦ ⟨⟨hcategory, hscore⟩, h⟩, And.right⟩
      · rw [if_pos hscore]
        constructor
        · intro h
          cases h
        · exact fun h ↦ absurd h.1.2 hscore
    · rw [if_pos hcategory]
      constructor
      · intro h
        cases h
      · exact fun h ↦ absurd h.1.1 hcategory

/-- `ImageMetadata(...)`. The error names the first field. -/
def ImageMetadata.create (image : ValidatedImage) : Except ValidationError ImageMetadata :=
  if h : 0 < image.width ∧ 0 < image.height ∧ 0 < image.bytesReceived then
    .ok ⟨image.format, image.width, image.height, image.bytesReceived, h⟩
  else if image.width = 0 then .error ⟨"ImageMetadata", "width"⟩
  else if image.height = 0 then .error ⟨"ImageMetadata", "height"⟩
  else .error ⟨"ImageMetadata", "bytes_received"⟩

/-- The arguments of the signal for a disagreement, if the text was moderated. -/
def disagreementFields (textResult : Option ModerationResponse) (imageRisk : ℚ) :
    List SignalFields :=
  match textResult with
  | none => []
  | some textResult =>
    let textIntervenes : Bool := modelReviewThreshold ≤ textResult.riskScore
    let imageIntervenes : Bool := modelReviewThreshold ≤ imageRisk
    if textIntervenes ≠ imageIntervenes then
      [⟨"policy:multimodal-fusion-v1", .crossModalDisagreement,
        max textResult.riskScore imageRisk, "modality_disagreement"⟩]
    else []

/-- `text_risk`. -/
def textRisk (textResult : Option ModerationResponse) : ℚ := (textResult.map (·.riskScore)).getD 0

def textSignals (textResult : Option ModerationResponse) : List ModerationSignal :=
  (textResult.map (·.signals)).getD []

theorem MultimodalModerationRequest.validId_idOr (request : MultimodalModerationRequest)
    {generated : String} (hgenerated : ValidId generated) :
    ValidId (idOr request.requestId generated) := by
  cases hgiven : request.requestId with
  | none => exact hgenerated
  | some given =>
    have hvalid := request.requestId_valid given hgiven
    rw [idOr]
    split_ifs
    · exact hgenerated
    · exact hvalid

namespace MultimodalModerationEngine

variable {V : Type*} (engine : MultimodalModerationEngine V)

/-- The arguments of the signals of the image: by category, from the review threshold on. -/
def imageFields (imageScores : Dict SafetyCategory ℚ) : List SignalFields :=
  ((imageScores.items.mergeSort fun first second ↦ first.1.value ≤ second.1.value).filter
    fun item ↦ modelReviewThreshold ≤ item.2).map fun (category, score) ↦
      ⟨"vision:" ++ engine.imageModel.version, category, score, "image_probability"⟩

/-- The text goes through the text engine, under the id of the request. -/
def moderateText (u : Unicode) (store : ThreatVectorStore V) (text : Option String)
    (requestId : String) (generated : Generated) :
    Except ValidationError (Option ModerationResponse) × ThreatVectorStore V :=
  match text with
  | none => (.ok none, store)
  | some text =>
    match ModerationRequest.create text requestId with
    | .error error => (.error error, store)
    | .ok request =>
      match engine.textEngine.moderate u store request generated with
      | (.error error, store) => (.error error, store)
      | (.ok textResult, store) => (.ok (some textResult), store)

/-- `MultimodalModerationResponse(...)`. -/
def respond (requestId : String) (riskScore : ℚ) (signals : List ModerationSignal)
    (modalities : List String) (decoded : ValidatedImage) (now : DateTime) :
    Except ValidationError MultimodalModerationResponse :=
  match ImageMetadata.create decoded with
  | .error error => .error error
  | .ok image =>
    if h : 0 ≤ riskScore ∧ riskScore ≤ 1 then
      .ok ⟨⟨requestId, decisionFor riskScore, riskScore, signals, "2026-08-27-multimodal-v1", now,
        h⟩, modalities, image⟩
    else .error ⟨"MultimodalModerationResponse", "risk_score"⟩

/-- `moderate`, with the store after it. -/
def moderate (u : Unicode) (b64decode : String → Option (List UInt8))
    (store : ThreatVectorStore V) (request : MultimodalModerationRequest)
    (generated : FusionGenerated) :
    Except MultimodalError MultimodalModerationResponse × ThreatVectorStore V :=
  let requestId := idOr request.requestId generated.requestId
  match decodeImage b64decode request.imageBase64 request.mediaType with
  | .error error => (.error (.image error), store)
  | .ok decoded =>
    let imageScores := engine.imageModel.predictScores decoded
    match checkScores imageScores.items with
    | .error error => (.error error, store)
    | .ok () =>
      match createSignals (engine.imageFields imageScores) with
      | .error error => (.error (.validation error), store)
      | .ok signals =>
        let imageRisk := maxScore imageScores.values
        match engine.moderateText u store request.text requestId generated.text with
        | (.error error, store) => (.error (.validation error), store)
        | (.ok textResult, store) =>
          match createSignals (disagreementFields textResult imageRisk) with
          | .error error => (.error (.validation error), store)
          | .ok disagreement =>
            let modalities := if textResult.isSome then ["text", "image"] else ["image"]
            match respond requestId (max (textRisk textResult) imageRisk)
              (textSignals textResult ++ signals ++ disagreement) modalities decoded
              generated.now with
            | .error error => (.error (.validation error), store)
            | .ok response => (.ok response, store)

/-! ## What a response says -/

/-- What a call that returns has read and answered. -/
structure Moderated (u : Unicode) (b64decode : String → Option (List UInt8))
    (store : ThreatVectorStore V) (request : MultimodalModerationRequest)
    (generated : FusionGenerated) (decoded : ValidatedImage)
    (textResult : Option ModerationResponse) (response : MultimodalModerationResponse)
    (store' : ThreatVectorStore V) : Prop where
  decode_eq : decodeImage b64decode request.imageBase64 request.mediaType = .ok decoded
  scores_mem : ∀ item ∈ (engine.imageModel.predictScores decoded).items,
    item.1 ∈ imageCategories ∧ 0 ≤ item.2 ∧ item.2 ≤ 1
  text_eq : engine.moderateText u store request.text
    (idOr request.requestId generated.requestId) generated.text = (.ok textResult, store')
  requestId_eq : response.requestId = idOr request.requestId generated.requestId
  riskScore_eq : response.riskScore
    = max (textRisk textResult) (maxScore (engine.imageModel.predictScores decoded).values)
  decision_eq : response.decision = decisionFor response.riskScore
  signals_eq : response.signals.map ModerationSignal.fields
    = (textSignals textResult).map ModerationSignal.fields
      ++ engine.imageFields (engine.imageModel.predictScores decoded)
      ++ disagreementFields textResult
        (maxScore (engine.imageModel.predictScores decoded).values)

variable {engine} {u : Unicode} {b64decode : String → Option (List UInt8)}
  {store store' : ThreatVectorStore V} {request : MultimodalModerationRequest}
  {generated : FusionGenerated} {response : MultimodalModerationResponse}
  {decoded : ValidatedImage} {textResult : Option ModerationResponse}

theorem of_respond {requestId : String} {riskScore : ℚ} {signals : List ModerationSignal}
    {modalities : List String} {now : DateTime}
    (h : respond requestId riskScore signals modalities decoded now = .ok response) :
    response.requestId = requestId ∧ response.riskScore = riskScore ∧
      response.decision = decisionFor riskScore ∧ response.signals = signals := by
  rw [respond] at h
  cases himage : ImageMetadata.create decoded with
  | error error =>
    rw [himage] at h
    cases h
  | ok image =>
    simp only [himage] at h
    split_ifs at h
    obtain rfl := Except.ok.inj h
    exact ⟨rfl, rfl, rfl, rfl⟩

theorem exists_respond {riskScore : ℚ} (hrisk : 0 ≤ riskScore ∧ riskScore ≤ 1)
    (hdecode : decodeImage b64decode request.imageBase64 request.mediaType = .ok decoded)
    (requestId : String) (signals : List ModerationSignal) (modalities : List String)
    (now : DateTime) :
    ∃ response, respond requestId riskScore signals modalities decoded now = .ok response := by
  have hpos := pos_of_decodeImage hdecode
  rw [respond, ImageMetadata.create, dif_pos hpos]
  exact ⟨_, dif_pos hrisk⟩

theorem moderated
    (h : engine.moderate u b64decode store request generated = (.ok response, store')) :
    ∃ decoded textResult, engine.Moderated u b64decode store request generated decoded textResult
      response store' := by
  rw [moderate] at h
  cases hdecode : decodeImage b64decode request.imageBase64 request.mediaType with
  | error error =>
    rw [hdecode] at h
    cases (Prod.mk.inj h).1
  | ok decoded =>
    simp only [hdecode] at h
    cases hscores : checkScores (engine.imageModel.predictScores decoded).items with
    | error error =>
      rw [hscores] at h
      cases (Prod.mk.inj h).1
    | ok checked =>
      simp only [hscores] at h
      cases hsignals : createSignals
          (engine.imageFields (engine.imageModel.predictScores decoded)) with
      | error error =>
        rw [hsignals] at h
        cases (Prod.mk.inj h).1
      | ok signals =>
        simp only [hsignals] at h
        rcases htext : engine.moderateText u store request.text
          (idOr request.requestId generated.requestId) generated.text with ⟨textResult, written⟩
        cases textResult with
        | error error =>
          rw [htext] at h
          cases (Prod.mk.inj h).1
        | ok textResult =>
          simp only [htext] at h
          cases hfusion : createSignals (disagreementFields textResult
              (maxScore (engine.imageModel.predictScores decoded).values)) with
          | error error =>
            rw [hfusion] at h
            cases (Prod.mk.inj h).1
          | ok disagreement =>
            simp only [hfusion] at h
            split at h
            · cases (Prod.mk.inj h).1
            · rename_i answer hrespond
              obtain ⟨hresponse, rfl⟩ := Prod.mk.inj h
              obtain rfl := Except.ok.inj hresponse
              obtain ⟨hid, hrisk, hdecision, hsignals'⟩ := of_respond hrespond
              refine ⟨decoded, textResult, hdecode, checkScores_eq_ok.mp hscores, htext, hid, hrisk,
                by rw [hdecision, hrisk], ?_⟩
              rw [hsignals', List.map_append, List.map_append, createSignals_eq_ok.mp hsignals,
                createSignals_eq_ok.mp hfusion]

theorem textRisk_mem (textResult : Option ModerationResponse) :
    0 ≤ textRisk textResult ∧ textRisk textResult ≤ 1 := by
  cases textResult with
  | none => exact ⟨le_refl 0, zero_le_one⟩
  | some textResult => exact textResult.riskScore_mem

theorem mem_imageFields {imageScores : Dict SafetyCategory ℚ} {fields : SignalFields} :
    fields ∈ engine.imageFields imageScores ↔
      ∃ category score, imageScores.get category = some score ∧ modelReviewThreshold ≤ score ∧
        fields = ⟨"vision:" ++ engine.imageModel.version, category, score,
          "image_probability"⟩ := by
  simp only [imageFields, List.mem_map, List.mem_filter, List.mem_mergeSort, Prod.exists,
    Dict.get_eq_some, decide_eq_true_eq, and_assoc, eq_comm (a := fields)]

theorem mem_disagreementFields {imageRisk : ℚ} {fields : SignalFields} :
    fields ∈ disagreementFields textResult imageRisk ↔
      ∃ found, textResult = some found ∧
        ¬(modelReviewThreshold ≤ found.riskScore ↔ modelReviewThreshold ≤ imageRisk) ∧
        fields = ⟨"policy:multimodal-fusion-v1", .crossModalDisagreement,
          max found.riskScore imageRisk, "modality_disagreement"⟩ := by
  cases textResult with
  | none => simp only [disagreementFields, List.not_mem_nil, reduceCtorEq, false_and, exists_false]
  | some found =>
    simp only [disagreementFields, Option.some_inj, exists_eq_left', ne_eq, decide_eq_decide]
    split_ifs with h
    · exact ⟨fun hfields ↦ absurd hfields List.not_mem_nil, fun hfields ↦ absurd h hfields.1⟩
    · rw [List.mem_singleton]
      exact ⟨fun hfields ↦ ⟨h, hfields⟩, And.right⟩

theorem imageRisk_mem {imageScores : Dict SafetyCategory ℚ}
    (h : ∀ item ∈ imageScores.items, item.1 ∈ imageCategories ∧ 0 ≤ item.2 ∧ item.2 ≤ 1) :
    0 ≤ maxScore imageScores.values ∧ maxScore imageScores.values ≤ 1 := by
  apply maxScore_mem
  intro score hscore
  obtain ⟨item, hitem, rfl⟩ := List.mem_map.mp hscore
  exact (h item hitem).2

theorem moderateText_some {text requestId : String} (htext : ValidText text)
    (hid : ValidId requestId) {asking : Generated} :
    engine.moderateText u store (some text) requestId asking = (.ok textResult, store') ↔
      ∃ answer, textResult = some answer ∧
        engine.textEngine.moderate u store ⟨text, some requestId⟩ asking
          = (.ok answer, store') := by
  rw [moderateText, ModerationRequest.create_eq_ok htext hid]
  rcases hmoderate : engine.textEngine.moderate u store ⟨text, some requestId⟩ asking with
    ⟨answered, written⟩
  cases answered with
  | error error => simp [hmoderate]
  | ok answered => simp [hmoderate, eq_comm]

/-- Nothing raises where the image is accepted and scored in range and the text engine answers. -/
theorem exists_moderate
    (hdecode : decodeImage b64decode request.imageBase64 request.mediaType = .ok decoded)
    (hscores : ∀ item ∈ (engine.imageModel.predictScores decoded).items,
      item.1 ∈ imageCategories ∧ 0 ≤ item.2 ∧ item.2 ≤ 1)
    (htext : engine.moderateText u store request.text
      (idOr request.requestId generated.requestId) generated.text = (.ok textResult, store')) :
    ∃ response, engine.moderate u b64decode store request generated = (.ok response, store') := by
  have himage := imageRisk_mem hscores
  have hrisk := textRisk_mem textResult
  obtain ⟨signals, hsignals⟩ : ∃ signals, createSignals
      (engine.imageFields (engine.imageModel.predictScores decoded)) = .ok signals := by
    apply exists_createSignals
    intro fields hfields
    obtain ⟨category, score, hget, -, rfl⟩ := mem_imageFields.mp hfields
    exact (hscores _ (Dict.get_eq_some.mp hget)).2
  obtain ⟨disagreement, hdisagreement⟩ : ∃ disagreement, createSignals
      (disagreementFields textResult (maxScore (engine.imageModel.predictScores decoded).values))
        = .ok disagreement := by
    apply exists_createSignals
    intro fields hfields
    obtain ⟨found, -, -, rfl⟩ := mem_disagreementFields.mp hfields
    exact ⟨le_max_of_le_right himage.1, max_le found.riskScore_mem.2 himage.2⟩
  obtain ⟨response, hresponse⟩ := exists_respond
    ⟨le_max_of_le_right himage.1, max_le hrisk.2 himage.2⟩ hdecode
    (idOr request.requestId generated.requestId)
    (textSignals textResult ++ signals ++ disagreement)
    (if textResult.isSome then ["text", "image"] else ["image"]) generated.now
  refine ⟨response, ?_⟩
  simp only [moderate, hdecode, checkScores_eq_ok.mpr hscores, hsignals, htext, hdisagreement,
    hresponse]

end MultimodalModerationEngine

end Sentinel
