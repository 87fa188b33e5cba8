import Sentinel.Core.Policy
import Sentinel.Multimodal.Engine

/-!
# Fusion

The multimodal decision against the two decisions it is made of: the one for the text alone and the
one for the image alone. Thresholds, signals and risks are computed separately for the two, so that
they fit together is a fact about three pieces of code. The risks are maxima of scores and the
thresholds are monotone; the rest is that no score is above the threshold without a signal.

A `MultimodalCall` is everything that a response depends on. Two of them are compared by the
evidence that they put before the engine, with whatever else about them may differ.
-/

namespace Sentinel

open Collections

namespace MultimodalModerationEngine

variable {V : Type*} {engine : MultimodalModerationEngine V} {u : Unicode}
  {b64decode : String → Option (List UInt8)} {store store' : ThreatVectorStore V}
  {request : MultimodalModerationRequest} {generated : FusionGenerated}
  {response : MultimodalModerationResponse} {decoded : ValidatedImage}
  {textResult : Option ModerationResponse}

theorem exists_imageFields {imageScores : Dict SafetyCategory ℚ}
    (h : modelReviewThreshold ≤ maxScore imageScores.values) :
    ∃ fields ∈ engine.imageFields imageScores, fields.score = maxScore imageScores.values ∧
      Origin.image.Names fields.source := by
  have hne : imageScores.values ≠ [] := by
    intro hnil
    rw [hnil] at h
    exact absurd h (by norm_num [modelReviewThreshold, maxScore])
  obtain ⟨category, hget⟩ := Dict.mem_values.mp (maxScore_mem_of_ne_nil hne)
  exact ⟨_, mem_imageFields.mpr ⟨category, _, hget, h, rfl⟩, rfl, _, rfl⟩

namespace Moderated

theorem mem_signals (h : engine.Moderated u b64decode store request generated decoded textResult
      response store') {fields : SignalFields} :
    fields ∈ response.signals.map ModerationSignal.fields ↔
      fields ∈ (textSignals textResult).map ModerationSignal.fields ∨
        fields ∈ engine.imageFields (engine.imageModel.predictScores decoded) ∨
        fields ∈ disagreementFields textResult
          (maxScore (engine.imageModel.predictScores decoded).values) := by
  rw [h.signals_eq, List.mem_append, List.mem_append, or_assoc]

theorem exists_text (h : engine.Moderated u b64decode store request generated decoded textResult
      response store') {answer : ModerationResponse} (hanswer : textResult = some answer) :
    ∃ asked, engine.textEngine.Moderated u store asked generated.text answer store' := by
  have htext := h.text_eq
  rw [hanswer] at htext
  cases hgiven : request.text with
  | none =>
    rw [hgiven, moderateText] at htext
    cases htext
  | some text =>
    rw [hgiven, moderateText] at htext
    cases hcreate : ModerationRequest.create text
        (idOr request.requestId generated.requestId) with
    | error error =>
      rw [hcreate] at htext
      cases htext
    | ok asked =>
      rw [hcreate] at htext
      rcases hmoderate : engine.textEngine.moderate u store asked generated.text with
        ⟨answered, written⟩
      cases answered with
      | error error =>
        simp only [hmoderate] at htext
        cases htext
      | ok answered =>
        simp only [hmoderate] at htext
        cases htext
        exact ⟨asked, ModerationEngine.moderated hmoderate⟩

/-- **The fusion explains itself.** -/
theorem explained (h : engine.Moderated u b64decode store request generated decoded textResult
      response store') :
    response.Explained := by
  constructor
  · intro hintervenes
    rw [h.decision_eq, ne_eq, decisionFor_eq_allow, not_lt, h.riskScore_eq] at hintervenes
    rw [h.riskScore_eq]
    -- The risk is that of the text, which its own answer explains, or that of the image.
    rcases max_choice (textRisk textResult)
        (maxScore (engine.imageModel.predictScores decoded).values) with hmax | hmax
    · rw [hmax] at hintervenes ⊢
      cases htextResult : textResult with
      | none =>
        rw [htextResult] at hintervenes
        exact absurd hintervenes (by norm_num [modelReviewThreshold, textRisk])
      | some answer =>
        obtain ⟨asked, hasked⟩ := h.exists_text htextResult
        have hne : answer.decision ≠ .allow := by
          rw [hasked.decision_eq, ne_eq, decisionFor_eq_allow, not_lt]
          rw [htextResult] at hintervenes
          exact hintervenes
        obtain ⟨signal, hsignal, hscore, horigin⟩ := hasked.explained.exists_evidence hne
        have hmem : signal.fields ∈ response.signals.map ModerationSignal.fields :=
          h.mem_signals.mpr (.inl (List.mem_map.mpr ⟨signal, htextResult ▸ hsignal, rfl⟩))
        rw [List.mem_map_of_injective ModerationSignal.fields_injective] at hmem
        exact ⟨signal, hmem, hscore, horigin⟩
    · rw [hmax] at hintervenes ⊢
      obtain ⟨fields, hfields, hscore, hnames⟩ := exists_imageFields hintervenes
      obtain ⟨signal, hsignal, rfl⟩ := List.mem_map.mp (h.mem_signals.mpr (.inr (.inl hfields)))
      exact ⟨signal, hsignal, hscore, _, hnames, by decide⟩
  · intro hallow signal hsignal origin hnames
    rw [h.decision_eq, decisionFor_eq_allow, h.riskScore_eq, max_lt_iff] at hallow
    obtain ⟨htextAllow, himageAllow⟩ := hallow
    rcases h.mem_signals.mp (List.mem_map.mpr ⟨signal, hsignal, rfl⟩) with
      hfields | hfields | hfields
    · rw [List.mem_map_of_injective ModerationSignal.fields_injective] at hfields
      cases htextResult : textResult with
      | none =>
        rw [htextResult] at hfields
        exact absurd hfields List.not_mem_nil
      | some answer =>
        rw [htextResult] at hfields htextAllow
        obtain ⟨asked, hasked⟩ := h.exists_text htextResult
        have hallow : answer.decision = .allow :=
          hasked.decision_eq.trans (decisionFor_eq_allow.mpr htextAllow)
        exact hasked.explained.eq_rule hallow signal hfields origin hnames
    · obtain ⟨category, score, hget, hreview, -⟩ := mem_imageFields.mp hfields
      exact absurd (hreview.trans (le_maxScore (Dict.mem_values.mpr ⟨category, hget⟩)))
        (not_le.mpr himageAllow)
    · -- Two parts that are both below the threshold do not disagree.
      obtain ⟨answer, rfl, hdisagree, -⟩ := mem_disagreementFields.mp hfields
      exact absurd (iff_of_false (not_le.mpr htextAllow) (not_le.mpr himageAllow)) hdisagree

/-- A signal is the one for a disagreement, or another part has given it; of these, only a rule may
have been given the category of a disagreement. -/
theorem origin_cases (h : engine.Moderated u b64decode store request generated decoded textResult
      response store')
    {fields : SignalFields} (hfields : fields ∈ response.signals.map ModerationSignal.fields) :
    fields ∈ disagreementFields textResult
        (maxScore (engine.imageModel.predictScores decoded).values) ∨
      ∃ origin : Origin, origin.Names fields.source ∧ origin ≠ .disagreement ∧
        (fields.category = .crossModalDisagreement → origin = .rule) := by
  rcases h.mem_signals.mp hfields with hmem | hmem | hmem
  · cases htextResult : textResult with
    | none =>
      rw [htextResult] at hmem
      exact absurd hmem List.not_mem_nil
    | some answer =>
      rw [htextResult] at hmem
      obtain ⟨asked, hasked⟩ := h.exists_text htextResult
      rcases hasked.origin_cases hmem with hnames | ⟨hnames, hcategory⟩ |
        ⟨hnames, hcategory⟩
      · exact .inr ⟨.rule, hnames, by decide, fun _ ↦ rfl⟩
      · refine .inr ⟨.model, hnames, by decide, fun hcross ↦ ?_⟩
        exact absurd (hcategory.symm.trans hcross) (by decide)
      · refine .inr ⟨.campaign, hnames, by decide, fun hcross ↦ ?_⟩
        exact absurd (hcategory.symm.trans hcross) (by decide)
  · obtain ⟨category, score, hget, -, rfl⟩ := mem_imageFields.mp hmem
    have hcategory : category ∈ imageCategories := (h.scores_mem _ (Dict.get_eq_some.mp hget)).1
    refine .inr ⟨.image, ⟨_, rfl⟩, by decide, ?_⟩
    rintro rfl
    exact absurd hcategory (by decide)
  · exact .inl hmem

/-- A disagreement is recognized by its source, and also by its category where no rule has given
the signal. -/
theorem names_disagreement_iff (h : engine.Moderated u b64decode store request generated decoded
      textResult response store')
    {signal : ModerationSignal} (hsignal : signal ∈ response.signals) :
    Origin.disagreement.Names signal.source ↔
      signal.category = .crossModalDisagreement ∧ ¬Origin.rule.Names signal.source := by
  rcases h.origin_cases (List.mem_map.mpr ⟨signal, hsignal, rfl⟩) with
    hmem | ⟨origin, hnames, hne, hrule⟩
  · obtain ⟨answer, -, -, hfields⟩ := mem_disagreementFields.mp hmem
    have hnames : Origin.disagreement.Names signal.source := congrArg SignalFields.source hfields
    refine iff_of_true hnames ⟨congrArg SignalFields.category hfields, fun hrule ↦ ?_⟩
    exact absurd (hnames.unique hrule) (by decide)
  · constructor
    · exact fun h ↦ absurd (hnames.unique h) hne
    · exact fun h ↦ absurd (hrule h.1 ▸ hnames) h.2

/-- **When a disagreement is signalled.** -/
theorem exists_disagreement_iff (h : engine.Moderated u b64decode store request generated decoded
      textResult response store') :
    (∃ signal ∈ response.signals, Origin.disagreement.Names signal.source) ↔
      ∃ answer, textResult = some answer ∧ ¬(decisionFor answer.riskScore = .allow ↔
        decisionFor (maxScore (engine.imageModel.predictScores decoded).values) = .allow) := by
  simp only [decisionFor_eq_allow, ← not_le, not_iff_not]
  constructor
  · rintro ⟨signal, hsignal, hnames⟩
    rcases h.origin_cases (List.mem_map.mpr ⟨signal, hsignal, rfl⟩) with
      hmem | ⟨origin, hnames', hne, -⟩
    · obtain ⟨answer, hanswer, hdisagree, -⟩ := mem_disagreementFields.mp hmem
      exact ⟨answer, hanswer, hdisagree⟩
    · exact absurd (hnames'.unique hnames) hne
  · rintro ⟨answer, hanswer, hdisagree⟩
    obtain ⟨signal, hsignal, hfields⟩ := List.mem_map.mp (h.mem_signals.mpr
      (.inr (.inr (mem_disagreementFields.mpr ⟨answer, hanswer, hdisagree, rfl⟩))))
    exact ⟨signal, hsignal, congrArg SignalFields.source hfields⟩

end Moderated

end MultimodalModerationEngine

/-! ## Calls -/

/-- Everything that a multimodal response depends on. -/
structure MultimodalCall (V : Type*) where
  rules : List SafetyRule
  toxicityModel : Option ToxicityModel
  threatIntelligence : Option (ThreatIntelligenceService V)
  imageModel : ImageSafetyModel
  store : ThreatVectorStore V
  request : MultimodalModerationRequest
  generated : FusionGenerated

namespace MultimodalCall

section Definitions

variable {V V' : Type*} (u : Unicode) (b64decode : String → Option (List UInt8))
  (call : MultimodalCall V) (call' : MultimodalCall V')

def engine : MultimodalModerationEngine V where
  textEngine := ⟨RuleEngine.ofRules call.rules, call.toxicityModel, call.threatIntelligence⟩
  imageModel := call.imageModel

def moderate : Except MultimodalError MultimodalModerationResponse × ThreatVectorStore V :=
  call.engine.moderate u b64decode call.store call.request call.generated

/-- The same call without the text. -/
def imageOnly : MultimodalCall V := { call with request := call.request.imageOnly }

def decode : Except ImageError ValidatedImage :=
  decodeImage b64decode call.request.imageBase64 call.request.mediaType

def asked (text : String) : ModerationRequest :=
  ⟨text, some (idOr call.request.requestId call.generated.requestId)⟩

/-- What the text engine answers to the text alone, if there is one. -/
def TextAnswer : Option ModerationResponse → Prop
  | none => call.request.text = none
  | some answer => ∃ text store', call.request.text = some text ∧
      call.engine.textEngine.moderate u call.store (call.asked text) call.generated.text
        = (.ok answer, store')

/-- A call with severities and scores in the unit interval and an image that is accepted. -/
structure InRange : Prop where
  severity_mem : ∀ rule ∈ call.rules, 0 ≤ rule.severity ∧ rule.severity ≤ 1
  model_mem : ∀ model, call.toxicityModel = some model →
    ∀ text, 0 ≤ model.predictScore text ∧ model.predictScore text ≤ 1
  image_mem : ∀ image, ∀ item ∈ (call.imageModel.predictScores image).items,
    item.1 ∈ imageCategories ∧ 0 ≤ item.2 ∧ item.2 ≤ 1
  /-- A `uuid4` is an id. -/
  validId : ValidId call.generated.requestId
  decodes : ∃ decoded, call.decode b64decode = .ok decoded

/-- A call with at least as much evidence: raised severities, the text if there is one, and for it
at least the score of the model and the number of matches; at least the scores of the image. -/
structure RaisedTo : Prop where
  severity : List.Forall₂ SafetyRule.RaisedTo call.rules call'.rules
  text : ∀ text, call.request.text = some text → call'.request.text = some text
  modelScore : ∀ text, call.request.text = some text →
    call.engine.textEngine.modelScore (normalizeText u text)
      ≤ call'.engine.textEngine.modelScore (normalizeText u text)
  matchCount : ∀ text, call.request.text = some text →
    call.engine.textEngine.matchCount call.store (call.asked text) call.generated.text
      ≤ call'.engine.textEngine.matchCount call'.store (call'.asked text) call'.generated.text
  imageScore : ∀ decoded decoded', call.decode b64decode = .ok decoded →
    call'.decode b64decode = .ok decoded' → ∀ category score,
      (call.imageModel.predictScores decoded).get category = some score →
      ∃ score', (call'.imageModel.predictScores decoded').get category = some score' ∧
        score ≤ score'

end Definitions

end MultimodalCall

/-- How a multimodal response is made of the answers to the text and to the image. -/
structure Fuses (textAnswer : Option ModerationResponse)
    (imageAnswer response : MultimodalModerationResponse) : Prop where
  decision_eq : response.decision
    = max ((textAnswer.map (·.decision)).getD .allow) imageAnswer.decision
  exists_disagreement_iff : (∃ signal ∈ response.signals,
      Origin.disagreement.Names signal.source) ↔
    ∃ answer, textAnswer = some answer ∧
      ¬(answer.decision = .allow ↔ imageAnswer.decision = .allow)
  /-- Unless a rule was given the category of a disagreement, nothing else has it. -/
  names_disagreement_iff : ∀ signal ∈ response.signals, (Origin.disagreement.Names signal.source ↔
    signal.category = .crossModalDisagreement ∧ ¬Origin.rule.Names signal.source)
  explained : response.Explained
  explained_image : imageAnswer.Explained
  explained_text : ∀ answer, textAnswer = some answer → answer.Explained

namespace MultimodalCall

section Lemmas

variable {V V' : Type*} {u : Unicode} {b64decode : String → Option (List UInt8)}
  {call : MultimodalCall V} {call' : MultimodalCall V'}

theorem InRange.validId_idOr (h : call.InRange b64decode) :
    ValidId (idOr call.request.requestId call.generated.requestId) :=
  call.request.validId_idOr h.validId

theorem InRange.exists_moderateText (h : call.InRange b64decode) :
    ∃ textAnswer store', call.engine.moderateText u call.store call.request.text
        (idOr call.request.requestId call.generated.requestId) call.generated.text
          = (.ok textAnswer, store') ∧ call.TextAnswer u textAnswer := by
  cases hgiven : call.request.text with
  | none => exact ⟨none, call.store, rfl, hgiven⟩
  | some text =>
    have hrules : ∀ rule ∈ call.engine.textEngine.ruleEngine.evaluate (normalizeText u text),
        0 ≤ rule.severity ∧ rule.severity ≤ 1 := fun rule hrule ↦
      h.severity_mem rule (RuleEngine.mem_of_evaluate hrule)
    have hmodel : call.engine.textEngine.modelScore (normalizeText u text) ≤ 1 := by
      rw [ModerationEngine.modelScore]
      cases hsome : call.engine.textEngine.toxicityModel with
      | none => exact zero_le_one
      | some model => exact (h.model_mem model hsome _).2
    obtain ⟨answer, hanswer⟩ := ModerationEngine.exists_moderate call.engine.textEngine u call.store
      (call.asked text) call.generated.text hrules hmodel
    refine ⟨some answer, (call.engine.textEngine.assess call.store (call.asked text)
      call.generated.text).2, ?_, text, _, hgiven, hanswer⟩
    exact (MultimodalModerationEngine.moderateText_some (call.request.text_valid text hgiven)
      h.validId_idOr).mpr ⟨answer, rfl, hanswer⟩

theorem InRange.exists_moderated (h : call.InRange b64decode) :
    ∃ decoded textAnswer response store', call.decode b64decode = .ok decoded ∧
      call.TextAnswer u textAnswer ∧
      call.moderate u b64decode = (.ok response, store') ∧
      call.engine.Moderated u b64decode call.store call.request call.generated decoded textAnswer
        response store' := by
  obtain ⟨decoded, hdecode⟩ := h.decodes
  obtain ⟨textAnswer, store', htext, hanswer⟩ := h.exists_moderateText (u := u)
  obtain ⟨response, hresponse⟩ := MultimodalModerationEngine.exists_moderate hdecode
    (h.image_mem decoded) htext
  obtain ⟨decoded', textAnswer', hmoderated⟩ := MultimodalModerationEngine.moderated hresponse
  obtain rfl : decoded' = decoded := Except.ok.inj (hmoderated.decode_eq.symm.trans hdecode)
  obtain rfl : textAnswer' = textAnswer :=
    Except.ok.inj (Prod.mk.inj (hmoderated.text_eq.symm.trans htext)).1
  exact ⟨decoded', textAnswer', response, store', hdecode, hanswer, hresponse, hmoderated⟩

/-- The image alone is decided by its own risk. -/
theorem imageOnly_decision {decoded : ValidatedImage}
    {imageAnswer : MultimodalModerationResponse} {store' : ThreatVectorStore V}
    (h : call.engine.Moderated u b64decode call.store call.request.imageOnly call.generated decoded
      none imageAnswer store') :
    imageAnswer.decision
      = decisionFor (maxScore (call.imageModel.predictScores decoded).values) := by
  have hnonneg := (MultimodalModerationEngine.imageRisk_mem h.scores_mem).1
  rw [h.decision_eq, h.riskScore_eq, textRisk, Option.map_none, Option.getD_none]
  exact congrArg decisionFor (max_eq_right hnonneg)

theorem fuses {decoded : ValidatedImage} {textAnswer : Option ModerationResponse}
    {imageAnswer response : MultimodalModerationResponse} {store' store'' : ThreatVectorStore V}
    (h : call.engine.Moderated u b64decode call.store call.request call.generated decoded textAnswer
      response store')
    (himage : call.engine.Moderated u b64decode call.store call.request.imageOnly call.generated
      decoded none imageAnswer store'') :
    Fuses textAnswer imageAnswer response where
  decision_eq := by
    rw [h.decision_eq, h.riskScore_eq, decisionFor_max, imageOnly_decision himage]
    congr 1
    cases htext : textAnswer with
    | none =>
      rw [textRisk, Option.map_none, Option.map_none, Option.getD_none, Option.getD_none,
        decisionFor_eq_allow, modelReviewThreshold]
      norm_num
    | some answer =>
      obtain ⟨asked, hasked⟩ := h.exists_text htext
      exact hasked.decision_eq.symm
  exists_disagreement_iff := by
    rw [h.exists_disagreement_iff, imageOnly_decision himage]
    refine exists_congr fun answer ↦ and_congr_right fun htext ↦ ?_
    obtain ⟨asked, hasked⟩ := h.exists_text htext
    rw [hasked.decision_eq]
    rfl
  names_disagreement_iff _ := h.names_disagreement_iff
  explained := h.explained
  explained_image := himage.explained
  explained_text _ htext := by
    obtain ⟨asked, hasked⟩ := h.exists_text htext
    exact hasked.explained

theorem RaisedTo.textRisk_le (hraised : call.RaisedTo u b64decode call')
    (hseverity : ∀ rule ∈ call'.rules, 0 ≤ rule.severity ∧ rule.severity ≤ 1)
    {textAnswer textAnswer' : Option ModerationResponse} (h : call.TextAnswer u textAnswer)
    (h' : call'.TextAnswer u textAnswer') : textRisk textAnswer ≤ textRisk textAnswer' := by
  cases textAnswer with
  | none => exact (MultimodalModerationEngine.textRisk_mem textAnswer').1
  | some answer =>
    obtain ⟨text, store', hgiven, hanswer⟩ := h
    have hgiven' := hraised.text text hgiven
    cases textAnswer' with
    | none => cases hgiven'.symm.trans h'
    | some answer' =>
      obtain ⟨text', store'', hgiven'', hanswer'⟩ := h'
      obtain rfl : text = text' := Option.some_inj.mp (hgiven'.symm.trans hgiven'')
      exact (ModerationEngine.moderated hanswer).riskScore_mono
        (ModerationEngine.moderated hanswer')
        (RuleEngine.maxScore_evaluate_mono hraised.severity hseverity (normalizeText u text))
        (hraised.modelScore text hgiven) (hraised.matchCount text hgiven)

theorem RaisedTo.imageRisk_le (hraised : call.RaisedTo u b64decode call')
    {decoded decoded' : ValidatedImage} (hdecode : call.decode b64decode = .ok decoded)
    (hdecode' : call'.decode b64decode = .ok decoded')
    (hnonneg : 0 ≤ maxScore (call'.imageModel.predictScores decoded').values) :
    maxScore (call.imageModel.predictScores decoded).values
      ≤ maxScore (call'.imageModel.predictScores decoded').values := by
  refine maxScore_mono hnonneg fun score hscore ↦ ?_
  obtain ⟨category, hget⟩ := Dict.mem_values.mp hscore
  obtain ⟨score', hget', hle⟩ := hraised.imageScore decoded decoded' hdecode hdecode' category score
    hget
  exact ⟨score', Dict.mem_values.mpr ⟨category, hget'⟩, hle⟩

end Lemmas

end MultimodalCall

/-- **Fusion takes the strictest evidence and explains itself.** A call with scores in range is
answered; the answer is fused from those to the text alone and to the image alone; every answer of
the text engine explains itself as well; and a call with more evidence is never decided more
leniently. -/
theorem strictest_evidence {V V' : Type*} (u : Unicode) (b64decode : String → Option (List UInt8))
    (call : MultimodalCall V) (h : call.InRange b64decode) :
    (∃ decoded textAnswer imageAnswer response store',
      call.decode b64decode = .ok decoded ∧
      call.TextAnswer u textAnswer ∧
      call.imageOnly.moderate u b64decode = (.ok imageAnswer, call.store) ∧
      imageAnswer.decision
        = decisionFor (maxScore (call.imageModel.predictScores decoded).values) ∧
      call.moderate u b64decode = (.ok response, store') ∧
      Fuses textAnswer imageAnswer response) ∧
    (∀ store asked generated answer store',
      call.engine.textEngine.moderate u store asked generated = (.ok answer, store') →
        answer.Explained) ∧
    ∀ call' : MultimodalCall V', call'.InRange b64decode → call.RaisedTo u b64decode call' →
      ∀ response response' store' store'',
        call.moderate u b64decode = (.ok response, store') →
        call'.moderate u b64decode = (.ok response', store'') →
        response.decision ≤ response'.decision := by
  obtain ⟨decoded, textAnswer, response, store', hdecode, htext, hresponse, hmoderated⟩ :=
    h.exists_moderated (u := u)
  refine ⟨?_, fun store asked generated answer store' hanswer ↦
    (ModerationEngine.moderated hanswer).explained, ?_⟩
  · have hinRange : call.imageOnly.InRange b64decode :=
      ⟨h.severity_mem, h.model_mem, h.image_mem, h.validId, h.decodes⟩
    obtain ⟨decoded', nothing, imageAnswer, store'', hdecode', hnothing, himage, hmoderated'⟩ :=
      hinRange.exists_moderated (u := u)
    obtain rfl : decoded' = decoded := Except.ok.inj (hdecode'.symm.trans hdecode)
    obtain ⟨hnone, rfl⟩ := Prod.mk.inj hmoderated'.text_eq
    obtain rfl : none = nothing := Except.ok.inj hnone
    exact ⟨decoded', textAnswer, imageAnswer, response, store', hdecode, htext, himage,
      MultimodalCall.imageOnly_decision hmoderated', hresponse,
      MultimodalCall.fuses hmoderated hmoderated'⟩
  · intro call' h' hraised found found' written written' hfound hfound'
    obtain ⟨decoded', textAnswer', response', store'', hdecode', htext', hresponse', hmoderated'⟩ :=
      h'.exists_moderated (u := u)
    obtain rfl : response = found :=
      Except.ok.inj (Prod.mk.inj (hresponse.symm.trans hfound)).1
    obtain rfl : response' = found' :=
      Except.ok.inj (Prod.mk.inj (hresponse'.symm.trans hfound')).1
    rw [hmoderated.decision_eq, hmoderated'.decision_eq, hmoderated.riskScore_eq,
      hmoderated'.riskScore_eq]
    have hnonneg := (MultimodalModerationEngine.imageRisk_mem hmoderated'.scores_mem).1
    exact decisionFor_mono (max_le_max (hraised.textRisk_le h'.severity_mem htext htext')
      (hraised.imageRisk_le hdecode hdecode' hnonneg))

/-! ### A blocked image -/

/-- An image of one pixel, as Base64. -/
def onePixelBase64 : String :=
  "iVBORw0KGgoAAAANSUhEUgAAAAEAAAABCAQAAAC1HAwCAAAAC0lEQVR42mNk+A8AAQUBAScY42YAAAAASUVORK5CYII="

def onePixel : List UInt8 :=
    [0x89, 0x50, 0x4e, 0x47, 0x0d, 0x0a, 0x1a, 0x0a, 0x00, 0x00, 0x00, 0x0d, 0x49, 0x48, 0x44,
      0x52, 0x00, 0x00, 0x00, 0x01, 0x00, 0x00, 0x00, 0x01, 0x08, 0x04, 0x00, 0x00, 0x00, 0xb5,
      0x1c, 0x0c, 0x02, 0x00, 0x00, 0x00, 0x0b, 0x49, 0x44, 0x41, 0x54, 0x78, 0xda, 0x63, 0x64,
      0xf8, 0x0f, 0x00, 0x01, 0x05, 0x01, 0x01, 0x27, 0x18, 0xe3, 0x66, 0x00, 0x00, 0x00, 0x00,
      0x49, 0x45, 0x4e, 0x44, 0xae, 0x42, 0x60, 0x82]

def decodeOnePixel (imageBase64 : String) : Option (List UInt8) :=
  if imageBase64 = onePixelBase64 then some onePixel else none

/-- A threat with a violent image. -/
def MultimodalCall.sample : MultimodalCall Unit where
  rules := defaultRules
  toxicityModel := none
  threatIntelligence := none
  imageModel := ⟨"fixed-image-v1", fun _ ↦ Dict.empty.set .graphicViolence (23 / 25)⟩
  store := ThreatVectorStore.empty
  request :=
    { imageBase64 := onePixelBase64
      mediaType := .png
      text := some "I will kill you."
      requestId := some "multimodal-test"
      imageBase64_valid := by decide +kernel
      text_valid := by
        rintro given ⟨⟩
        exact ⟨by decide +kernel, by decide, by decide⟩
      requestId_valid := by
        rintro given ⟨⟩
        exact ⟨by decide +kernel, by decide⟩ }
  generated :=
    { requestId := "7c9e6679-7425-40de-944b-e07fc1f90ae7"
      text :=
        { indexId := "0f8fad5b-d9cb-469f-a165-70867728950e"
          responseId := "9b2d1c3e-5a47-4f60-8e1b-2c7d90aa41f3"
          now := DateTime.utc 2026 8 27 10 15 0 0 }
      now := DateTime.utc 2026 8 27 10 15 0 0 }

theorem MultimodalCall.sample_inRange : sample.InRange decodeOnePixel where
  severity_mem _ := severity_mem_of_defaultRules
  model_mem := by
    rintro model ⟨⟩
  image_mem := by
    intro image item hitem
    obtain rfl : item = (.graphicViolence, 23 / 25) := List.mem_singleton.mp hitem
    exact ⟨by decide, by norm_num⟩
  validId := ⟨by decide +kernel, by decide⟩
  decodes := ⟨⟨onePixel, "PNG", 1, 1, 68⟩, by decide +kernel⟩

theorem strictest_evidence_sample : ∃ response store',
    MultimodalCall.sample.moderate Unicode.sample decodeOnePixel = (.ok response, store') ∧
    response.decision = .block ∧ response.Explained := by
  obtain ⟨⟨decoded, textAnswer, imageAnswer, response, store', -, -, -, himage, hresponse, hfuses⟩,
    -⟩ := @strictest_evidence Unit Unit Unicode.sample decodeOnePixel MultimodalCall.sample
      MultimodalCall.sample_inRange
  refine ⟨response, store', hresponse, ?_, hfuses.explained⟩
  have hblock : imageAnswer.decision = .block := by
    have hvalues : (MultimodalCall.sample.imageModel.predictScores decoded).values
        = [23 / 25] := rfl
    rw [himage, hvalues]
    decide +kernel
  rw [hfuses.decision_eq, hblock]
  exact max_eq_right (Decision.le_block _)

end Sentinel
