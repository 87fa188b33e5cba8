import Sentinel.Core.Normalization
import Sentinel.Core.Rules
import Sentinel.ThreatIntelligence.Service

/-!
# The text engine

`ModerationEngine.moderate`. The call reads the rules and the model, then writes its text to the
threat store, and answers. Both signals and response are validated when they are built, so a score
outside the unit interval raises; the store is returned in either case, because a call that raises
may have written before it did.

What a response says is described without the proofs that its signals carry: `fields` forgets
them, and a list of signals is built if and only if its fields are in range.
-/

namespace Sentinel

/-- `MODEL_REVIEW_THRESHOLD`. -/
def modelReviewThreshold : ℚ := 2 / 5

/-- `BLOCK_THRESHOLD`. -/
def blockThreshold : ℚ := 17 / 20

/-- The thresholds, as both engines apply them to their risk score. -/
def decisionFor (riskScore : ℚ) : Decision :=
  if blockThreshold ≤ riskScore then .block
  else if modelReviewThreshold ≤ riskScore then .review
  else .allow

/-- `max(scores, default=0.0)`. -/
def maxScore (scores : List ℚ) : ℚ := scores.max?.getD 0

theorem le_maxScore {score : ℚ} {scores : List ℚ} (h : score ∈ scores) :
    score ≤ maxScore scores := by
  rw [maxScore]
  cases hmax : scores.max? with
  | none =>
    rw [List.max?_eq_none_iff.mp hmax] at h
    exact absurd h List.not_mem_nil
  | some greatest => exact (List.max?_eq_some_iff.mp hmax).2 score h

theorem maxScore_mem_of_ne_nil {scores : List ℚ} (h : scores ≠ []) : maxScore scores ∈ scores := by
  rw [maxScore]
  cases hmax : scores.max? with
  | none => exact absurd (List.max?_eq_none_iff.mp hmax) h
  | some greatest => exact (List.max?_eq_some_iff.mp hmax).1

theorem maxScore_mem {scores : List ℚ} (h : ∀ score ∈ scores, 0 ≤ score ∧ score ≤ 1) :
    0 ≤ maxScore scores ∧ maxScore scores ≤ 1 := by
  rcases eq_or_ne scores [] with rfl | hne
  · exact ⟨le_refl 0, zero_le_one⟩
  · exact h _ (maxScore_mem_of_ne_nil hne)

theorem decisionFor_eq_allow {riskScore : ℚ} :
    decisionFor riskScore = .allow ↔ riskScore < modelReviewThreshold := by
  have hle : modelReviewThreshold ≤ blockThreshold := by
    norm_num [modelReviewThreshold, blockThreshold]
  rw [decisionFor]
  split_ifs with hblock hreview
  · simpa using hle.trans hblock
  · simpa using hreview
  · simpa using hreview

/-! ## Validation -/

/-- The `ValidationError` of a schema: its model and the field that is out of bounds. -/
structure ValidationError where
  model : String
  field : String
deriving DecidableEq

/-- The arguments of `ModerationSignal(...)`. -/
structure SignalFields where
  source : String
  category : SafetyCategory
  score : ℚ
  reasonCode : String
deriving DecidableEq

/-- `ModerationSignal(...)`. -/
def ModerationSignal.create (fields : SignalFields) : Except ValidationError ModerationSignal :=
  if h : 0 ≤ fields.score ∧ fields.score ≤ 1 then
    .ok ⟨fields.source, fields.category, fields.score, fields.reasonCode, h⟩
  else .error ⟨"ModerationSignal", "score"⟩

def ModerationSignal.fields (signal : ModerationSignal) : SignalFields :=
  ⟨signal.source, signal.category, signal.score, signal.reasonCode⟩

theorem ModerationSignal.fields_injective : Function.Injective ModerationSignal.fields := by
  rintro ⟨source, category, score, reasonCode, hscore⟩ ⟨_, _, _, _, _⟩ h
  obtain ⟨rfl, rfl, rfl, rfl⟩ := SignalFields.mk.inj h
  rfl

theorem ModerationSignal.create_eq_ok {fields : SignalFields} {signal : ModerationSignal} :
    create fields = .ok signal ↔ signal.fields = fields := by
  constructor
  · intro h
    rw [create] at h
    split_ifs at h
    rw [← Except.ok.inj h]
    rfl
  · rintro rfl
    exact dif_pos signal.score_mem

def createSignals : List SignalFields → Except ValidationError (List ModerationSignal)
  | [] => .ok []
  | fields :: rest =>
    match ModerationSignal.create fields with
    | .error error => .error error
    | .ok signal =>
      match createSignals rest with
      | .error error => .error error
      | .ok signals => .ok (signal :: signals)

theorem createSignals_eq_ok {fields : List SignalFields} {signals : List ModerationSignal} :
    createSignals fields = .ok signals ↔ signals.map ModerationSignal.fields = fields := by
  induction fields generalizing signals with
  | nil =>
    rw [createSignals, List.map_eq_nil_iff]
    exact ⟨fun h ↦ (Except.ok.inj h).symm, fun h ↦ congrArg _ h.symm⟩
  | cons first rest ih =>
    constructor
    · intro h
      rw [createSignals] at h
      cases hfirst : ModerationSignal.create first with
      | error error =>
        rw [hfirst] at h
        cases h
      | ok signal =>
        cases hrest : createSignals rest with
        | error error =>
          rw [hfirst, hrest] at h
          cases h
        | ok others =>
          rw [hfirst, hrest] at h
          rw [← Except.ok.inj h, List.map_cons, ModerationSignal.create_eq_ok.mp hfirst,
            ih.mp hrest]
    · intro h
      cases signals with
      | nil => cases h
      | cons signal others =>
        obtain ⟨hsignal, hothers⟩ := List.cons.inj h
        rw [createSignals, ModerationSignal.create_eq_ok.mpr hsignal, ih.mpr hothers]

theorem exists_createSignals {fields : List SignalFields}
    (h : ∀ field ∈ fields, 0 ≤ field.score ∧ field.score ≤ 1) :
    ∃ signals, createSignals fields = .ok signals := by
  induction fields with
  | nil => exact ⟨[], rfl⟩
  | cons first rest ih =>
    obtain ⟨others, hothers⟩ := ih fun field hfield ↦ h field (List.mem_cons_of_mem first hfield)
    have hfirst : ∃ signal, ModerationSignal.create first = .ok signal := by
      rw [ModerationSignal.create, dif_pos (h first List.mem_cons_self)]
      exact ⟨_, rfl⟩
    obtain ⟨signal, hsignal⟩ := hfirst
    exact ⟨signal :: others, by rw [createSignals, hsignal, hothers]⟩

/-! ## The engine -/

/-- `ToxicityModel`, a function of the text. -/
structure ToxicityModel where
  version : String
  predictScore : String → ℚ

/-- `ModerationEngine`. -/
structure ModerationEngine (V : Type*) where
  ruleEngine : RuleEngine
  toxicityModel : Option ToxicityModel := none
  threatIntelligence : Option (ThreatIntelligenceService V) := none

/-- `ModerationEngine.default`. -/
def ModerationEngine.default {V : Type*} (toxicityModel : Option ToxicityModel)
    (threatIntelligence : Option (ThreatIntelligenceService V)) : ModerationEngine V :=
  ⟨RuleEngine.ofRules defaultRules, toxicityModel, threatIntelligence⟩

/-- What one call takes from its surroundings: a `uuid4` for the index and one for the response,
each of them used only where the request has no id, and the time. -/
structure Generated where
  indexId : String
  responseId : String
  now : DateTime

/-- `request_id or generated`: the empty string is false. -/
def idOr (requestId : Option String) (generated : String) : String :=
  match requestId with
  | none => generated
  | some requestId => if requestId = "" then generated else requestId

namespace ModerationEngine

variable {V : Type*} (engine : ModerationEngine V)

def ruleFields (found : List SafetyRule) : List SignalFields :=
  found.map fun rule ↦ ⟨"heuristic", rule.category, rule.severity, rule.reasonCode⟩

/-- `model_score`. -/
def modelScore (normalizedText : String) : ℚ :=
  match engine.toxicityModel with
  | none => 0
  | some model => model.predictScore normalizedText

def modelFields (normalizedText : String) : List SignalFields :=
  match engine.toxicityModel with
  | none => []
  | some model =>
    if modelReviewThreshold ≤ model.predictScore normalizedText then
      [⟨"ml:" ++ model.version, .toxicity, model.predictScore normalizedText,
        "toxicity_probability"⟩]
    else []

/-- The assessment of the text, if there is threat intelligence, and the store after it. -/
def assess (store : ThreatVectorStore V) (request : ModerationRequest) (generated : Generated) :
    Option ThreatAssessment × ThreatVectorStore V :=
  match engine.threatIntelligence with
  | none => (none, store)
  | some service =>
    let (assessment, store) :=
      service.assessAndIndex store (idOr request.requestId generated.indexId) request.text
    (some assessment, store)

/-- `threat_score`. -/
def threatScore (assessment : Option ThreatAssessment) : ℚ :=
  (assessment.map (·.riskScore)).getD 0

def threatFields (assessment : Option ThreatAssessment) : List SignalFields :=
  match engine.threatIntelligence, assessment with
  | some service, some assessment =>
    if assessment.coordinated then
      [⟨service.source, .coordinatedAbuse, assessment.riskScore, "similar_content_campaign"⟩]
    else []
  | _, _ => []

/-- `ModerationResponse(...)`. -/
def respond (requestId : String) (riskScore : ℚ) (signals : List ModerationSignal)
    (now : DateTime) : Except ValidationError ModerationResponse :=
  if h : 0 ≤ riskScore ∧ riskScore ≤ 1 then
    .ok ⟨requestId, decisionFor riskScore, riskScore, signals, "2026-08-27", now, h⟩
  else .error ⟨"ModerationResponse", "risk_score"⟩

/-- `moderate`, with the store after it. -/
def moderate (u : Unicode) (store : ThreatVectorStore V) (request : ModerationRequest)
    (generated : Generated) :
    Except ValidationError ModerationResponse × ThreatVectorStore V :=
  let normalizedText := normalizeText u request.text
  let found := engine.ruleEngine.evaluate normalizedText
  match createSignals (ruleFields found ++ engine.modelFields normalizedText) with
  | .error error => (.error error, store)
  | .ok signals =>
    let (assessment, store) := engine.assess store request generated
    match createSignals (engine.threatFields assessment) with
    | .error error => (.error error, store)
    | .ok campaign =>
      let riskScore := max (max (maxScore (found.map (·.severity)))
        (engine.modelScore normalizedText)) (threatScore assessment)
      (respond (idOr request.requestId generated.responseId) riskScore (signals ++ campaign)
        generated.now, store)

/-! ## What a response says -/

/-- `rule_score`. -/
def ruleScore (u : Unicode) (text : String) : ℚ :=
  maxScore ((engine.ruleEngine.evaluate (normalizeText u text)).map (·.severity))

structure Moderated (u : Unicode) (store : ThreatVectorStore V) (request : ModerationRequest)
    (generated : Generated) (response : ModerationResponse) (store' : ThreatVectorStore V) :
    Prop where
  store_eq : store' = (engine.assess store request generated).2
  requestId_eq : response.requestId = idOr request.requestId generated.responseId
  riskScore_eq : response.riskScore
    = max (max (engine.ruleScore u request.text) (engine.modelScore (normalizeText u request.text)))
      (threatScore (engine.assess store request generated).1)
  decision_eq : response.decision = decisionFor response.riskScore
  signals_eq : response.signals.map ModerationSignal.fields
    = ruleFields (engine.ruleEngine.evaluate (normalizeText u request.text))
      ++ engine.modelFields (normalizeText u request.text)
      ++ engine.threatFields (engine.assess store request generated).1

variable {engine} {u : Unicode} {store store' : ThreatVectorStore V}
  {request : ModerationRequest} {generated : Generated} {response : ModerationResponse}

/-- The text counts as its canonical form and as its vector only. -/
theorem moderate_congr {text text' : String}
    (hnormal : normalizeText u text = normalizeText u text')
    (hvector : ∀ service, engine.threatIntelligence = some service →
      service.encoder.encode text = service.encoder.encode text') {requestId : Option String} :
    engine.moderate u store ⟨text, requestId⟩ generated
      = engine.moderate u store ⟨text', requestId⟩ generated := by
  have hassess : engine.assess store ⟨text, requestId⟩ generated
      = engine.assess store ⟨text', requestId⟩ generated := by
    cases hservice : engine.threatIntelligence with
    | none => simp only [assess, hservice]
    | some service =>
      simp only [assess, hservice, ThreatIntelligenceService.assessAndIndex,
        hvector service hservice]
  simp only [moderate, hnormal, hassess]

theorem moderated (h : engine.moderate u store request generated = (.ok response, store')) :
    engine.Moderated u store request generated response store' := by
  simp only [moderate] at h
  cases hsignals : createSignals (ruleFields (engine.ruleEngine.evaluate
      (normalizeText u request.text)) ++ engine.modelFields (normalizeText u request.text)) with
  | error error =>
    rw [hsignals] at h
    cases (Prod.mk.inj h).1
  | ok signals =>
    cases hcampaign : createSignals
        (engine.threatFields (engine.assess store request generated).1) with
    | error error =>
      simp only [hsignals, hcampaign] at h
      cases (Prod.mk.inj h).1
    | ok campaign =>
      simp only [hsignals, hcampaign, Prod.mk.injEq] at h
      obtain ⟨hrespond, rfl⟩ := h
      rw [respond] at hrespond
      split_ifs at hrespond
      obtain rfl := Except.ok.inj hrespond
      refine ⟨rfl, rfl, rfl, rfl, ?_⟩
      rw [List.map_append, createSignals_eq_ok.mp hsignals, createSignals_eq_ok.mp hcampaign]

theorem policyVersion_eq (h : engine.moderate u store request generated = (.ok response, store')) :
    response.policyVersion = "2026-08-27" := by
  simp only [moderate] at h
  split at h
  · cases h
  · split at h
    · cases h
    · have hrespond := (Prod.mk.inj h).1
      rw [respond] at hrespond
      split_ifs at hrespond
      rw [← Except.ok.inj hrespond]

namespace Moderated

theorem severity_mem (h : engine.Moderated u store request generated response store')
    {rule : SafetyRule} (hrule : rule ∈ engine.ruleEngine.evaluate (normalizeText u request.text)) :
    0 ≤ rule.severity ∧ rule.severity ≤ 1 := by
  have hfields : (⟨"heuristic", rule.category, rule.severity, rule.reasonCode⟩ : SignalFields)
      ∈ response.signals.map ModerationSignal.fields := by
    rw [h.signals_eq]
    exact List.mem_append_left _ (List.mem_append_left _ (List.mem_map.mpr ⟨rule, hrule, rfl⟩))
  obtain ⟨signal, -, hsignal⟩ := List.mem_map.mp hfields
  have hscore : signal.score = rule.severity := congrArg SignalFields.score hsignal
  exact hscore ▸ signal.score_mem

theorem severity_le (h : engine.Moderated u store request generated response store')
    {rule : SafetyRule} (hrule : rule ∈ engine.ruleEngine.evaluate (normalizeText u request.text)) :
    rule.severity ≤ response.riskScore := by
  rw [h.riskScore_eq]
  exact le_max_of_le_left (le_max_of_le_left
    (le_maxScore (List.mem_map.mpr ⟨rule, hrule, rfl⟩)))

theorem modelScore_le (h : engine.Moderated u store request generated response store') :
    engine.modelScore (normalizeText u request.text) ≤ 1 := by
  refine le_trans ?_ response.riskScore_mem.2
  rw [h.riskScore_eq]
  exact le_max_of_le_left (le_max_right _ _)

end Moderated

theorem threatScore_mem (engine : ModerationEngine V) (store : ThreatVectorStore V)
    (request : ModerationRequest) (generated : Generated) :
    0 ≤ threatScore (engine.assess store request generated).1 ∧
      threatScore (engine.assess store request generated).1 ≤ 1 := by
  rw [assess]
  cases engine.threatIntelligence with
  | none => exact ⟨le_refl 0, zero_le_one⟩
  | some service => exact campaignRisk_mem _

theorem mem_modelFields {normalizedText : String} {fields : SignalFields} :
    fields ∈ engine.modelFields normalizedText ↔
      ∃ model, engine.toxicityModel = some model ∧
        modelReviewThreshold ≤ model.predictScore normalizedText ∧
        fields = ⟨"ml:" ++ model.version, .toxicity, model.predictScore normalizedText,
          "toxicity_probability"⟩ := by
  cases hmodel : engine.toxicityModel with
  | none => simp only [modelFields, hmodel, List.not_mem_nil, reduceCtorEq, false_and, exists_false]
  | some model =>
    simp only [modelFields, hmodel, Option.some_inj, exists_eq_left']
    split_ifs with hreview
    · rw [List.mem_singleton]
      exact ⟨fun h ↦ ⟨hreview, h⟩, And.right⟩
    · exact ⟨fun h ↦ absurd h List.not_mem_nil, fun h ↦ absurd h.1 hreview⟩

theorem mem_threatFields {assessment : Option ThreatAssessment} {fields : SignalFields} :
    fields ∈ engine.threatFields assessment ↔
      ∃ service found, engine.threatIntelligence = some service ∧ assessment = some found ∧
        found.coordinated = true ∧
        fields = ⟨service.source, .coordinatedAbuse, found.riskScore,
          "similar_content_campaign"⟩ := by
  cases hservice : engine.threatIntelligence with
  | none =>
    simp only [threatFields, hservice, List.not_mem_nil, reduceCtorEq, false_and, exists_false]
  | some service =>
    cases assessment with
    | none =>
      simp only [threatFields, hservice, List.not_mem_nil, reduceCtorEq, false_and, and_false,
        exists_false]
    | some found =>
      simp only [threatFields, hservice]
      split_ifs with hcoordinated
      · rw [List.mem_singleton]
        constructor
        · exact fun h ↦ ⟨service, found, rfl, rfl, hcoordinated, h⟩
        · rintro ⟨_, _, ⟨⟩, ⟨⟩, -, h⟩
          exact h
      · constructor
        · exact fun h ↦ absurd h List.not_mem_nil
        · rintro ⟨_, _, ⟨⟩, ⟨⟩, h, -⟩
          exact absurd h hcoordinated

theorem exists_moderate (engine : ModerationEngine V) (u : Unicode) (store : ThreatVectorStore V)
    (request : ModerationRequest) (generated : Generated)
    (hrules : ∀ rule ∈ engine.ruleEngine.evaluate (normalizeText u request.text),
      0 ≤ rule.severity ∧ rule.severity ≤ 1)
    (hmodel : engine.modelScore (normalizeText u request.text) ≤ 1) :
    ∃ response, engine.moderate u store request generated
      = (.ok response, (engine.assess store request generated).2) := by
  obtain ⟨signals, hsignals⟩ : ∃ signals, createSignals (ruleFields (engine.ruleEngine.evaluate
      (normalizeText u request.text)) ++ engine.modelFields (normalizeText u request.text))
        = .ok signals := by
    apply exists_createSignals
    intro fields hfields
    rcases List.mem_append.mp hfields with hfields | hfields
    · obtain ⟨rule, hrule, rfl⟩ := List.mem_map.mp hfields
      exact hrules rule hrule
    · obtain ⟨model, htoxicity, hreview, rfl⟩ := mem_modelFields.mp hfields
      simp only [modelScore, htoxicity] at hmodel
      exact ⟨le_trans (by norm_num [modelReviewThreshold]) hreview, hmodel⟩
  have hthreat := threatScore_mem engine store request generated
  obtain ⟨campaign, hcampaign⟩ : ∃ campaign, createSignals
      (engine.threatFields (engine.assess store request generated).1) = .ok campaign := by
    apply exists_createSignals
    intro fields hfields
    obtain ⟨service, found, -, hfound, -, rfl⟩ := mem_threatFields.mp hfields
    rw [hfound] at hthreat
    exact hthreat
  have hscore : ∀ score ∈ (engine.ruleEngine.evaluate (normalizeText u request.text)).map
      (·.severity), 0 ≤ score ∧ score ≤ 1 := by
    intro score hscore
    obtain ⟨rule, hrule, rfl⟩ := List.mem_map.mp hscore
    exact hrules rule hrule
  have hrisk : 0 ≤ max (max (engine.ruleScore u request.text)
        (engine.modelScore (normalizeText u request.text)))
        (threatScore (engine.assess store request generated).1) ∧
      max (max (engine.ruleScore u request.text)
        (engine.modelScore (normalizeText u request.text)))
        (threatScore (engine.assess store request generated).1) ≤ 1 :=
    ⟨le_max_of_le_right hthreat.1, max_le (max_le (maxScore_mem hscore).2 hmodel) hthreat.2⟩
  simp only [moderate, hsignals, hcampaign, respond]
  exact ⟨_, Prod.ext (dif_pos hrisk) rfl⟩

end ModerationEngine

end Sentinel
