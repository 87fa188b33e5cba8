import Mathlib.Data.List.Forall2
import Sentinel.Core.Engine

/-!
# The decision policy

Decisions are ordered by how strict they are, and the thresholds are monotone, so the decision for
the greatest of several risks is the strictest of their decisions. A response *explains itself* if
an intervention shows a signal of exactly the risk it reports, and if nothing but rules speaks where
the content is allowed.

The score of a campaign is compared with the review threshold nowhere in the source. Its scale
starts above that threshold at the count from which the signal is given, which is why the two
agree.
-/

namespace Sentinel

open Collections

/-! ## The order of decisions -/

namespace Decision

def strictness : Decision → ℕ
  | .allow => 0
  | .review => 1
  | .block => 2

theorem strictness_injective : Function.Injective strictness := by
  intro first second h
  cases first <;> cases second <;> first | rfl | exact absurd h (by decide)

instance : LinearOrder Decision := LinearOrder.lift' strictness strictness_injective

theorem le_iff {first second : Decision} :
    first ≤ second ↔ first.strictness ≤ second.strictness := Iff.rfl

theorem le_block (decision : Decision) : decision ≤ .block := by
  cases decision <;> decide

end Decision

theorem decisionFor_mono : Monotone decisionFor := by
  have hle : modelReviewThreshold ≤ blockThreshold := by
    norm_num [modelReviewThreshold, blockThreshold]
  intro first second h
  rw [decisionFor, decisionFor, Decision.le_iff]
  split_ifs with hblock hblock' hreview' hreview hblock' hreview'
  · exact le_refl _
  · exact absurd (hblock.trans h) hblock'
  · exact absurd (hblock.trans h) hblock'
  · exact Nat.le_succ 1
  · exact le_refl _
  · exact absurd (hreview.trans h) hreview'
  all_goals exact Nat.zero_le _

theorem decisionFor_max (first second : ℚ) :
    decisionFor (max first second) = max (decisionFor first) (decisionFor second) :=
  decisionFor_mono.map_max

theorem maxScore_mono {scores scores' : List ℚ} (hnonneg : 0 ≤ maxScore scores')
    (h : ∀ score ∈ scores, ∃ score' ∈ scores', score ≤ score') :
    maxScore scores ≤ maxScore scores' := by
  rcases eq_or_ne scores [] with rfl | hne
  · exact hnonneg
  · obtain ⟨score', hscore', hle⟩ := h _ (maxScore_mem_of_ne_nil hne)
    exact hle.trans (le_maxScore hscore')

/-! ## Where signals come from -/

/-- The parts of the system that give signals. -/
inductive Origin
  | rule
  | model
  | campaign
  | image
  | disagreement
deriving DecidableEq

namespace Origin

def Names (source : String) : Origin → Prop
  | .rule => source = "heuristic"
  | .model => ∃ version, source = "ml:" ++ version
  | .campaign => ∃ version, source = "vector:" ++ version
  | .image => ∃ version, source = "vision:" ++ version
  | .disagreement => source = "policy:multimodal-fusion-v1"

def initials : Origin → List Char
  | .rule => ['h', 'e']
  | .model => ['m', 'l']
  | .campaign => ['v', 'e']
  | .image => ['v', 'i']
  | .disagreement => ['p', 'o']

theorem Names.take_eq {origin : Origin} {source : String} (h : origin.Names source) :
    source.toList.take 2 = origin.initials := by
  cases origin with
  | rule =>
    obtain rfl : source = "heuristic" := h
    rfl
  | model =>
    obtain ⟨version, rfl⟩ := h
    rw [String.toList_append]
    rfl
  | campaign =>
    obtain ⟨version, rfl⟩ := h
    rw [String.toList_append]
    rfl
  | image =>
    obtain ⟨version, rfl⟩ := h
    rw [String.toList_append]
    rfl
  | disagreement =>
    obtain rfl : source = "policy:multimodal-fusion-v1" := h
    rfl

theorem Names.unique {origin origin' : Origin} {source : String} (h : origin.Names source)
    (h' : origin'.Names source) : origin = origin' := by
  have hinitials : origin.initials = origin'.initials := h.take_eq.symm.trans h'.take_eq
  revert hinitials
  cases origin <;> cases origin' <;> decide

end Origin

/-- A response that explains itself. -/
structure ModerationResponse.Explained (response : ModerationResponse) : Prop where
  exists_evidence : response.decision ≠ .allow → ∃ signal ∈ response.signals,
    signal.score = response.riskScore ∧
      ∃ origin : Origin, origin.Names signal.source ∧ origin ≠ .disagreement
  eq_rule : response.decision = .allow → ∀ signal ∈ response.signals,
    ∀ origin : Origin, origin.Names signal.source → origin = .rule

/-! ## Raised severities -/

namespace SafetyRule

/-- The same phrase with at least the same severity. -/
def RaisedTo (rule rule' : SafetyRule) : Prop :=
  rule.phrase = rule'.phrase ∧ rule.severity ≤ rule'.severity

end SafetyRule

namespace RuleEngine

theorem exists_get_of_raisedTo {rules rules' : List SafetyRule}
    (h : List.Forall₂ SafetyRule.RaisedTo rules rules') {phrase : String} {rule : SafetyRule}
    (hget : (ruleDict rules).get phrase = some rule) :
    ∃ rule', (ruleDict rules').get phrase = some rule' ∧ rule.RaisedTo rule' := by
  -- The dictionaries are built side by side; the relation holds of them after each pair of rules.
  have hfold : ∀ dict dict' : Dict String SafetyRule,
      (∀ phrase rule, dict.get phrase = some rule →
        ∃ rule', dict'.get phrase = some rule' ∧ rule.RaisedTo rule') →
      (rules.foldl (fun dict rule ↦ dict.set rule.phrase rule) dict).get phrase = some rule →
      ∃ rule', (rules'.foldl (fun dict rule ↦ dict.set rule.phrase rule) dict').get phrase
        = some rule' ∧ rule.RaisedTo rule' := by
    clear hget
    induction h with
    | nil => exact fun dict dict' hdict hget ↦ hdict phrase rule hget
    | @cons first first' rest rest' hfirst _ ih =>
      intro dict dict' hdict
      refine ih (dict.set first.phrase first) (dict'.set first'.phrase first') ?_
      intro key found hfound
      rw [Dict.get_set] at hfound ⊢
      rw [← hfirst.1]
      split_ifs at hfound ⊢
      · exact ⟨first', rfl, Option.some_inj.mp hfound ▸ hfirst⟩
      · exact hdict key found hfound
  refine hfold Dict.empty Dict.empty (fun key found hfound ↦ ?_) hget
  cases hfound

theorem maxScore_evaluate_mono {rules rules' : List SafetyRule}
    (h : List.Forall₂ SafetyRule.RaisedTo rules rules')
    (hnonneg : ∀ rule ∈ rules', 0 ≤ rule.severity ∧ rule.severity ≤ 1) (text : String) :
    maxScore (((ofRules rules).evaluate text).map (·.severity))
      ≤ maxScore (((ofRules rules').evaluate text).map (·.severity)) := by
  apply maxScore_mono
  · refine (maxScore_mem fun score hscore ↦ ?_).1
    obtain ⟨rule, hrule, rfl⟩ := List.mem_map.mp hscore
    exact hnonneg rule (mem_of_evaluate hrule)
  · intro score hscore
    obtain ⟨rule, hrule, rfl⟩ := List.mem_map.mp hscore
    obtain ⟨hget, hne, hinfix⟩ := mem_evaluate.mp hrule
    obtain ⟨rule', hget', hphrase, hseverity⟩ := exists_get_of_raisedTo h hget
    rw [hphrase] at hget' hne hinfix
    exact ⟨rule'.severity, List.mem_map.mpr ⟨rule', mem_evaluate.mpr ⟨hget', hne, hinfix⟩, rfl⟩,
      hseverity⟩

end RuleEngine

/-! ## The text engine -/

theorem modelReviewThreshold_le_campaignRisk {matchCount : ℕ} :
    modelReviewThreshold ≤ campaignRisk matchCount ↔ 2 ≤ matchCount := by
  rw [modelReviewThreshold, campaignRisk]
  split_ifs with hfive htwo
  · exact ⟨fun _ ↦ by omega, fun _ ↦ by norm_num⟩
  · refine ⟨fun _ ↦ htwo, fun _ ↦ le_min (by norm_num) ?_⟩
    have hpos : (0 : ℚ) ≤ 1 / 20 * matchCount := by positivity
    linarith
  · exact ⟨fun h ↦ absurd h (by norm_num), fun h ↦ absurd h htwo⟩

namespace ModerationEngine

variable {V : Type*} {engine : ModerationEngine V} {u : Unicode}
  {store store' : ThreatVectorStore V} {request : ModerationRequest} {generated : Generated}
  {response : ModerationResponse}

/-- The number of other requests that the call finds, zero without threat intelligence. -/
def matchCount (engine : ModerationEngine V) (store : ThreatVectorStore V)
    (request : ModerationRequest) (generated : Generated) : ℕ :=
  ((engine.assess store request generated).1.map (·.matchCount)).getD 0

theorem threatScore_eq (engine : ModerationEngine V) (store : ThreatVectorStore V)
    (request : ModerationRequest) (generated : Generated) :
    threatScore (engine.assess store request generated).1
      = campaignRisk (engine.matchCount store request generated) := by
  rw [matchCount, assess]
  cases engine.threatIntelligence with
  | none => rfl
  | some service => rfl

/-- A campaign is signalled if and only if its score reaches the review threshold. -/
theorem mem_threatFields_assess {fields : SignalFields} :
    fields ∈ engine.threatFields (engine.assess store request generated).1 ↔
      ∃ service, engine.threatIntelligence = some service ∧
        modelReviewThreshold ≤ threatScore (engine.assess store request generated).1 ∧
        fields = ⟨service.source, .coordinatedAbuse,
          threatScore (engine.assess store request generated).1, "similar_content_campaign"⟩ := by
  rw [threatScore_eq, modelReviewThreshold_le_campaignRisk, ← threatScore_eq, mem_threatFields,
    matchCount, assess]
  cases hservice : engine.threatIntelligence with
  | none => simp only [reduceCtorEq, false_and, exists_false]
  | some service =>
    simp only [Option.some_inj, exists_and_left, exists_eq_left', ThreatAssessment.coordinated,
      decide_eq_true_eq, threatScore, Option.map_some, Option.getD_some]

/-! ### Each risk is signalled -/

theorem exists_ruleFields (h : modelReviewThreshold ≤ engine.ruleScore u request.text) :
    ∃ fields ∈ ruleFields (engine.ruleEngine.evaluate (normalizeText u request.text)),
      fields.score = engine.ruleScore u request.text ∧ Origin.rule.Names fields.source := by
  have hne : (engine.ruleEngine.evaluate (normalizeText u request.text)).map (·.severity) ≠ [] := by
    intro hnil
    rw [ruleScore, hnil] at h
    exact absurd h (by norm_num [modelReviewThreshold, maxScore])
  obtain ⟨rule, hrule, hseverity⟩ := List.mem_map.mp (maxScore_mem_of_ne_nil hne)
  exact ⟨_, List.mem_map.mpr ⟨rule, hrule, rfl⟩, hseverity, rfl⟩

theorem exists_modelFields {normalizedText : String}
    (h : modelReviewThreshold ≤ engine.modelScore normalizedText) :
    ∃ fields ∈ engine.modelFields normalizedText,
      fields.score = engine.modelScore normalizedText ∧ Origin.model.Names fields.source := by
  cases hmodel : engine.toxicityModel with
  | none =>
    rw [modelScore, hmodel] at h
    exact absurd h (by norm_num [modelReviewThreshold])
  | some model =>
    rw [modelScore, hmodel] at h ⊢
    exact ⟨_, mem_modelFields.mpr ⟨model, hmodel, h, rfl⟩, rfl, model.version, rfl⟩

theorem exists_threatFields
    (h : modelReviewThreshold ≤ threatScore (engine.assess store request generated).1) :
    ∃ fields ∈ engine.threatFields (engine.assess store request generated).1,
      fields.score = threatScore (engine.assess store request generated).1 ∧
        Origin.campaign.Names fields.source := by
  cases hservice : engine.threatIntelligence with
  | none =>
    rw [assess, hservice] at h
    exact absurd h (by norm_num [modelReviewThreshold, threatScore])
  | some service =>
    exact ⟨_, mem_threatFields_assess.mpr ⟨service, hservice, h, rfl⟩, rfl, _, rfl⟩

namespace Moderated

/-- The risk is the severity of a rule, the score of the model or the score of a campaign, and from
the threshold on each of them is signalled. -/
theorem exists_fields (h : engine.Moderated u store request generated response store')
    (hreview : modelReviewThreshold ≤ response.riskScore) :
    ∃ fields ∈ response.signals.map ModerationSignal.fields, fields.score = response.riskScore ∧
      ∃ origin : Origin, origin.Names fields.source ∧ origin ≠ .disagreement := by
  rw [h.signals_eq]
  rw [h.riskScore_eq] at hreview ⊢
  rcases max_choice (max (engine.ruleScore u request.text)
      (engine.modelScore (normalizeText u request.text)))
      (threatScore (engine.assess store request generated).1) with hmax | hmax
  · rw [hmax] at hreview ⊢
    rcases max_choice (engine.ruleScore u request.text)
        (engine.modelScore (normalizeText u request.text)) with hmax | hmax
    · rw [hmax] at hreview ⊢
      obtain ⟨fields, hmem, hscore, hnames⟩ := exists_ruleFields hreview
      exact ⟨fields, List.mem_append_left _ (List.mem_append_left _ hmem), hscore, _, hnames,
        by decide⟩
    · rw [hmax] at hreview ⊢
      obtain ⟨fields, hmem, hscore, hnames⟩ := exists_modelFields hreview
      exact ⟨fields, List.mem_append_left _ (List.mem_append_right _ hmem), hscore, _, hnames,
        by decide⟩
  · rw [hmax] at hreview ⊢
    obtain ⟨fields, hmem, hscore, hnames⟩ := exists_threatFields hreview
    exact ⟨fields, List.mem_append_right _ hmem, hscore, _, hnames, by decide⟩

theorem origin_cases (h : engine.Moderated u store request generated response store')
    {fields : SignalFields} (hfields : fields ∈ response.signals.map ModerationSignal.fields) :
    Origin.rule.Names fields.source ∨
      (Origin.model.Names fields.source ∧ fields.category = .toxicity) ∨
      (Origin.campaign.Names fields.source ∧ fields.category = .coordinatedAbuse) := by
  rw [h.signals_eq, List.mem_append, List.mem_append] at hfields
  rcases hfields with (hrule | hmodel) | hthreat
  · obtain ⟨rule, -, rfl⟩ := List.mem_map.mp hrule
    exact .inl rfl
  · obtain ⟨model, -, -, rfl⟩ := mem_modelFields.mp hmodel
    exact .inr (.inl ⟨⟨_, rfl⟩, rfl⟩)
  · obtain ⟨service, -, -, rfl⟩ := mem_threatFields_assess.mp hthreat
    exact .inr (.inr ⟨⟨_, rfl⟩, rfl⟩)

/-- Below the threshold the model and the campaign are silent. -/
theorem eq_rule (h : engine.Moderated u store request generated response store')
    (hallow : response.riskScore < modelReviewThreshold) {fields : SignalFields}
    (hfields : fields ∈ response.signals.map ModerationSignal.fields) :
    Origin.rule.Names fields.source := by
  rw [h.riskScore_eq, max_lt_iff, max_lt_iff] at hallow
  obtain ⟨⟨-, hmodel⟩, hthreat⟩ := hallow
  rw [h.signals_eq, List.mem_append, List.mem_append] at hfields
  rcases hfields with (hrule | hmodelFields) | hthreatFields
  · obtain ⟨rule, -, rfl⟩ := List.mem_map.mp hrule
    rfl
  · obtain ⟨model, hsome, hreview, -⟩ := mem_modelFields.mp hmodelFields
    rw [modelScore, hsome] at hmodel
    exact absurd hreview (not_le.mpr hmodel)
  · obtain ⟨service, -, hreview, -⟩ := mem_threatFields_assess.mp hthreatFields
    exact absurd hreview (not_le.mpr hthreat)

/-- **The text engine explains itself.** -/
theorem explained (h : engine.Moderated u store request generated response store') :
    response.Explained := by
  constructor
  · intro hintervenes
    rw [h.decision_eq, ne_eq, decisionFor_eq_allow, not_lt] at hintervenes
    obtain ⟨fields, hfields, hscore, origin, hnames, hne⟩ := h.exists_fields hintervenes
    obtain ⟨signal, hsignal, rfl⟩ := List.mem_map.mp hfields
    exact ⟨signal, hsignal, hscore, origin, hnames, hne⟩
  · intro hallow signal hsignal origin hnames
    rw [h.decision_eq, decisionFor_eq_allow] at hallow
    exact hnames.unique (h.eq_rule hallow (List.mem_map.mpr ⟨signal, hsignal, rfl⟩))

/-- More evidence never lowers the risk. -/
theorem riskScore_mono {V' : Type*} {engine' : ModerationEngine V'} {again : ThreatVectorStore V'}
    {again' : ThreatVectorStore V'} {request' : ModerationRequest} {generated' : Generated}
    {response' : ModerationResponse}
    (h : engine.Moderated u store request generated response store')
    (h' : engine'.Moderated u again request' generated' response' again')
    (hrule : engine.ruleScore u request.text ≤ engine'.ruleScore u request'.text)
    (hmodel : engine.modelScore (normalizeText u request.text)
      ≤ engine'.modelScore (normalizeText u request'.text))
    (hcount : engine.matchCount store request generated
      ≤ engine'.matchCount again request' generated') :
    response.riskScore ≤ response'.riskScore := by
  rw [h.riskScore_eq, h'.riskScore_eq, threatScore_eq, threatScore_eq]
  exact max_le_max (max_le_max hrule hmodel) (campaignRisk_mono hcount)

end Moderated

end ModerationEngine

end Sentinel
