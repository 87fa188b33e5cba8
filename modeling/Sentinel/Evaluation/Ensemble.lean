import Sentinel.Evaluation.Slices

/-!
# The max ensemble

`MaxScoreToxicityEnsemble`, and why its report can stand for those of its members. The score of the
ensemble is the greatest of the members' scores, so at one threshold it flags what some member
flags, and at a lower one no less. Two evaluations with the same cases and attacks have the same
items but for the scores. So in each slice the items are those of the same cases, and flagging more
there means more of both kinds of hits out of the same numbers of unsafe and safe ones.
-/

namespace Sentinel

open Collections Statistics

/-! ## The ensemble -/

/-- `ENSEMBLE_VERSION`. -/
def ensembleVersion : String := "sentinel-max-ensemble-v1"

/-- `MaxScoreToxicityEnsemble`. -/
structure MaxScoreToxicityEnsemble where
  models : List ToxicityModel
  two_le_length : 2 ≤ models.length

namespace MaxScoreToxicityEnsemble

/-- `MaxScoreToxicityEnsemble(models)`, or the text of the `ValueError`. -/
def ofModels (models : List ToxicityModel) : Except String MaxScoreToxicityEnsemble :=
  if h : models.length < 2 then .error "max-score ensemble requires at least two models"
  else .ok ⟨models, not_lt.mp h⟩

variable (ensemble : MaxScoreToxicityEnsemble)

/-- `member_versions`. -/
def memberVersions : List String := ensemble.models.map ToxicityModel.version

theorem scores_ne_nil (text : String) :
    (ensemble.models.map fun model ↦ model.predictScore text) ≠ [] := by
  rw [Ne, List.map_eq_nil_iff, ← List.length_eq_zero_iff]
  have hlength := ensemble.two_le_length
  omega

/-- `predict_score`. -/
def predictScore (text : String) : ℚ :=
  (ensemble.models.map fun model ↦ model.predictScore text).max (ensemble.scores_ne_nil text)

def model : EvaluatedModel where
  version := ensembleVersion
  predictScore := ensemble.predictScore
  memberVersions := some ensemble.memberVersions

variable {ensemble} {bound : ℚ} {text : String}

/-- **A signal from one member is sufficient.** -/
theorem le_predictScore_iff :
    bound ≤ ensemble.predictScore text ↔
      ∃ member ∈ ensemble.models, bound ≤ member.predictScore text := by
  constructor
  · intro h
    obtain ⟨member, hmember, hscore⟩ :=
      List.mem_map.mp (List.max_mem (ensemble.scores_ne_nil text))
    exact ⟨member, hmember, h.trans_eq hscore.symm⟩
  · rintro ⟨member, hmember, h⟩
    have hmem : member.predictScore text ∈ ensemble.models.map fun model ↦
        model.predictScore text := List.mem_map.mpr ⟨member, hmember, rfl⟩
    exact h.trans (List.le_max_of_mem hmem)

theorem predictScore_mem (h : ∀ member ∈ ensemble.models, ∀ text,
    0 ≤ member.predictScore text ∧ member.predictScore text ≤ 1) (text : String) :
    0 ≤ ensemble.predictScore text ∧ ensemble.predictScore text ≤ 1 := by
  obtain ⟨member, hmember, hscore⟩ :=
    List.mem_map.mp (List.max_mem (ensemble.scores_ne_nil text))
  rw [predictScore, ← hscore]
  exact h member hmember text

end MaxScoreToxicityEnsemble

/-! ## Comparing reports -/

/-- The first metrics miss no more than the second, whatever they cost in false positives. -/
structure BinaryMetrics.CatchesMore (metrics weaker : BinaryMetrics) : Prop where
  recall_le : weaker.recall ≤ metrics.recall
  falsePositiveRate_le : weaker.falsePositiveRate ≤ metrics.falsePositiveRate
  falseNegativeRate_le : metrics.falseNegativeRate ≤ weaker.falseNegativeRate

/-- The same slices, and more is caught in each. -/
structure SlicesCatchMore (slices weaker : Dict String BinaryMetrics) : Prop where
  keys : ∀ name, name ∈ slices.keys ↔ name ∈ weaker.keys
  metrics : ∀ name metrics metrics', slices.get name = some metrics →
    weaker.get name = some metrics' → metrics.CatchesMore metrics'

/-- What an item does not owe to the model. -/
def ScoredCase.variant (item : ScoredCase) : (String × ℤ × String) × String :=
  (item.case, item.attack)

/-- Two reports on the same items, the first of which catches more, overall and in each slice. -/
structure EvaluationReport.CatchesMore (report weaker : EvaluationReport) : Prop where
  variants : report.predictions.map ScoredCase.variant = weaker.predictions.map ScoredCase.variant
  overall : report.overall.CatchesMore weaker.overall
  byAttack : SlicesCatchMore report.byAttack weaker.byAttack
  byCategory : SlicesCatchMore report.byCategory weaker.byCategory

/-- The item with the index is flagged. -/
def EvaluationReport.Flags (report : EvaluationReport) (i : ℕ) : Prop :=
  ∃ item, report.predictions[i]? = some item ∧ report.decisionThreshold ≤ item.score

/-! ## Two models on the same cases -/

def visits (attacks : AttackTable) (cases : List EvaluationCase) :
    List (EvaluationCase × String × (String → String)) :=
  cases.flatMap fun case ↦ attacks.items.map fun attack ↦ (case, attack)

/-- What the inner loop makes of a visit. -/
def visit (u : Unicode) (model : ToxicityModel)
    (pair : EvaluationCase × String × (String → String)) : ScoredCase :=
  variantOf u model pair.1 pair.2

section Compare

variable {u : Unicode} {weaker stronger : ToxicityModel} {threshold threshold' : ℚ}
  {attacks : AttackTable} {cases : List EvaluationCase}
  {pairs : List (EvaluationCase × String × (String → String))}

theorem variantsOf_eq_map (u : Unicode) (model : ToxicityModel) (attacks : AttackTable)
    (cases : List EvaluationCase) :
    variantsOf u model attacks cases = (visits attacks cases).map (visit u model) := by
  rw [variantsOf, visits, List.map_flatMap]
  refine List.flatMap_congr fun case _ ↦ ?_
  rw [List.map_map]
  rfl

theorem catchesMore_metricsOf
    (h : ∀ text, threshold ≤ weaker.predictScore text → threshold' ≤ stronger.predictScore text) :
    (metricsOf threshold' (pairs.map (visit u stronger))).CatchesMore
      (metricsOf threshold (pairs.map (visit u weaker))) := by
  have hmore : Confusion.FlagsMore (confusionOf threshold (pairs.map (visit u weaker)))
      (confusionOf threshold' (pairs.map (visit u stronger))) := by
    rw [confusionOf, confusionOf, Confusion.tally_map, Confusion.tally_map]
    exact Confusion.tally_flagsMore fun pair _ hflagged ↦
      decide_eq_true (h _ (of_decide_eq_true hflagged))
  exact ⟨hmore.truePositiveRate_le, hmore.falsePositiveRate_le, hmore.falseNegativeRate_le⟩

theorem slicesCatchMore {attributeOf : ScoredCase → String}
    (hattribute : ∀ pair, attributeOf (visit u stronger pair) = attributeOf (visit u weaker pair))
    (h : ∀ text, threshold ≤ weaker.predictScore text → threshold' ≤ stronger.predictScore text) :
    SlicesCatchMore (slicesOf attributeOf threshold' (pairs.map (visit u stronger)))
      (slicesOf attributeOf threshold (pairs.map (visit u weaker))) where
  keys name := by
    have hsame : attributeOf ∘ visit u stronger = attributeOf ∘ visit u weaker := funext hattribute
    rw [mem_keys_slicesOf, mem_keys_slicesOf, List.map_map, List.map_map, hsame]
  metrics name metrics metrics' hget hget' := by
    obtain ⟨-, rfl⟩ := get_slicesOf_eq_some.mp hget
    obtain ⟨-, rfl⟩ := get_slicesOf_eq_some.mp hget'
    have hfilter : ∀ model, (∀ pair, attributeOf (visit u model pair)
        = attributeOf (visit u weaker pair)) →
        slice attributeOf name (pairs.map (visit u model))
          = (pairs.filter fun pair ↦ attributeOf (visit u weaker pair) = name).map
            (visit u model) := by
      intro model hmodel
      rw [slice, List.filter_map]
      congr 1
      apply List.filter_congr
      intro pair _
      rw [Function.comp_apply, hmodel]
    rw [hfilter stronger hattribute, hfilter weaker fun _ ↦ rfl]
    exact catchesMore_metricsOf h

/-- A model that flags whatever another one flags has a report that catches more. -/
theorem catchesMore_modelReportOf (u : Unicode) (stronger weaker : EvaluatedModel)
    (attacks : AttackTable) (cases : List EvaluationCase)
    (h : ∀ text, threshold ≤ weaker.predictScore text → threshold' ≤ stronger.predictScore text) :
    (modelReportOf u stronger threshold' attacks cases).CatchesMore
      (modelReportOf u weaker threshold attacks cases) := by
  rw [modelReportOf, modelReportOf, reportOf, reportOf, variantsOf_eq_map, variantsOf_eq_map]
  constructor
  · show List.map _ _ = List.map _ _
    rw [List.map_map, List.map_map]
    rfl
  · exact catchesMore_metricsOf h
  · exact slicesCatchMore (fun _ ↦ rfl) h
  · exact slicesCatchMore (fun _ ↦ rfl) h

end Compare

theorem flags_modelReportOf {u : Unicode} {model : EvaluatedModel} {threshold : ℚ}
    {attacks : AttackTable} {cases : List EvaluationCase} {i : ℕ} :
    (modelReportOf u model threshold attacks cases).Flags i ↔
      ∃ pair, (visits attacks cases)[i]? = some pair ∧
        threshold ≤ (visit u model.toToxicityModel pair).score := by
  have hitem : ∀ item, (modelReportOf u model threshold attacks cases).predictions[i]? = some item ↔
      ∃ pair, (visits attacks cases)[i]? = some pair ∧
        visit u model.toToxicityModel pair = item := by
    intro item
    show (variantsOf u model.toToxicityModel attacks cases)[i]? = some item ↔ _
    rw [variantsOf_eq_map, List.getElem?_map, Option.map_eq_some_iff]
  simp only [EvaluationReport.Flags, hitem]
  constructor
  · rintro ⟨item, ⟨pair, hpair, rfl⟩, hflagged⟩
    exact ⟨pair, hpair, hflagged⟩
  · rintro ⟨pair, hpair, hflagged⟩
    exact ⟨_, ⟨pair, hpair, rfl⟩, hflagged⟩

/-- **The max ensemble never loses a detection of any member.** -/
theorem ensemble_never_loses (u : Unicode) (ensemble : MaxScoreToxicityEnsemble)
    (cases : List EvaluationCase) (hcases : cases ≠ []) (attacks : AttackTable)
    (hclean : "clean" ∈ attacks.keys)
    (hscores : ∀ member ∈ ensemble.models, ∀ text,
      0 ≤ member.predictScore text ∧ member.predictScore text ≤ 1)
    (memberVersions : ToxicityModel → Option (List String)) :
    (∀ member ∈ ensemble.models, ∀ threshold threshold', threshold' ≤ threshold →
      ∃ report memberReport,
        evaluateModel u ensemble.model cases threshold' attacks = .ok report ∧
        evaluateModel u ⟨member, memberVersions member⟩ cases threshold attacks
          = .ok memberReport ∧
        report.CatchesMore memberReport) ∧
    ∀ threshold, ∃ report,
      evaluateModel u ensemble.model cases threshold attacks = .ok report ∧
      ∀ i, report.Flags i ↔ ∃ member ∈ ensemble.models, ∃ memberReport,
        evaluateModel u ⟨member, memberVersions member⟩ cases threshold attacks
          = .ok memberReport ∧ memberReport.Flags i := by
  have hensemble : ∀ threshold, evaluateModel u ensemble.model cases threshold attacks
      = .ok (modelReportOf u ensemble.model threshold attacks cases) :=
    evaluateModel_of_mem hcases hclean (MaxScoreToxicityEnsemble.predictScore_mem hscores)
  have hmember : ∀ member ∈ ensemble.models, ∀ threshold,
      evaluateModel u ⟨member, memberVersions member⟩ cases threshold attacks
        = .ok (modelReportOf u ⟨member, memberVersions member⟩ threshold attacks cases) :=
    fun member hmem ↦ evaluateModel_of_mem hcases hclean (hscores member hmem)
  constructor
  · intro member hmem threshold threshold' hle
    refine ⟨_, _, hensemble threshold', hmember member hmem threshold, ?_⟩
    exact catchesMore_modelReportOf u _ _ attacks cases fun text hflagged ↦
      MaxScoreToxicityEnsemble.le_predictScore_iff.mpr ⟨member, hmem, hle.trans hflagged⟩
  · intro threshold
    refine ⟨_, hensemble threshold, fun i ↦ ?_⟩
    rw [flags_modelReportOf]
    constructor
    · rintro ⟨pair, hpair, hflagged⟩
      obtain ⟨member, hmem, hscore⟩ := MaxScoreToxicityEnsemble.le_predictScore_iff.mp hflagged
      exact ⟨member, hmem, _, hmember member hmem threshold,
        flags_modelReportOf.mpr ⟨pair, hpair, hscore⟩⟩
    · rintro ⟨member, hmem, memberReport, hreport, hflags⟩
      rw [hmember member hmem threshold] at hreport
      cases hreport
      obtain ⟨pair, hpair, hscore⟩ := flags_modelReportOf.mp hflags
      exact ⟨pair, hpair, MaxScoreToxicityEnsemble.le_predictScore_iff.mpr ⟨member, hmem, hscore⟩⟩

/-- The keyword model and one that flags nothing. -/
def sampleEnsemble : MaxScoreToxicityEnsemble where
  models := [sampleModel.toToxicityModel, ⟨"silent-test-v1", fun _ ↦ 0⟩]
  two_le_length := le_rfl

theorem ensemble_never_loses_sample : ∃ report memberReport,
    evaluateModel Unicode.sample sampleEnsemble.model sampleCases defaultThreshold cleanTable
      = .ok report ∧
    evaluateModel Unicode.sample sampleModel sampleCases defaultThreshold cleanTable
      = .ok memberReport ∧
    memberReport.overall.recall ≤ report.overall.recall := by
  have hscores : ∀ member ∈ sampleEnsemble.models, ∀ text,
      0 ≤ member.predictScore text ∧ member.predictScore text ≤ 1 := by
    refine List.forall_mem_cons.mpr ⟨sampleModel_predictScore_mem, ?_⟩
    rw [List.forall_mem_singleton]
    exact fun text ↦ ⟨le_rfl, zero_le_one⟩
  obtain ⟨report, memberReport, hreport, hmember, hcatches⟩ :=
    (ensemble_never_loses Unicode.sample sampleEnsemble sampleCases (by decide) cleanTable
      (by decide) hscores fun _ ↦ none).1 sampleModel.toToxicityModel List.mem_cons_self
      defaultThreshold defaultThreshold le_rfl
  exact ⟨report, memberReport, hreport, hmember, hcatches.overall.recall_le⟩

end Sentinel
