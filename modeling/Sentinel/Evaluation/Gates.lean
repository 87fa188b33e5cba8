import Mathlib.Data.Rat.Floor
import Sentinel.Evaluation.Slices

/-!
# The promotion gate

`check_evaluation_gates` reads five numbers of a report and compares each with its requirement. Two
of the numbers are a minimum and a maximum over the slices that are not clean, with defaults for the
case that there are none. A comparison with an extreme is one with every slice, so the gate speaks
about every attack although it never sees one.
-/

namespace Sentinel

open Collections Statistics

/-! ## The gate -/

/-- The requirements that are read from `config/evaluation-gates.json`. -/
structure GateRequirements where
  minimumOverallRecall : ℚ
  minimumOverallPrecision : ℚ
  minimumWorstAttackRecall : ℚ
  maximumFalsePositiveRate : ℚ
  maximumRecallDropFromClean : ℚ
deriving DecidableEq

/-- `GateResult`. -/
structure GateResult where
  passed : Bool
  failures : List String
deriving DecidableEq

/-- A member of `checks`. -/
structure GateCheck where
  passed : Bool
  name : String
  actual : ℚ
  expected : ℚ
  operator : String

/-- `checks`. -/
def gateChecks (report : EvaluationReport) (requirements : GateRequirements) : List GateCheck :=
  [⟨requirements.minimumOverallRecall ≤ report.overall.recall, "overall recall",
      report.overall.recall, requirements.minimumOverallRecall, ">="⟩,
    ⟨requirements.minimumOverallPrecision ≤ report.overall.precision, "overall precision",
      report.overall.precision, requirements.minimumOverallPrecision, ">="⟩,
    ⟨requirements.minimumWorstAttackRecall ≤ report.robustness.worstAttackRecall,
      "worst attack recall", report.robustness.worstAttackRecall,
      requirements.minimumWorstAttackRecall, ">="⟩,
    ⟨report.overall.falsePositiveRate ≤ requirements.maximumFalsePositiveRate,
      "false positive rate", report.overall.falsePositiveRate,
      requirements.maximumFalsePositiveRate, "<="⟩,
    ⟨report.robustness.maximumRecallDropFromClean ≤ requirements.maximumRecallDropFromClean,
      "maximum recall drop from clean", report.robustness.maximumRecallDropFromClean,
      requirements.maximumRecallDropFromClean, "<="⟩]

/-- The nearest integer, and of two the even one. -/
def roundHalfEven (x : ℚ) : ℤ :=
  let rest := x - ⌊x⌋
  if rest < 1 / 2 ∨ rest = 1 / 2 ∧ ⌊x⌋ % 2 = 0 then ⌊x⌋ else ⌊x⌋ + 1

/-- `f"{x:.3f}"`. -/
def formatFixed (x : ℚ) : String :=
  let scaled := (roundHalfEven (|x| * 1000)).toNat
  (if x < 0 then "-" else "") ++ toString (scaled / 1000) ++ "."
    ++ String.ofList (Text.digits 10 3 scaled)

example : [2 / 3, -1 / 8, 1 / 2000, 3 / 2000, 1].map formatFixed
    = ["0.667", "-0.125", "0.000", "0.002", "1.000"] := by decide +kernel

def GateCheck.failure (check : GateCheck) : String :=
  check.name ++ " " ++ formatFixed check.actual ++ " must be " ++ check.operator ++ " "
    ++ formatFixed check.expected

/-- `check_evaluation_gates`. -/
def checkEvaluationGates (report : EvaluationReport) (requirements : GateRequirements) :
    GateResult :=
  let failures := ((gateChecks report requirements).filter fun check ↦ !check.passed).map
    GateCheck.failure
  ⟨failures.isEmpty, failures⟩

/-- The gate passes where all checks do, and it has a failure for each check that does not. -/
theorem checkEvaluationGates_passed {report : EvaluationReport} {requirements : GateRequirements} :
    (checkEvaluationGates report requirements).passed = true ↔
      ∀ check ∈ gateChecks report requirements, check.passed = true := by
  rw [checkEvaluationGates, List.isEmpty_iff, List.map_eq_nil_iff, List.filter_eq_nil_iff]
  simp only [Bool.not_eq_true', Bool.not_eq_false]

theorem forall_mem_gateChecks {report : EvaluationReport} {requirements : GateRequirements} :
    (∀ check ∈ gateChecks report requirements, check.passed = true) ↔
      requirements.minimumOverallRecall ≤ report.overall.recall ∧
      requirements.minimumOverallPrecision ≤ report.overall.precision ∧
      requirements.minimumWorstAttackRecall ≤ report.robustness.worstAttackRecall ∧
      report.overall.falsePositiveRate ≤ requirements.maximumFalsePositiveRate ∧
      report.robustness.maximumRecallDropFromClean ≤ requirements.maximumRecallDropFromClean := by
  simp only [gateChecks, List.forall_mem_cons, List.not_mem_nil, false_imp_iff, implies_true,
    and_true, decide_eq_true_eq]

/-! ## Extremes with defaults -/

section Extremes

variable {α : Type*} [LinearOrder α] {l : List α} {bound value : α}

theorem le_min?_getD_iff :
    bound ≤ l.min?.getD value ↔ (∀ x ∈ l, bound ≤ x) ∧ (l = [] → bound ≤ value) := by
  cases hmin : l.min? with
  | none =>
    obtain rfl := List.min?_eq_none_iff.mp hmin
    simp
  | some least =>
    have hne : l ≠ [] := by
      rintro rfl
      cases hmin
    rw [Option.getD_some, List.le_min?_iff hmin, and_iff_left fun hnil ↦ absurd hnil hne]

theorem max?_getD_le_iff :
    l.max?.getD value ≤ bound ↔ (∀ x ∈ l, x ≤ bound) ∧ (l = [] → value ≤ bound) := by
  cases hmax : l.max? with
  | none =>
    obtain rfl := List.max?_eq_none_iff.mp hmax
    simp
  | some greatest =>
    have hne : l ≠ [] := by
      rintro rfl
      cases hmax
    rw [Option.getD_some, List.max?_le_iff hmax, and_iff_left fun hnil ↦ absurd hnil hne]

end Extremes

/-! ## What the gate is for -/

/-- The part of the unsafe items that is flagged. -/
def recallOn (threshold : ℚ) (items : List ScoredCase) : ℚ :=
  rate (items.countP fun item ↦ item.label = 1 && threshold ≤ item.score)
    (items.countP fun item ↦ item.label = 1)

/-- The part of the flagged items that is unsafe. -/
def precisionOn (threshold : ℚ) (items : List ScoredCase) : ℚ :=
  rate (items.countP fun item ↦ item.label = 1 && threshold ≤ item.score)
    (items.countP fun item ↦ threshold ≤ item.score)

/-- The part of the safe items that is flagged. -/
def falsePositiveRateOn (threshold : ℚ) (items : List ScoredCase) : ℚ :=
  rate (items.countP fun item ↦ item.label = 0 && threshold ≤ item.score)
    (items.countP fun item ↦ item.label = 0)

/-- The scores of a model that may be promoted. -/
structure Promotable (requirements : GateRequirements) (threshold : ℚ)
    (scored : List ScoredCase) : Prop where
  overallRecall : requirements.minimumOverallRecall ≤ recallOn threshold scored
  overallPrecision : requirements.minimumOverallPrecision ≤ precisionOn threshold scored
  falsePositiveRate : falsePositiveRateOn threshold scored ≤ requirements.maximumFalsePositiveRate
  attacked : ∀ item ∈ scored, item.attack ≠ "clean" →
    requirements.minimumWorstAttackRecall
        ≤ recallOn threshold (slice ScoredCase.attack item.attack scored) ∧
      recallOn threshold (slice ScoredCase.attack "clean" scored)
          - requirements.maximumRecallDropFromClean
        ≤ recallOn threshold (slice ScoredCase.attack item.attack scored)
  clean : (∀ item ∈ scored, item.attack = "clean") →
    requirements.minimumWorstAttackRecall
        ≤ recallOn threshold (slice ScoredCase.attack "clean" scored) ∧
      0 ≤ requirements.maximumRecallDropFromClean

section Promotable

variable {scored items : List ScoredCase} {threshold : ℚ} {requirements : GateRequirements}

theorem recall_metricsOf (threshold : ℚ) (items : List ScoredCase) :
    (metricsOf threshold items).recall = recallOn threshold items := by
  rw [metricsOf, recallOn, Confusion.truePositiveRate, confusionOf, Confusion.tp_add_fn]
  rfl

theorem precision_metricsOf (hlabels : Labelled items) (threshold : ℚ) :
    (metricsOf threshold items).precision = precisionOn threshold items := by
  rw [metricsOf, precisionOn, Confusion.precision, confusionOf,
    Confusion.tp_add_fp hlabels.negative_eq]
  rfl

theorem falsePositiveRate_metricsOf (threshold : ℚ) (items : List ScoredCase) :
    (metricsOf threshold items).falsePositiveRate = falsePositiveRateOn threshold items := by
  rw [metricsOf, falsePositiveRateOn, Confusion.falsePositiveRate, confusionOf, Confusion.fp_add_tn]
  rfl

/-- The recalls that the extremes are taken over are those of the attacks that occur. -/
theorem forall_mem_attackedRecalls {p : ℚ → Prop} :
    (∀ value ∈ attackedRecalls threshold scored, p value) ↔
      ∀ item ∈ scored, item.attack ≠ "clean" →
        p (recallOn threshold (slice ScoredCase.attack item.attack scored)) := by
  constructor
  · intro h item hitem hattack
    rw [← recall_metricsOf]
    exact h _ (mem_attackedRecalls.mpr
      ⟨item.attack, List.mem_map.mpr ⟨item, hitem, rfl⟩, hattack, rfl⟩)
  · intro h value hvalue
    obtain ⟨name, hname, hattack, rfl⟩ := mem_attackedRecalls.mp hvalue
    obtain ⟨item, hitem, rfl⟩ := List.mem_map.mp hname
    rw [recall_metricsOf]
    exact h item hitem hattack

theorem attackedRecalls_eq_nil (threshold : ℚ) (scored : List ScoredCase) :
    attackedRecalls threshold scored = [] ↔ ∀ item ∈ scored, item.attack = "clean" := by
  rw [List.eq_nil_iff_forall_not_mem]
  refine (forall_mem_attackedRecalls (p := fun _ ↦ False)).trans ?_
  exact forall₂_congr fun item hitem ↦ not_not

theorem cleanRecall_eq (threshold : ℚ) (scored : List ScoredCase) : cleanRecall threshold scored
    = recallOn threshold (slice ScoredCase.attack "clean" scored) :=
  recall_metricsOf _ _

theorem le_worstAttackRecall_iff {bound : ℚ} {modelVersion : String}
    {thresholdCandidates : List ℚ} :
    bound ≤ (reportOf modelVersion threshold thresholdCandidates
        scored).robustness.worstAttackRecall
      ↔ (∀ item ∈ scored, item.attack ≠ "clean" →
          bound ≤ recallOn threshold (slice ScoredCase.attack item.attack scored)) ∧
        ((∀ item ∈ scored, item.attack = "clean") →
          bound ≤ recallOn threshold (slice ScoredCase.attack "clean" scored)) := by
  rw [← forall_mem_attackedRecalls, ← attackedRecalls_eq_nil threshold,
    ← cleanRecall_eq]
  exact le_min?_getD_iff

theorem maximumRecallDropFromClean_le_iff {bound : ℚ} {modelVersion : String}
    {thresholdCandidates : List ℚ} :
    (reportOf modelVersion threshold thresholdCandidates
        scored).robustness.maximumRecallDropFromClean ≤ bound
      ↔ (∀ item ∈ scored, item.attack ≠ "clean" →
          recallOn threshold (slice ScoredCase.attack "clean" scored) - bound
            ≤ recallOn threshold (slice ScoredCase.attack item.attack scored)) ∧
        ((∀ item ∈ scored, item.attack = "clean") → 0 ≤ bound) := by
  have hmax : ((attackedRecalls threshold scored).map fun value ↦
      cleanRecall threshold scored - value).max?.getD 0 ≤ bound ↔ _ := max?_getD_le_iff
  rw [List.forall_mem_map, List.map_eq_nil_iff] at hmax
  simp only [sub_le_comm (c := bound)] at hmax
  rw [forall_mem_attackedRecalls, attackedRecalls_eq_nil] at hmax
  rw [← cleanRecall_eq]
  exact hmax

/-- The gate on the report that the scored cases give. -/
theorem promotable_iff (hlabels : Labelled scored) {modelVersion : String}
    {thresholdCandidates : List ℚ} :
    (checkEvaluationGates (reportOf modelVersion threshold thresholdCandidates scored)
      requirements).passed = true ↔ Promotable requirements threshold scored := by
  have hrecall := recall_metricsOf threshold scored
  have hprecision := precision_metricsOf hlabels threshold
  have hrate := falsePositiveRate_metricsOf threshold scored
  rw [checkEvaluationGates_passed, forall_mem_gateChecks]
  constructor
  · rintro ⟨hoverall, hprecise, hleast, hfalse, hgreatest⟩
    obtain ⟨hattacked, hclean⟩ := le_worstAttackRecall_iff.mp hleast
    obtain ⟨hdrops, hzero⟩ := maximumRecallDropFromClean_le_iff.mp hgreatest
    exact
      { overallRecall := hoverall.trans_eq hrecall
        overallPrecision := hprecise.trans_eq hprecision
        falsePositiveRate := hrate.symm.trans_le hfalse
        attacked := fun item hitem hattack ↦
          ⟨hattacked item hitem hattack, hdrops item hitem hattack⟩
        clean := fun hall ↦ ⟨hclean hall, hzero hall⟩ }
  · intro h
    refine ⟨h.overallRecall.trans_eq hrecall.symm, h.overallPrecision.trans_eq hprecision.symm, ?_,
      hrate.trans_le h.falsePositiveRate, ?_⟩
    · exact le_worstAttackRecall_iff.mpr ⟨fun item hitem hattack ↦
        (h.attacked item hitem hattack).1, fun hall ↦ (h.clean hall).1⟩
    · exact maximumRecallDropFromClean_le_iff.mpr ⟨fun item hitem hattack ↦
        (h.attacked item hitem hattack).2, fun hall ↦ (h.clean hall).2⟩

end Promotable

/-- **The gate means what it says**, for every attack slice. -/
theorem gate_passed_iff (modelVersion : String) (scored : List ScoredCase) (threshold : ℚ)
    (thresholdCandidates : List ℚ) (requirements : GateRequirements) (hlabels : Labelled scored)
    (hclean : ∃ item ∈ scored, item.attack = "clean") :
    ∃ report, evaluateScores modelVersion scored threshold thresholdCandidates = .ok report ∧
      ((checkEvaluationGates report requirements).passed = true ↔
        Promotable requirements threshold scored) := by
  obtain ⟨item, hitem, hattack⟩ := hclean
  have hmem : "clean" ∈ scored.map ScoredCase.attack := List.mem_map.mpr ⟨item, hitem, hattack⟩
  exact ⟨_, evaluateScores_eq_ok_iff.mpr ⟨hmem, rfl⟩, promotable_iff hlabels⟩

/-- `config/evaluation-gates.json`. -/
def evaluationGates : GateRequirements :=
  ⟨3 / 5, 3 / 5, 3 / 10, 1 / 4, 1 / 2⟩

/-- The attack that hides every unsafe case is seen. -/
theorem gate_passed_iff_sample : ∃ report, evaluateScores "test-v1" sampleScored = .ok report ∧
    (checkEvaluationGates report evaluationGates).passed = false := by
  obtain ⟨report, hreport, hpassed⟩ := gate_passed_iff "test-v1" sampleScored defaultThreshold
    defaultCandidates evaluationGates (by decide) (by decide)
  refine ⟨report, hreport, Bool.eq_false_iff.mpr fun h ↦ ?_⟩
  have hattacked := ((hpassed.mp h).attacked ⟨"safe-1", 0, "safe", "evasion", 1 / 10⟩
    (by decide +kernel) (by decide)).1
  revert hattacked
  decide +kernel

end Sentinel
