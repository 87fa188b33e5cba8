import Mathlib.Algebra.Order.Ring.Rat
import Mathlib.Data.String.Basic
import Sentinel.Collections.Grouping
import Sentinel.Collections.Traversal
import Sentinel.Evaluation.Attacks
import Sentinel.Statistics.Confusion

/-!
# Evaluation metrics

`binary_metrics`, the slices by attack and by category, and the report on a list of scores or on a
model. Scores, thresholds and ratios are exact rationals in place of floats.

The report is a function of the scored cases once it is clear that nothing raises. A slice is never
empty, so the metrics of the slices do not raise; the report raises exactly where no case is clean,
and the evaluation of a model also where the model leaves the unit interval.
-/

namespace Sentinel

open Collections Statistics

/-! ## The report on scores -/

/-- `EvaluationCase`. -/
structure EvaluationCase where
  caseId : String
  text : String
  label : ℤ
  category : String
  source : String
deriving DecidableEq

/-- `ScoredCase`. -/
structure ScoredCase where
  caseId : String
  label : ℤ
  category : String
  attack : String
  score : ℚ
deriving DecidableEq

/-- What the evaluation can raise. -/
inductive EvaluationError
  | valueError (message : String)
  /-- `ValueError("model score must be within [0, 1], got ...")`. -/
  | scoreOutOfRange (score : ℚ)
  | keyError (key : String)
deriving DecidableEq

/-- What `binary_metrics` returns. -/
structure BinaryMetrics where
  examples : ℕ
  threshold : ℚ
  accuracy : ℚ
  precision : ℚ
  «recall» : ℚ
  f1 : ℚ
  falsePositiveRate : ℚ
  falseNegativeRate : ℚ
  confusionMatrix : Confusion
deriving DecidableEq

/-- `binary_metrics`. A ratio without a denominator is zero. -/
def binaryMetrics (labels : List ℤ) (scores : List ℚ) (threshold : ℚ) :
    Except EvaluationError BinaryMetrics :=
  if labels.length ≠ scores.length ∨ labels = [] then
    .error (.valueError "labels and scores must be non-empty and equal in length")
  else
    let predictions : List ℤ := scores.map fun score ↦ if threshold ≤ score then 1 else 0
    let pairs := labels.zip predictions
    let tp := pairs.countP fun (label, prediction) ↦ label = 1 && prediction = 1
    let tn := pairs.countP fun (label, prediction) ↦ label = 0 && prediction = 0
    let fp := pairs.countP fun (label, prediction) ↦ label = 0 && prediction = 1
    let fn := pairs.countP fun (label, prediction) ↦ label = 1 && prediction = 0
    let precision : ℚ := rate tp (tp + fp)
    let «recall» : ℚ := rate tp (tp + fn)
    .ok
      { examples := labels.length
        threshold := threshold
        accuracy := (tp + tn) / labels.length
        precision := precision
        «recall» := «recall»
        f1 := harmonicMean precision «recall»
        falsePositiveRate := rate fp (fp + tn)
        falseNegativeRate := rate fn (fn + tp)
        confusionMatrix := ⟨tn, fp, fn, tp⟩ }

/-- `_slice_metrics`. -/
def sliceMetrics (scored : List ScoredCase) (attributeOf : ScoredCase → String) (threshold : ℚ) :
    Except EvaluationError (Dict String BinaryMetrics) := do
  let items ← (group attributeOf scored).sortedItems.mapM fun (name, items) ↦ do
    let metrics ←
      binaryMetrics (items.map ScoredCase.label) (items.map ScoredCase.score) threshold
    return (name, metrics)
  return Dict.ofItems items

/-- `slices[name]`. -/
def getItem (slices : Dict String BinaryMetrics) (name : String) :
    Except EvaluationError BinaryMetrics :=
  match slices.get name with
  | some metrics => .ok metrics
  | none => .error (.keyError name)

/-- The entry `robustness` of a report. -/
structure Robustness where
  cleanRecall : ℚ
  worstAttackRecall : ℚ
  maximumRecallDropFromClean : ℚ
deriving DecidableEq

/-- What `evaluate_scores` and `evaluate_model` return. -/
structure EvaluationReport where
  modelVersion : String
  preprocessorVersion : String
  decisionThreshold : ℚ
  overall : BinaryMetrics
  byAttack : Dict String BinaryMetrics
  byCategory : Dict String BinaryMetrics
  robustness : Robustness
  thresholdAnalysis : List BinaryMetrics
  predictions : List ScoredCase
  memberVersions : Option (List String) := none
deriving DecidableEq

/-- The default of `threshold`. -/
def defaultThreshold : ℚ := 2 / 5

/-- The default of `threshold_candidates`. -/
def defaultCandidates : List ℚ := [3 / 10, 2 / 5, 1 / 2, 3 / 5, 7 / 10]

/-- `evaluate_scores`. -/
def evaluateScores (modelVersion : String) (scored : List ScoredCase)
    (threshold : ℚ := defaultThreshold) (thresholdCandidates : List ℚ := defaultCandidates) :
    Except EvaluationError EvaluationReport := do
  let labels := scored.map ScoredCase.label
  let scores := scored.map ScoredCase.score
  let attackSlices ← sliceMetrics scored ScoredCase.attack threshold
  let clean ← getItem attackSlices "clean"
  let cleanRecall := clean.recall
  let attackedRecalls := (attackSlices.items.filter fun (name, _) ↦ name ≠ "clean").map
    fun (_, metrics) ↦ metrics.recall
  let overall ← binaryMetrics labels scores threshold
  let byCategory ← sliceMetrics scored ScoredCase.category threshold
  let thresholdAnalysis ← thresholdCandidates.mapM (binaryMetrics labels scores)
  return {
    modelVersion := modelVersion
    preprocessorVersion := normalizationVersion
    decisionThreshold := threshold
    overall := overall
    byAttack := attackSlices
    byCategory := byCategory
    robustness :=
      { cleanRecall := cleanRecall
        worstAttackRecall := attackedRecalls.min?.getD cleanRecall
        maximumRecallDropFromClean :=
          (attackedRecalls.map fun attackedRecall ↦ cleanRecall - attackedRecall).max?.getD 0 }
    thresholdAnalysis := thresholdAnalysis
    predictions := scored }

/-! ## The report on a model -/

/-- A model as the evaluation sees it: it may have the attribute `member_versions`. -/
structure EvaluatedModel extends ToxicityModel where
  memberVersions : Option (List String) := none

/-- A mapping from the names of attacks to attacks. -/
abbrev AttackTable := Dict String (String → String)

/-- `ATTACKS`, as a mapping. -/
def attackTable (u : Unicode) : AttackTable where
  items := attacks u
  nodup := by simp [attacks]

/-- The body of the inner loop of `evaluate_model`. -/
def scoreVariant (u : Unicode) (model : ToxicityModel) (case : EvaluationCase)
    (attack : String × (String → String)) : Except EvaluationError ScoredCase :=
  let transformedText := attack.2 case.text
  let canonicalText := normalizeText u transformedText
  let score := model.predictScore canonicalText
  if ¬(0 ≤ score ∧ score ≤ 1) then .error (.scoreOutOfRange score)
  else
    .ok
      { caseId := case.caseId
        label := case.label
        category := case.category
        attack := attack.1
        score := score }

/-- `evaluate_model`. -/
def evaluateModel (u : Unicode) (model : EvaluatedModel) (cases : List EvaluationCase)
    (threshold : ℚ := defaultThreshold) (attacks : AttackTable := attackTable u) :
    Except EvaluationError EvaluationReport := do
  let scored ← cases.mapM fun case ↦ attacks.items.mapM (scoreVariant u model.toToxicityModel case)
  let report ← evaluateScores model.version scored.flatten threshold
  return { report with memberVersions := model.memberVersions }

end Sentinel
