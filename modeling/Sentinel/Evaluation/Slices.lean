import Mathlib.Tactic.NormNum
import Sentinel.Evaluation.Report

/-!
# Slices lose and double-count nothing

The slices of a report are its groups by an attribute, and a confusion matrix is a sum over items.
So the matrices of the slices add up to that of the whole, for every attribute. That each matrix
also adds up to its number of examples needs labels that are 0 or 1: any other label is counted as
an example and in no entry.

In the report on a model the slice of an attack has one item for each case, in the order of the
cases, because a mapping has one attack under a name.
-/

namespace Sentinel

open Collections Statistics

def EvaluationReport.metrics (report : EvaluationReport) : List BinaryMetrics :=
  report.overall :: (report.byAttack.values ++ report.byCategory.values)

structure BinaryMetrics.Accounted (metrics : BinaryMetrics) : Prop where
  examples : metrics.confusionMatrix.tn + metrics.confusionMatrix.fp + metrics.confusionMatrix.fn
    + metrics.confusionMatrix.tp = metrics.examples
  f1 : metrics.f1 = if 0 < metrics.confusionMatrix.tp then
      (2 * metrics.confusionMatrix.tp / (2 * metrics.confusionMatrix.tp
        + metrics.confusionMatrix.fp + metrics.confusionMatrix.fn) : ℚ)
    else 0

structure EvaluationReport.Accounted (report : EvaluationReport) : Prop where
  byAttack : (report.byAttack.values.map BinaryMetrics.confusionMatrix).sum
    = report.overall.confusionMatrix
  byCategory : (report.byCategory.values.map BinaryMetrics.confusionMatrix).sum
    = report.overall.confusionMatrix
  metrics : ∀ metrics ∈ report.metrics, metrics.Accounted

def Labelled (scored : List ScoredCase) : Prop := ∀ item ∈ scored, item.label = 0 ∨ item.label = 1

instance : DecidablePred Labelled := fun scored ↦
  inferInstanceAs (Decidable (∀ item ∈ scored, item.label = 0 ∨ item.label = 1))

variable {scored items : List ScoredCase} {threshold : ℚ} {attacks : AttackTable}

/-! ## Sums -/

/-- **The matrices of the slices add up to that of the whole.** -/
theorem sum_confusionMatrix_slicesOf (attributeOf : ScoredCase → String) (threshold : ℚ)
    (scored : List ScoredCase) : ((slicesOf attributeOf threshold scored).values.map
      BinaryMetrics.confusionMatrix).sum = confusionOf threshold scored := by
  have hsum := sum_items_group attributeOf (fun item ↦ confusionOf threshold [item]) scored
  simp only [confusionOf, ← Confusion.tally_eq_sum] at hsum
  rw [Dict.values, items_slicesOf, List.map_map, List.map_map]
  exact ((Dict.sortedItems_perm _).map _).sum_eq.trans hsum

theorem Labelled.negative_eq (h : Labelled items) :
    ∀ item ∈ items, decide (item.label = 0) = !decide (item.label = 1) := by
  intro item hitem
  rcases h item hitem with hzero | hone
  · rw [hzero]
    rfl
  · rw [hone]
    rfl

theorem accounted_metricsOf (hlabels : Labelled items) (threshold : ℚ) :
    (metricsOf threshold items).Accounted where
  examples := Confusion.total_tally hlabels.negative_eq
  f1 := harmonicMean_rate _ _ _

theorem Labelled.slice (h : Labelled scored) (attributeOf : ScoredCase → String) (name : String) :
    Labelled (slice attributeOf name scored) :=
  fun item hitem ↦ h item (List.mem_filter.mp hitem).1

theorem accounted_reportOf (hlabels : Labelled scored) (modelVersion : String) (threshold : ℚ)
    (thresholdCandidates : List ℚ) :
    (reportOf modelVersion threshold thresholdCandidates scored).Accounted where
  byAttack := sum_confusionMatrix_slicesOf _ _ _
  byCategory := sum_confusionMatrix_slicesOf _ _ _
  metrics := by
    have hslices : ∀ attributeOf, ∀ metrics ∈ (slicesOf attributeOf threshold scored).values,
        metrics.Accounted := by
      intro attributeOf metrics hmetrics
      obtain ⟨name, hget⟩ := Dict.mem_values.mp hmetrics
      rw [(get_slicesOf_eq_some.mp hget).2]
      exact accounted_metricsOf (hlabels.slice attributeOf name) threshold
    refine List.forall_mem_cons.mpr ⟨accounted_metricsOf hlabels threshold, ?_⟩
    exact List.forall_mem_append.mpr ⟨hslices _, hslices _⟩

/-! ## The slices of a model -/

/-- **The slice of an attack is one variant of each case**, in the order of the cases. -/
theorem slice_variantsOf (u : Unicode) (cases : List EvaluationCase) {name : String}
    {attack : String → String} (h : attacks.get name = some attack) (model : ToxicityModel) :
    slice ScoredCase.attack name (variantsOf u model attacks cases)
      = cases.map fun case ↦ variantOf u model case (name, attack) := by
  have hcase : ∀ case, (attacks.items.map (variantOf u model case)).filter
      (fun item ↦ item.attack = name) = [variantOf u model case (name, attack)] := by
    intro case
    rw [List.filter_map]
    exact congrArg (List.map (variantOf u model case)) (Dict.filter_items_of_get h)
  rw [slice, variantsOf, List.filter_flatMap, List.map_eq_flatMap]
  exact List.flatMap_congr fun case _ ↦ hcase case

/-- What an item keeps of its case. -/
def ScoredCase.case (item : ScoredCase) : String × ℤ × String :=
  (item.caseId, item.label, item.category)

/-- **Slices lose and double-count nothing.** A report on scores is accounted for by its slices, and
in a report on a model the slice of an attack has one item for each case. -/
theorem slices_account :
    (∀ modelVersion scored threshold thresholdCandidates, Labelled scored →
      (∃ item ∈ scored, item.attack = "clean") →
      ∃ report, evaluateScores modelVersion scored threshold thresholdCandidates = .ok report ∧
        report.Accounted) ∧
    ∀ u model cases threshold attacks report,
      evaluateModel u model cases threshold attacks = .ok report →
      ∀ name, (name ∈ report.byAttack.keys ↔ name ∈ attacks.keys) ∧
        ∀ metrics, report.byAttack.get name = some metrics →
          metrics.examples = cases.length ∧
          (slice ScoredCase.attack name report.predictions).map ScoredCase.case
            = cases.map fun case ↦ (case.caseId, case.label, case.category) := by
  constructor
  · rintro modelVersion scored threshold thresholdCandidates hlabels ⟨item, hitem, hclean⟩
    have hmem : "clean" ∈ scored.map ScoredCase.attack := List.mem_map.mpr ⟨item, hitem, hclean⟩
    exact ⟨_, evaluateScores_eq_ok_iff.mpr ⟨hmem, rfl⟩, accounted_reportOf hlabels _ _ _⟩
  · intro u model cases threshold attacks report hreport name
    obtain ⟨-, ⟨hcases, -⟩, rfl⟩ := evaluateModel_eq_ok_iff.mp hreport
    refine ⟨?_, fun metrics hget ↦ ?_⟩
    · refine mem_keys_slicesOf.trans (mem_attacks_variantsOf.trans (and_iff_right hcases))
    · obtain ⟨hmem, rfl⟩ := get_slicesOf_eq_some.mp hget
      obtain ⟨attack, hattack⟩ := Dict.mem_keys.mp (mem_attacks_variantsOf.mp hmem).2
      have hslice := slice_variantsOf u cases hattack model.toToxicityModel
      constructor
      · show (slice _ _ _).length = _
        rw [hslice, List.length_map]
      · show (slice _ _ (variantsOf _ _ _ _)).map _ = _
        rw [hslice, List.map_map]
        rfl

/-- An unsafe case that one attack hides, and a safe one. -/
def sampleScored : List ScoredCase :=
  [⟨"unsafe-1", 1, "toxicity", "clean", 9 / 10⟩, ⟨"safe-1", 0, "safe", "clean", 1 / 10⟩,
    ⟨"unsafe-1", 1, "toxicity", "evasion", 1 / 5⟩, ⟨"safe-1", 0, "safe", "evasion", 1 / 10⟩]

/-- A model that knows one word. -/
def sampleModel : EvaluatedModel where
  version := "keyword-test-v1"
  predictScore text := if text = "unsafe" then 9 / 10 else 1 / 10

theorem sampleModel_predictScore_mem (text : String) :
    0 ≤ sampleModel.predictScore text ∧ sampleModel.predictScore text ≤ 1 := by
  show 0 ≤ (if text = "unsafe" then (9 / 10 : ℚ) else 1 / 10) ∧
    (if text = "unsafe" then (9 / 10 : ℚ) else 1 / 10) ≤ 1
  split_ifs
  · norm_num
  · norm_num

def sampleCases : List EvaluationCase :=
  [⟨"safe-1", "safe", 0, "safe", "test"⟩, ⟨"unsafe-1", "unsafe", 1, "toxicity", "test"⟩]

/-- The mapping with the clean attack alone. -/
def cleanTable : AttackTable := ⟨[("clean", Attack.clean)], by decide⟩

theorem slices_account_sample :
    (∃ report, evaluateScores "test-v1" sampleScored = .ok report ∧
      (report.byAttack.values.map BinaryMetrics.confusionMatrix).sum
        = report.overall.confusionMatrix) ∧
    ∃ report, evaluateModel Unicode.sample sampleModel sampleCases defaultThreshold cleanTable
        = .ok report ∧
      (slice ScoredCase.attack "clean" report.predictions).map ScoredCase.case
        = [("safe-1", 0, "safe"), ("unsafe-1", 1, "toxicity")] := by
  constructor
  · obtain ⟨report, hreport, haccounted⟩ := slices_account.1 "test-v1" sampleScored
      defaultThreshold defaultCandidates (by decide) (by decide)
    exact ⟨report, hreport, haccounted.byAttack⟩
  · have hreport : evaluateModel Unicode.sample sampleModel sampleCases defaultThreshold cleanTable
        = .ok (modelReportOf Unicode.sample sampleModel defaultThreshold cleanTable sampleCases) :=
      evaluateModel_of_mem (by decide) (by decide) sampleModel_predictScore_mem defaultThreshold
    obtain ⟨hkeys, hslice⟩ := slices_account.2 Unicode.sample sampleModel sampleCases
      defaultThreshold cleanTable _ hreport "clean"
    obtain ⟨metrics, hget⟩ := Dict.mem_keys.mp (hkeys.mpr (by decide))
    exact ⟨_, hreport, (hslice metrics hget).2⟩

end Sentinel
