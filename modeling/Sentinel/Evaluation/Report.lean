import Sentinel.Evaluation.Metrics

/-!
# What a report says

The functions of the evaluation raise only for what they are given, so what they return can be
written down without them. The metrics of a list of items are those of its confusion matrix, the
slice with a name is made of the items with that name, and a report is what these give. Every later
statement about a report is one about the items.
-/

namespace Sentinel

open Collections Statistics

/-! ## Metrics -/

def confusionOf (threshold : ℚ) (items : List ScoredCase) : Confusion :=
  Confusion.tally (fun item ↦ decide (item.label = 0)) (fun item ↦ decide (item.label = 1))
    (fun item ↦ decide (threshold ≤ item.score)) items

def metricsOf (threshold : ℚ) (items : List ScoredCase) : BinaryMetrics where
  examples := items.length
  threshold := threshold
  accuracy := ((confusionOf threshold items).tp + (confusionOf threshold items).tn) / items.length
  precision := (confusionOf threshold items).precision
  «recall» := (confusionOf threshold items).truePositiveRate
  f1 := harmonicMean (confusionOf threshold items).precision
    (confusionOf threshold items).truePositiveRate
  falsePositiveRate := (confusionOf threshold items).falsePositiveRate
  falseNegativeRate := (confusionOf threshold items).falseNegativeRate
  confusionMatrix := confusionOf threshold items

variable {scored items : List ScoredCase} {threshold : ℚ} {attributeOf : ScoredCase → String}
  {name : String}

theorem binaryMetrics_eq (h : items ≠ []) (threshold : ℚ) :
    binaryMetrics (items.map ScoredCase.label) (items.map ScoredCase.score) threshold
      = .ok (metricsOf threshold items) := by
  have hlengths : ¬((items.map ScoredCase.label).length ≠ (items.map ScoredCase.score).length ∨
      items.map ScoredCase.label = []) := by
    rw [List.length_map, List.length_map, List.map_eq_nil_iff, not_or]
    exact ⟨not_not.mpr rfl, h⟩
  have hone : ∀ item : ScoredCase, decide ((if threshold ≤ item.score then (1 : ℤ) else 0) = 1)
      = decide (threshold ≤ item.score) := by
    intro item
    split_ifs with hle
    · rw [decide_eq_true hle, decide_eq_true rfl]
    · rw [decide_eq_false hle, decide_eq_false zero_ne_one]
  have hzero : ∀ item : ScoredCase, decide ((if threshold ≤ item.score then (1 : ℤ) else 0) = 0)
      = !decide (threshold ≤ item.score) := by
    intro item
    split_ifs with hle
    · rw [decide_eq_true hle, decide_eq_false one_ne_zero, Bool.not_true]
    · rw [decide_eq_false hle, decide_eq_true rfl, Bool.not_false]
  rw [binaryMetrics, if_neg hlengths]
  simp only [List.map_map, List.zip_map', List.countP_map, Function.comp_def, hone, hzero,
    List.length_map]
  rfl

/-! ## Slices -/

def slice (attributeOf : ScoredCase → String) (name : String) (scored : List ScoredCase) :
    List ScoredCase :=
  scored.filter fun item ↦ attributeOf item = name

def slicesOf (attributeOf : ScoredCase → String) (threshold : ℚ) (scored : List ScoredCase) :
    Dict String BinaryMetrics :=
  Dict.ofItems ((group attributeOf scored).sortedItems.map fun item ↦
    (item.1, metricsOf threshold item.2))

theorem sliceMetrics_eq (scored : List ScoredCase) (attributeOf : ScoredCase → String)
    (threshold : ℚ) :
    sliceMetrics scored attributeOf threshold = .ok (slicesOf attributeOf threshold scored) := by
  have hbody : ∀ item ∈ (group attributeOf scored).sortedItems, ∀ result,
      (do let metrics ← binaryMetrics (item.2.map ScoredCase.label) (item.2.map ScoredCase.score)
            threshold
          return (item.1, metrics) : Except EvaluationError (String × BinaryMetrics)) = .ok result
        ↔ True ∧ result = (item.1, metricsOf threshold item.2) := by
    intro item hitem result
    have hne := ne_nil_of_mem_items_group ((Dict.sortedItems_perm _).mem_iff.mp hitem)
    rw [binaryMetrics_eq hne, true_and]
    show Except.ok (item.1, metricsOf threshold item.2) = .ok result ↔ _
    rw [Except.ok.injEq, eq_comm]
  rw [sliceMetrics, (mapM_eq_ok_iff hbody).mpr ⟨fun _ _ ↦ trivial, rfl⟩]
  rfl

theorem items_slicesOf (attributeOf : ScoredCase → String) (threshold : ℚ)
    (scored : List ScoredCase) : (slicesOf attributeOf threshold scored).items
      = (group attributeOf scored).sortedItems.map fun item ↦
        (item.1, metricsOf threshold item.2) := by
  refine Dict.items_ofItems ?_
  rw [List.map_map]
  exact Dict.nodup_sortedItems _

/-- **A slice has the metrics of its items.** -/
theorem get_slicesOf_eq_some {metrics : BinaryMetrics} :
    (slicesOf attributeOf threshold scored).get name = some metrics ↔
      name ∈ scored.map attributeOf ∧
        metrics = metricsOf threshold (slice attributeOf name scored) := by
  rw [Dict.get_eq_some, items_slicesOf, List.mem_map]
  simp only [(Dict.sortedItems_perm _).mem_iff, mem_items_group, Prod.mk.injEq]
  constructor
  · rintro ⟨item, ⟨hmem, hitem⟩, rfl, rfl⟩
    exact ⟨hmem, by rw [hitem]; rfl⟩
  · rintro ⟨hmem, rfl⟩
    exact ⟨(name, slice attributeOf name scored), ⟨hmem, rfl⟩, rfl, rfl⟩

theorem mem_keys_slicesOf : name ∈ (slicesOf attributeOf threshold scored).keys ↔
    name ∈ scored.map attributeOf := by
  rw [Dict.mem_keys]
  simp only [get_slicesOf_eq_some, exists_and_left, exists_eq, and_true]

/-! ## The report on scores -/

/-- The recalls of the slices that are not clean. -/
def attackedRecalls (threshold : ℚ) (scored : List ScoredCase) : List ℚ :=
  ((slicesOf ScoredCase.attack threshold scored).items.filter fun (name, _) ↦ name ≠ "clean").map
    fun (_, metrics) ↦ metrics.recall

theorem mem_attackedRecalls {value : ℚ} : value ∈ attackedRecalls threshold scored ↔
    ∃ name ∈ scored.map ScoredCase.attack, name ≠ "clean" ∧
      value = (metricsOf threshold (slice ScoredCase.attack name scored)).recall := by
  simp only [attackedRecalls, List.mem_map, List.mem_filter, decide_eq_true_eq]
  constructor
  · rintro ⟨⟨name, metrics⟩, ⟨hitem, hname⟩, rfl⟩
    obtain ⟨hmem, rfl⟩ := get_slicesOf_eq_some.mp (Dict.get_eq_some.mpr hitem)
    exact ⟨name, List.mem_map.mp hmem, hname, rfl⟩
  · rintro ⟨name, hmem, hname, rfl⟩
    have hget : (slicesOf ScoredCase.attack threshold scored).get name
        = some (metricsOf threshold (slice ScoredCase.attack name scored)) :=
      get_slicesOf_eq_some.mpr ⟨List.mem_map.mpr hmem, rfl⟩
    exact ⟨_, ⟨Dict.get_eq_some.mp hget, hname⟩, rfl⟩

def cleanRecall (threshold : ℚ) (scored : List ScoredCase) : ℚ :=
  (metricsOf threshold (slice ScoredCase.attack "clean" scored)).recall

def reportOf (modelVersion : String) (threshold : ℚ) (thresholdCandidates : List ℚ)
    (scored : List ScoredCase) : EvaluationReport where
  modelVersion := modelVersion
  preprocessorVersion := normalizationVersion
  decisionThreshold := threshold
  overall := metricsOf threshold scored
  byAttack := slicesOf ScoredCase.attack threshold scored
  byCategory := slicesOf ScoredCase.category threshold scored
  robustness :=
    { cleanRecall := cleanRecall threshold scored
      worstAttackRecall :=
        (attackedRecalls threshold scored).min?.getD (cleanRecall threshold scored)
      maximumRecallDropFromClean :=
        ((attackedRecalls threshold scored).map fun attackedRecall ↦
          cleanRecall threshold scored - attackedRecall).max?.getD 0 }
  thresholdAnalysis := thresholdCandidates.map fun candidate ↦ metricsOf candidate scored
  predictions := scored

/-- **The report on scores** is returned exactly if there is a clean case. -/
theorem evaluateScores_eq_ok_iff {modelVersion : String} {thresholdCandidates : List ℚ}
    {report : EvaluationReport} :
    evaluateScores modelVersion scored threshold thresholdCandidates = .ok report ↔
      "clean" ∈ scored.map ScoredCase.attack ∧
        report = reportOf modelVersion threshold thresholdCandidates scored := by
  cases hclean : (slicesOf ScoredCase.attack threshold scored).get "clean" with
  | none =>
    have hkey : getItem (slicesOf ScoredCase.attack threshold scored) "clean"
        = .error (.keyError "clean") := by
      rw [getItem, hclean]
    simp only [evaluateScores, sliceMetrics_eq, bind_eq_ok, Except.ok.injEq, exists_eq_left', hkey,
      reduceCtorEq, false_and, exists_false, false_iff]
    rintro ⟨hmem, -⟩
    rw [get_slicesOf_eq_some.mpr ⟨hmem, rfl⟩] at hclean
    cases hclean
  | some metrics =>
    obtain ⟨hmem, rfl⟩ := get_slicesOf_eq_some.mp hclean
    have hkey : getItem (slicesOf ScoredCase.attack threshold scored) "clean"
        = .ok (metricsOf threshold (slice ScoredCase.attack "clean" scored)) := by
      rw [getItem, hclean]
    have hne : scored ≠ [] := by
      rintro rfl
      cases hmem
    have hcandidates : thresholdCandidates.mapM (binaryMetrics (scored.map ScoredCase.label)
        (scored.map ScoredCase.score))
          = .ok (thresholdCandidates.map fun candidate ↦ metricsOf candidate scored) := by
      refine (mapM_eq_ok_iff fun candidate _ metrics ↦ ?_).mpr ⟨fun _ _ ↦ trivial, rfl⟩
      rw [binaryMetrics_eq hne, true_and, Except.ok.injEq, eq_comm]
    rw [and_iff_right hmem, eq_comm (a := report)]
    simp only [evaluateScores, sliceMetrics_eq, bind_eq_ok, Except.ok.injEq, exists_eq_left', hkey,
      binaryMetrics_eq hne, hcandidates]
    exact Iff.of_eq (Except.ok.injEq _ _)

/-! ## The report on a model -/

/-- What `evaluate_model` makes of a case and an attack. -/
def variantOf (u : Unicode) (model : ToxicityModel) (case : EvaluationCase)
    (attack : String × (String → String)) : ScoredCase where
  caseId := case.caseId
  label := case.label
  category := case.category
  attack := attack.1
  score := model.predictScore (normalizeText u (attack.2 case.text))

def variantsOf (u : Unicode) (model : ToxicityModel) (attacks : AttackTable)
    (cases : List EvaluationCase) : List ScoredCase :=
  cases.flatMap fun case ↦ attacks.items.map (variantOf u model case)

def modelReportOf (u : Unicode) (model : EvaluatedModel) (threshold : ℚ) (attacks : AttackTable)
    (cases : List EvaluationCase) : EvaluationReport :=
  { reportOf model.version threshold defaultCandidates
      (variantsOf u model.toToxicityModel attacks cases) with
    memberVersions := model.memberVersions }

section Model

variable {u : Unicode} {attacks : AttackTable} {cases : List EvaluationCase}

theorem scoreVariant_eq_ok_iff {model : ToxicityModel} {case : EvaluationCase}
    {attack : String × (String → String)} {item : ScoredCase} :
    scoreVariant u model case attack = .ok item ↔
      (0 ≤ (variantOf u model case attack).score ∧ (variantOf u model case attack).score ≤ 1) ∧
        item = variantOf u model case attack := by
  have hbody : scoreVariant u model case attack
      = if ¬(0 ≤ (variantOf u model case attack).score ∧ (variantOf u model case attack).score ≤ 1)
        then .error (.scoreOutOfRange (variantOf u model case attack).score)
        else .ok (variantOf u model case attack) := rfl
  rw [hbody]
  by_cases hscore : 0 ≤ (variantOf u model case attack).score ∧
    (variantOf u model case attack).score ≤ 1
  · rw [if_neg (not_not.mpr hscore), and_iff_right hscore, Except.ok.injEq, eq_comm]
  · rw [if_pos hscore]
    exact iff_of_false (fun h ↦ by cases h) fun h ↦ hscore h.1

theorem mem_variantsOf {model : ToxicityModel} {item : ScoredCase} :
    item ∈ variantsOf u model attacks cases ↔
      ∃ case ∈ cases, ∃ attack ∈ attacks.items, variantOf u model case attack = item := by
  simp only [variantsOf, List.mem_flatMap, List.mem_map]

theorem mem_attacks_variantsOf {model : ToxicityModel} :
    name ∈ (variantsOf u model attacks cases).map ScoredCase.attack ↔
      cases ≠ [] ∧ name ∈ attacks.keys := by
  simp only [List.mem_map, mem_variantsOf, Dict.keys]
  constructor
  · rintro ⟨item, ⟨case, hcase, attack, hattack, rfl⟩, rfl⟩
    exact ⟨List.ne_nil_of_mem hcase, attack, hattack, rfl⟩
  · rintro ⟨hcases, attack, hattack, rfl⟩
    obtain ⟨case, hcase⟩ := List.exists_mem_of_ne_nil cases hcases
    exact ⟨_, ⟨case, hcase, attack, hattack, rfl⟩, rfl⟩

/-- **The report on a model** is returned exactly if the model stays in the unit interval, there is
a case, and one of the attacks is the clean one. -/
theorem evaluateModel_eq_ok_iff {model : EvaluatedModel} {report : EvaluationReport} :
    evaluateModel u model cases threshold attacks = .ok report ↔
      (∀ item ∈ variantsOf u model.toToxicityModel attacks cases,
        0 ≤ item.score ∧ item.score ≤ 1) ∧
      (cases ≠ [] ∧ "clean" ∈ attacks.keys) ∧
      report = modelReportOf u model threshold attacks cases := by
  have hscored : ∀ scored, cases.mapM (fun case ↦
      attacks.items.mapM (scoreVariant u model.toToxicityModel case)) = .ok scored ↔
      (∀ item ∈ variantsOf u model.toToxicityModel attacks cases,
        0 ≤ item.score ∧ item.score ≤ 1) ∧
      scored = cases.map fun case ↦
        attacks.items.map (variantOf u model.toToxicityModel case) := by
    intro scored
    rw [mapM_eq_ok_iff fun case _ items ↦ mapM_eq_ok_iff fun attack _ item ↦ scoreVariant_eq_ok_iff]
    refine and_congr_left' ⟨fun h item hitem ↦ ?_, fun h case hcase attack hattack ↦ ?_⟩
    · obtain ⟨case, hcase, attack, hattack, rfl⟩ := mem_variantsOf.mp hitem
      exact h case hcase attack hattack
    · exact h _ (mem_variantsOf.mpr ⟨case, hcase, attack, hattack, rfl⟩)
  have hflatten : (cases.map fun case ↦ attacks.items.map
      (variantOf u model.toToxicityModel case)).flatten
        = variantsOf u model.toToxicityModel attacks cases := List.flatMap_def.symm
  simp only [evaluateModel, bind_eq_ok, hscored]
  constructor
  · rintro ⟨scored, ⟨hrange, rfl⟩, scoresReport, hreport, hpure⟩
    rw [hflatten, evaluateScores_eq_ok_iff, mem_attacks_variantsOf] at hreport
    obtain ⟨hmem, rfl⟩ := hreport
    cases hpure
    exact ⟨hrange, hmem, rfl⟩
  · rintro ⟨hrange, hmem, rfl⟩
    refine ⟨_, ⟨hrange, rfl⟩, _, ?_, rfl⟩
    rw [hflatten, evaluateScores_eq_ok_iff, mem_attacks_variantsOf]
    exact ⟨hmem, rfl⟩

theorem evaluateModel_of_mem {model : EvaluatedModel} (hcases : cases ≠ [])
    (hclean : "clean" ∈ attacks.keys)
    (hscores : ∀ text, 0 ≤ model.predictScore text ∧ model.predictScore text ≤ 1) (threshold : ℚ) :
    evaluateModel u model cases threshold attacks
      = .ok (modelReportOf u model threshold attacks cases) := by
  refine evaluateModel_eq_ok_iff.mpr ⟨fun item hitem ↦ ?_, ⟨hcases, hclean⟩, rfl⟩
  obtain ⟨case, -, attack, -, rfl⟩ := mem_variantsOf.mp hitem
  exact hscores _

end Model

end Sentinel
