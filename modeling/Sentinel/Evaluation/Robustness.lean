import Sentinel.Evaluation.Cases
import Sentinel.Evaluation.Gates

/-!
# What the robustness figures measure

On texts of ASCII characters the canonical text undoes four of the five attacks. A model sees the
canonical text only, so on a corpus of such texts the slices of these attacks are that of the clean
texts, whatever the model. The worst recall and the greatest drop of a report then compare the clean
slice with character flooding, and so does the gate.

The chain starts at the file: a corpus that `load_cases` accepts is never one on which the report
raises, because it is not empty and its clean slice exists.
-/

namespace Sentinel

open Collections Statistics Text

theorem metricsOf_congr {items items' : List ScoredCase} (hne : items ≠ [])
    (hlabels : items.map ScoredCase.label = items'.map ScoredCase.label)
    (hscores : items.map ScoredCase.score = items'.map ScoredCase.score) (threshold : ℚ) :
    metricsOf threshold items = metricsOf threshold items' := by
  have hne' : items' ≠ [] := by
    rintro rfl
    exact hne (List.map_eq_nil_iff.mp hlabels)
  have hmetrics := binaryMetrics_eq hne threshold
  rw [hlabels, hscores, binaryMetrics_eq hne'] at hmetrics
  exact (Except.ok.inj hmetrics).symm

def undoneNames : List String := ["uppercase", "zero_width", "leetspeak", "punctuation"]

section Slices

variable {u : Unicode} {model : ToxicityModel} {cases : List EvaluationCase} {threshold : ℚ}

theorem exists_undoneAttack {name : String} (hname : name ∈ undoneNames) :
    ∃ attack ∈ undoneAttacks u, (attackTable u).get name = some attack := by
  simp only [undoneNames, List.mem_cons, List.not_mem_nil, or_false] at hname
  rcases hname with rfl | rfl | rfl | rfl
  · exact ⟨Attack.uppercase u, by simp [undoneAttacks], rfl⟩
  · exact ⟨Attack.zeroWidth, by simp [undoneAttacks], rfl⟩
  · exact ⟨Attack.leetspeak, by simp [undoneAttacks], rfl⟩
  · exact ⟨Attack.punctuationInjection, by simp [undoneAttacks], rfl⟩

def attackMetrics (u : Unicode) (model : ToxicityModel) (threshold : ℚ)
    (cases : List EvaluationCase) (name : String) : BinaryMetrics :=
  metricsOf threshold
    (slice ScoredCase.attack name (variantsOf u model (attackTable u) cases))

/-- **The slice of an attack that is undone is the clean one.** -/
theorem attackMetrics_undone (hu : u.Plain isPlain)
    (hupper : ∀ c, isPlain c → u.upper c = [c.toUpper]) (hcases : cases ≠ [])
    (hascii : ∀ case ∈ cases, ∀ c ∈ case.text.toList, isAscii c = true) {name : String}
    (hname : name ∈ undoneNames) : attackMetrics u model threshold cases name
      = attackMetrics u model threshold cases "clean" := by
  obtain ⟨attack, hattack, hget⟩ := exists_undoneAttack (u := u) hname
  have hclean : (attackTable u).get "clean" = some Attack.clean := rfl
  rw [attackMetrics, attackMetrics, slice_variantsOf u cases hget,
    slice_variantsOf u cases hclean]
  refine metricsOf_congr (mt List.map_eq_nil_iff.mp hcases) ?_ ?_ threshold
  · simp only [List.map_map, Function.comp_def, variantOf]
  · rw [List.map_map, List.map_map]
    refine List.map_congr_left fun case hcase ↦ congrArg model.predictScore ?_
    exact normalizeText_attack hu hupper hattack fun c hc ↦ .inl (hascii case hcase c hc)

theorem get_byAttack {name : String} {attack : String → String} (hcases : cases ≠ [])
    (hget : (attackTable u).get name = some attack) :
    (slicesOf ScoredCase.attack threshold (variantsOf u model (attackTable u) cases)).get name
      = some (attackMetrics u model threshold cases name) :=
  get_slicesOf_eq_some.mpr
    ⟨mem_attacks_variantsOf.mpr ⟨hcases, Dict.mem_keys.mpr ⟨attack, hget⟩⟩, rfl⟩

/-- **Two recalls are left**: the clean one, and the one under character flooding. -/
theorem mem_attackedRecalls_iff (hu : u.Plain isPlain)
    (hupper : ∀ c, isPlain c → u.upper c = [c.toUpper]) (hcases : cases ≠ [])
    (hascii : ∀ case ∈ cases, ∀ c ∈ case.text.toList, isAscii c = true) {value : ℚ} :
    value ∈ attackedRecalls threshold (variantsOf u model (attackTable u) cases) ↔
      value = (attackMetrics u model threshold cases "clean").recall ∨
      value = (attackMetrics u model threshold cases "character_flooding").recall := by
  have hundone : ∀ {name}, name ∈ undoneNames →
      (attackMetrics u model threshold cases name).recall
        = (attackMetrics u model threshold cases "clean").recall := fun hname ↦
    congrArg BinaryMetrics.recall (attackMetrics_undone hu hupper hcases hascii hname)
  rw [mem_attackedRecalls]
  constructor
  · rintro ⟨name, hname, hne, rfl⟩
    have hkey := (mem_attacks_variantsOf.mp hname).2
    simp only [attackTable, attacks, Dict.keys, List.map_cons, List.map_nil, List.mem_cons,
      List.not_mem_nil, or_false] at hkey
    rcases hkey with rfl | rfl | rfl | rfl | rfl | rfl
    · exact absurd rfl hne
    · exact .inl (hundone (by decide))
    · exact .inl (hundone (by decide))
    · exact .inl (hundone (by decide))
    · exact .inl (hundone (by decide))
    · exact .inr rfl
  · have hmem : ∀ name attack, (attackTable u).get name = some attack →
        name ∈ (variantsOf u model (attackTable u) cases).map ScoredCase.attack :=
      fun name attack hget ↦ mem_attacks_variantsOf.mpr ⟨hcases, Dict.mem_keys.mpr ⟨attack, hget⟩⟩
    rintro (rfl | rfl)
    · exact ⟨"uppercase", hmem _ (Attack.uppercase u) rfl, by decide, (hundone (by decide)).symm⟩
    · exact ⟨"character_flooding", hmem _ Attack.characterFlooding rfl, by decide, rfl⟩

end Slices

/-! ## From the file to the gate -/

/-- What a report measures on a corpus of ASCII texts: the metrics under character flooding are the
only ones that can differ from the clean ones. -/
structure EvaluationReport.MeasuresFlooding (report : EvaluationReport)
    (flooding : BinaryMetrics) : Prop where
  undone : ∀ name ∈ undoneNames, report.byAttack.get name = report.byAttack.get "clean"
  get_flooding : report.byAttack.get "character_flooding" = some flooding
  worst : report.robustness.worstAttackRecall
    = min report.robustness.cleanRecall flooding.recall
  drop : report.robustness.maximumRecallDropFromClean
    = max 0 (report.robustness.cleanRecall - flooding.recall)

/-- **What the robustness figures measure.** Whatever corpus of ASCII texts `load_cases` accepts and
whatever the model, as long as its scores are in the unit interval: there is a report, the slices of
uppercase, zero-width, leetspeak and punctuation equal the clean slice, and the worst recall and the
greatest drop are those under character flooding. -/
theorem robustness_measures_flooding (u : Unicode) (hu : u.Plain isPlain)
    (hupper : ∀ c, isPlain c → u.upper c = [c.toUpper]) (reader : PyReader) {text : List Char}
    {cases : List EvaluationCase} (hload : loadCases reader text = .ok cases)
    (hascii : ∀ case ∈ cases, ∀ c ∈ case.text.toList, isAscii c = true) (model : EvaluatedModel)
    (hscores : ∀ text, 0 ≤ model.predictScore text ∧ model.predictScore text ≤ 1) (threshold : ℚ) :
    ∃ report flooding, evaluateModel u model cases threshold = .ok report ∧
      report.MeasuresFlooding flooding := by
  obtain ⟨-, ⟨case, hcase, -⟩, -⟩ := loadCases_eq_ok_iff.mp hload
  have hcases : cases ≠ [] := List.ne_nil_of_mem hcase
  have hrecalls : ∀ {value}, value ∈ attackedRecalls threshold
      (variantsOf u model.toToxicityModel (attackTable u) cases) ↔ _ :=
    mem_attackedRecalls_iff hu hupper hcases hascii
  have hne : attackedRecalls threshold
      (variantsOf u model.toToxicityModel (attackTable u) cases) ≠ [] :=
    List.ne_nil_of_mem (hrecalls.mpr (.inl rfl))
  have hget : ∀ name attack, (attackTable u).get name = some attack →
      (slicesOf ScoredCase.attack threshold (variantsOf u model.toToxicityModel (attackTable u)
        cases)).get name = some (attackMetrics u model.toToxicityModel threshold cases name) :=
    fun name attack ↦ get_byAttack hcases
  refine ⟨modelReportOf u model threshold (attackTable u) cases,
    attackMetrics u model.toToxicityModel threshold cases "character_flooding",
    evaluateModel_of_mem hcases (Dict.mem_keys.mpr ⟨Attack.clean, rfl⟩) hscores threshold, ?_⟩
  constructor
  · intro name hname
    obtain ⟨attack, -, hattack⟩ := exists_undoneAttack (u := u) hname
    refine (hget _ _ hattack).trans ((congrArg some ?_).trans (hget _ Attack.clean rfl).symm)
    exact attackMetrics_undone hu hupper hcases hascii hname
  · exact hget _ Attack.characterFlooding rfl
  · -- two numbers with the same lower bounds
    refine eq_of_forall_le_iff fun bound ↦ le_min?_getD_iff.trans ?_
    rw [and_iff_left fun hnil ↦ absurd hnil hne, le_min_iff]
    constructor
    · exact fun h ↦ ⟨h _ (hrecalls.mpr (.inl rfl)), h _ (hrecalls.mpr (.inr rfl))⟩
    · rintro ⟨hclean, hflooding⟩ value hvalue
      rcases hrecalls.mp hvalue with rfl | rfl
      · exact hclean
      · exact hflooding
  · refine eq_of_forall_ge_iff fun bound ↦ max?_getD_le_iff.trans ?_
    rw [and_iff_left fun hnil ↦ absurd (List.map_eq_nil_iff.mp hnil) hne, max_le_iff,
      List.forall_mem_map]
    constructor
    · intro h
      have hclean := h _ (hrecalls.mpr (.inl rfl))
      refine ⟨?_, h _ (hrecalls.mpr (.inr rfl))⟩
      exact (sub_self _).symm.trans_le hclean
    · rintro ⟨hzero, hflooding⟩ value hvalue
      rcases hrecalls.mp hvalue with rfl | rfl
      · exact (sub_self _).trans_le hzero
      · exact hflooding

/-- A sample: a model that knows one word, on the corpus of `loadCases_writeCases`. -/
theorem robustness_measures_flooding_sample : ∃ report flooding,
    evaluateModel Unicode.sample sampleModel sampleLoaded = .ok report ∧
      report.MeasuresFlooding flooding := by
  refine robustness_measures_flooding Unicode.sample (Unicode.sample_plain isPlain)
    (fun _ _ ↦ rfl) PyReader.sample loadCases_sample ?_ sampleModel sampleModel_predictScore_mem
    defaultThreshold
  intro case hcase
  simp only [sampleLoaded, List.mem_cons, List.not_mem_nil, or_false] at hcase
  rcases hcase with rfl | rfl <;> exact List.all_eq_true.mp (by decide)

end Sentinel
