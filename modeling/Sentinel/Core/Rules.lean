import Mathlib.Data.Finset.Sort
import Mathlib.Data.List.Induction
import Mathlib.Data.List.Sort
import Mathlib.Tactic.NormNum
import Sentinel.Core.Trie
import Sentinel.Schemas.Moderation

/-!
# The rule layer

`RuleEngine`: a dictionary of rules by phrase and the trie over its keys. Of two rules with one
phrase the later one counts. The severity of a rule is not checked here; a signal checks it when
the engine builds one from the rule.
-/

namespace Sentinel

open Collections

/-- `SafetyRule`. -/
structure SafetyRule where
  phrase : String
  category : SafetyCategory
  severity : ℚ
  reasonCode : String
deriving DecidableEq

/-- `DEFAULT_RULES`. -/
def defaultRules : List SafetyRule :=
  [⟨"kill you", .threat, 19 / 20, "explicit_threat"⟩,
    ⟨"attack them", .threat, 9 / 10, "violent_intent"⟩,
    ⟨"you are worthless", .harassment, 13 / 20, "targeted_abuse"⟩,
    ⟨"people like you do not belong", .identityAttack, 17 / 20, "exclusionary_attack"⟩]

theorem severity_mem_of_defaultRules {rule : SafetyRule} (h : rule ∈ defaultRules) :
    0 ≤ rule.severity ∧ rule.severity ≤ 1 := by
  simp only [defaultRules, List.mem_cons, List.not_mem_nil, or_false] at h
  rcases h with rfl | rfl | rfl | rfl <;> norm_num

theorem nodup_defaultRules : (defaultRules.map (·.phrase)).Nodup := by decide

/-- `RuleEngine`. -/
structure RuleEngine where
  rules : Dict String SafetyRule
  matcher : PhraseTrie

namespace RuleEngine

/-- `{rule.phrase: rule for rule in rules}`. -/
def ruleDict (rules : List SafetyRule) : Dict String SafetyRule :=
  rules.foldl (fun dict rule ↦ dict.set rule.phrase rule) Dict.empty

/-- `RuleEngine(rules)`. -/
def ofRules (rules : List SafetyRule) : RuleEngine where
  rules := ruleDict rules
  matcher := PhraseTrie.ofPhrases ((ruleDict rules).items.map Prod.fst)

/-- `evaluate`. The phrases that are found are keys, so no lookup fails. -/
def evaluate (engine : RuleEngine) (normalizedText : String) : List SafetyRule :=
  (engine.matcher.find normalizedText).sort.filterMap engine.rules.get

theorem get_ruleDict_append (rules : List SafetyRule) (rule : SafetyRule) (phrase : String) :
    (ruleDict (rules ++ [rule])).get phrase
      = if phrase = rule.phrase then some rule else (ruleDict rules).get phrase := by
  rw [ruleDict, List.foldl_append, List.foldl_cons, List.foldl_nil, Dict.get_set, ← ruleDict]

theorem of_get_ruleDict {rules : List SafetyRule} {phrase : String} {rule : SafetyRule}
    (h : (ruleDict rules).get phrase = some rule) : rule ∈ rules ∧ rule.phrase = phrase := by
  induction rules using List.reverseRecOn with
  | nil => cases h
  | append_singleton rules last ih =>
    rw [get_ruleDict_append] at h
    split_ifs at h with hphrase
    · obtain rfl := Option.some_inj.mp h
      exact ⟨List.mem_append_right rules List.mem_cons_self, hphrase.symm⟩
    · obtain ⟨hmem, heq⟩ := ih h
      exact ⟨List.mem_append_left [last] hmem, heq⟩

theorem get_ruleDict_of_nodup {rules : List SafetyRule} (h : (rules.map (·.phrase)).Nodup)
    {rule : SafetyRule} (hrule : rule ∈ rules) :
    (ruleDict rules).get rule.phrase = some rule := by
  induction rules using List.reverseRecOn with
  | nil => exact absurd hrule List.not_mem_nil
  | append_singleton rules last ih =>
    rw [List.map_append, List.nodup_append] at h
    obtain ⟨hrules, -, hdisjoint⟩ := h
    rw [get_ruleDict_append]
    rcases List.mem_append.mp hrule with hmem | hmem
    · have hne : rule.phrase ≠ last.phrase := hdisjoint _ (List.mem_map.mpr ⟨rule, hmem, rfl⟩) _
        List.mem_cons_self
      rw [if_neg hne, ih hrules hmem]
    · rw [List.mem_singleton.mp hmem, if_pos rfl]

/-- **The rule layer finds the rules whose phrase occurs**, each under its phrase. -/
theorem mem_evaluate {rules : List SafetyRule} {text : String} {rule : SafetyRule} :
    rule ∈ (ofRules rules).evaluate text
      ↔ (ruleDict rules).get rule.phrase = some rule ∧ rule.phrase.toList ≠ [] ∧
        rule.phrase.toList <:+: text.toList := by
  simp only [evaluate, ofRules, List.mem_filterMap, Finset.mem_sort, PhraseTrie.mem_find]
  constructor
  · rintro ⟨phrase, ⟨-, hne, hinfix⟩, hget⟩
    obtain ⟨-, rfl⟩ := of_get_ruleDict hget
    exact ⟨hget, hne, hinfix⟩
  · rintro ⟨hget, hne, hinfix⟩
    exact ⟨rule.phrase,
      ⟨List.mem_map.mpr ⟨_, Dict.get_eq_some.mp hget, rfl⟩, hne, hinfix⟩, hget⟩

theorem mem_of_evaluate {rules : List SafetyRule} {text : String} {rule : SafetyRule}
    (h : rule ∈ (ofRules rules).evaluate text) : rule ∈ rules :=
  (of_get_ruleDict (mem_evaluate.mp h).1).1

/-! ## Naive search -/

/-- The phrase is compared with the text at every position. -/
def occursIn (phrase text : String) : Bool :=
  text.toList.tails.any fun rest ↦ phrase.toList.isPrefixOf rest

/-- All rules, one after the other, sorted by their phrases. -/
def naiveEvaluate (rules : List SafetyRule) (text : String) : List SafetyRule :=
  (rules.filter fun rule ↦ rule.phrase ≠ "" && occursIn rule.phrase text).insertionSort
    fun rule later ↦ rule.phrase ≤ later.phrase

theorem occursIn_iff {phrase text : String} :
    occursIn phrase text = true ↔ phrase.toList <:+: text.toList := by
  simp only [occursIn, List.any_eq_true, List.mem_tails, List.isPrefixOf_iff_prefix]
  constructor
  · rintro ⟨rest, hsuffix, hprefix⟩
    exact hprefix.isInfix.trans hsuffix.isInfix
  · intro h
    exact (List.infix_iff_prefix_suffix.mp h).imp fun rest hrest ↦ ⟨hrest.2, hrest.1⟩

variable {rules : List SafetyRule} {text : String} {rule : SafetyRule}

theorem mem_naiveEvaluate : rule ∈ naiveEvaluate rules text ↔
    rule ∈ rules ∧ rule.phrase ≠ "" ∧ rule.phrase.toList <:+: text.toList := by
  rw [naiveEvaluate, List.mem_insertionSort, List.mem_filter, Bool.and_eq_true, occursIn_iff,
    decide_eq_true_eq]

/-- The engine over a trie whose phrases were inserted in any order. -/
def withPhrases (rules : List SafetyRule) (phrases : List String) : RuleEngine where
  rules := ruleDict rules
  matcher := PhraseTrie.ofPhrases phrases

theorem pairwise_evaluate (rules : List SafetyRule) (phrases : List String) (text : String) :
    ((withPhrases rules phrases).evaluate text).Pairwise fun rule later ↦
      rule.phrase < later.phrase := by
  have hsorted : ((withPhrases rules phrases).matcher.find text).sort.Pairwise (· < ·) := by
    have hle := Finset.pairwise_sort ((withPhrases rules phrases).matcher.find text) (· ≤ ·)
    have hne := Finset.sort_nodup ((withPhrases rules phrases).matcher.find text) (· ≤ ·)
    exact (hle.and hne).imp fun h ↦ lt_of_le_of_ne h.1 h.2
  refine hsorted.filterMap _ fun phrase phrase' hlt rule hrule rule' hrule' ↦ ?_
  rw [(of_get_ruleDict hrule).2, (of_get_ruleDict hrule').2]
  exact hlt

theorem mem_evaluate_withPhrases (hnodup : (rules.map (·.phrase)).Nodup) {phrases : List String}
    (hphrases : phrases.Perm (rules.map (·.phrase))) :
    rule ∈ (withPhrases rules phrases).evaluate text ↔
      rule ∈ rules ∧ rule.phrase ≠ "" ∧ rule.phrase.toList <:+: text.toList := by
  have hne : ∀ phrase : String, phrase.toList ≠ [] ↔ phrase ≠ "" := fun phrase ↦
    not_congr String.toList_eq_nil_iff
  simp only [evaluate, withPhrases, List.mem_filterMap, Finset.mem_sort, PhraseTrie.mem_find, hne]
  constructor
  · rintro ⟨phrase, ⟨-, hphrase, hinfix⟩, hget⟩
    obtain ⟨hmem, rfl⟩ := of_get_ruleDict hget
    exact ⟨hmem, hphrase, hinfix⟩
  · rintro ⟨hmem, hphrase, hinfix⟩
    exact ⟨rule.phrase, ⟨hphrases.mem_iff.mpr (List.mem_map.mpr ⟨rule, hmem, rfl⟩), hphrase,
      hinfix⟩, get_ruleDict_of_nodup hnodup hmem⟩

theorem eq_of_pairwise {found found' : List SafetyRule}
    (h : found.Pairwise fun rule later ↦ rule.phrase < later.phrase)
    (h' : found'.Pairwise fun rule later ↦ rule.phrase < later.phrase)
    (hmem : ∀ rule, rule ∈ found ↔ rule ∈ found') : found = found' := by
  have hnodup : ∀ {found : List SafetyRule},
      found.Pairwise (fun rule later ↦ rule.phrase < later.phrase) → found.Nodup := fun h ↦
    h.imp fun hlt heq ↦ absurd (heq ▸ hlt) (lt_irrefl _)
  refine ((List.perm_ext_iff_of_nodup (hnodup h) (hnodup h')).mpr hmem).eq_of_pairwise ?_ h h'
  exact fun rule rule' _ _ hlt hlt' ↦ absurd hlt' (lt_asymm hlt)

theorem pairwise_naiveEvaluate (hnodup : (rules.map (·.phrase)).Nodup) :
    (naiveEvaluate rules text).Pairwise fun rule later ↦ rule.phrase < later.phrase := by
  have hle := List.pairwise_insertionSort (fun rule later : SafetyRule ↦ rule.phrase ≤ later.phrase)
    (rules.filter fun rule ↦ rule.phrase ≠ "" && occursIn rule.phrase text)
  have hne : (naiveEvaluate rules text).Pairwise fun rule later ↦ rule.phrase ≠ later.phrase := by
    rw [← List.pairwise_map (f := SafetyRule.phrase) (R := (· ≠ ·))]
    refine ((List.perm_insertionSort _ _).map _).nodup_iff.mpr ?_
    exact hnodup.sublist (List.filter_sublist.map _)
  exact (List.Pairwise.and hle hne).imp fun h ↦ lt_of_le_of_ne h.1 h.2

theorem perm_keys (hnodup : (rules.map (·.phrase)).Nodup) :
    ((ruleDict rules).items.map Prod.fst).Perm (rules.map (·.phrase)) := by
  refine (List.perm_ext_iff_of_nodup (ruleDict rules).nodup hnodup).mpr fun phrase ↦ ?_
  rw [List.mem_map, List.mem_map]
  constructor
  · rintro ⟨⟨phrase, rule⟩, hitem, rfl⟩
    exact ⟨rule, of_get_ruleDict (Dict.get_eq_some.mpr hitem)⟩
  · rintro ⟨rule, hmem, rfl⟩
    exact ⟨_, Dict.get_eq_some.mp (get_ruleDict_of_nodup hnodup hmem), rfl⟩

theorem mem_evaluate_of_nodup (hnodup : (rules.map (·.phrase)).Nodup) :
    rule ∈ (ofRules rules).evaluate text ↔
      rule ∈ rules ∧ rule.phrase ≠ "" ∧ rule.phrase.toList <:+: text.toList :=
  mem_evaluate_withPhrases hnodup (perm_keys hnodup)

/-- **The rule matcher finds exactly the phrases that occur.** For a catalogue with different
phrases it returns what naive search does, in strict order of the phrases, and neither the order of
the rules nor that of the insertions into the trie matters. -/
theorem evaluate_eq_naive (rules : List SafetyRule) (hnodup : (rules.map (·.phrase)).Nodup)
    (text : String) :
    ((ofRules rules).evaluate text).Pairwise (fun rule later ↦ rule.phrase < later.phrase) ∧
      (∀ rule, rule ∈ (ofRules rules).evaluate text ↔
        rule ∈ rules ∧ rule.phrase ≠ "" ∧ rule.phrase.toList <:+: text.toList) ∧
      (ofRules rules).evaluate text = naiveEvaluate rules text ∧
      (∀ phrases : List String, phrases.Perm (rules.map (·.phrase)) →
        (withPhrases rules phrases).evaluate text = (ofRules rules).evaluate text) ∧
      ∀ rules' : List SafetyRule, rules'.Perm rules →
        (ofRules rules').evaluate text = (ofRules rules).evaluate text := by
  have hordered : ((ofRules rules).evaluate text).Pairwise _ := pairwise_evaluate rules _ text
  refine ⟨hordered, fun rule ↦ mem_evaluate_of_nodup hnodup, ?_, fun phrases hphrases ↦ ?_,
    fun rules' hrules' ↦ ?_⟩
  · refine eq_of_pairwise hordered (pairwise_naiveEvaluate hnodup) fun rule ↦ ?_
    rw [mem_evaluate_of_nodup hnodup, mem_naiveEvaluate]
  · refine eq_of_pairwise (pairwise_evaluate rules phrases text) hordered fun rule ↦ ?_
    rw [mem_evaluate_of_nodup hnodup, mem_evaluate_withPhrases hnodup hphrases]
  · have hnodup' : (rules'.map (·.phrase)).Nodup := (hrules'.map _).nodup_iff.mpr hnodup
    refine eq_of_pairwise (pairwise_evaluate rules' _ text) hordered fun rule ↦ ?_
    rw [mem_evaluate_of_nodup hnodup, mem_evaluate_of_nodup hnodup', hrules'.mem_iff]

/-- Phrases inside one another, inserted in one order and in the other. -/
theorem evaluate_eq_naive_sample :
    (ofRules [⟨"harmful", .threat, 1, "b"⟩, ⟨"harm", .threat, 1, "a"⟩]).evaluate "harmful but safe"
      = (ofRules [⟨"harm", .threat, 1, "a"⟩, ⟨"harmful", .threat, 1, "b"⟩]).evaluate
        "harmful but safe" :=
  (evaluate_eq_naive [⟨"harm", .threat, 1, "a"⟩, ⟨"harmful", .threat, 1, "b"⟩] (by decide)
    "harmful but safe").2.2.2.2 _ (List.Perm.swap ..)

end RuleEngine

end Sentinel
