import Sentinel.Core.Normalization
import Sentinel.Text.Settled

/-!
# The normal form

What `normalize_text` makes of a text of ASCII and zero-width characters, and that it makes nothing
else of it a second time. The order of the passes matters. The two that delete or merge characters
around others come first, and neither brings back what an earlier one has removed; the last two deal
with blanks, which the others do not look at, except that a run of blanks is flooded like any other
and that line feeds are left to the end.
-/

namespace Sentinel

open Text

variable {u : Unicode} {text s : List Char}

/-- ASCII with the characters that are stripped from it. -/
def AsciiOrZeroWidth (c : Char) : Prop := isAscii c = true ∨ isZeroWidth c = true

/-- The keys of `_LEETSPEAK`. -/
def leetspeakKeys : List Char := ['0', '1', '3', '4', '5', '7', '@', '$']

structure NormalForm (u : Unicode) (s : List Char) : Prop where
  not_isUpper : ∀ c ∈ s, c.isUpper = false
  not_isZeroWidth : ∀ c ∈ s, isZeroWidth c = false
  not_mem_leetspeakKeys : ∀ c ∈ s, c ∉ leetspeakKeys
  eq_blank : ∀ c ∈ s, isSpace c = true → c = ' '
  not_double_blank : ¬[' ', ' '] <:+: s
  not_blank_end : s.head? ≠ some ' ' ∧ s.getLast? ≠ some ' '
  not_repeated : ∀ c, ¬[c, c, c] <:+: s
  not_interrupted : ¬Interrupted u.isLetter u.isPunctuation s

/-! ## One character at a time -/

/-- The characters that the first passes leave. -/
structure Unmasked (c : Char) : Prop where
  isAscii : isAscii c = true
  not_isUpper : c.isUpper = false
  not_mem_leetspeakKeys : c ∉ leetspeakKeys

theorem isZeroWidth_of_isAscii {c : Char} (hc : isAscii c = true) : isZeroWidth c = false := by
  refine ascii_induction (p := fun c ↦ isZeroWidth c = false) ?_ hc
  decide +kernel

theorem toLower_of_isZeroWidth {c : Char} (hc : isZeroWidth c = true) : c.toLower = c := by
  refine dif_neg fun hupper ↦ ?_
  have hle : c.toNat ≤ 90 := hupper.2
  simp only [isZeroWidth, Bool.or_eq_true, Bool.and_eq_true, decide_eq_true_eq, beq_iff_eq] at hc
  omega

theorem unmasked_leetspeakTable : ∀ n < 128, Unmasked (leetspeakTable (Char.ofNat n).toLower) := by
  intro n hn
  refine ⟨?_, ?_, ?_⟩
  all_goals
    revert n
    decide +kernel

theorem unmasked_of_mem_unmaskChar {c d : Char} (hc : AsciiOrZeroWidth c)
    (hd : d ∈ unmaskChar c) : Unmasked d := by
  rw [unmaskChar] at hd
  split_ifs at hd with hzero
  · exact absurd hd List.not_mem_nil
  · obtain rfl := List.mem_singleton.mp hd
    refine ascii_induction (p := fun c ↦ Unmasked (leetspeakTable c.toLower))
      unmasked_leetspeakTable (hc.resolve_right fun hwide ↦ hzero ?_)
    rw [toLower_of_isZeroWidth hwide]
    exact hwide

theorem Unmasked.unmaskChar_eq {c : Char} (h : Unmasked c) : unmaskChar c = [c] := by
  refine ascii_induction (p := fun c ↦ c.isUpper = false → c ∉ leetspeakKeys → unmaskChar c = [c])
    ?_ h.isAscii h.not_isUpper h.not_mem_leetspeakKeys
  decide +kernel

theorem unmasked_of_mem_unmask (hu : u.Plain AsciiOrZeroWidth)
    (htext : ∀ c ∈ text, AsciiOrZeroWidth c) {c : Char} (hc : c ∈ unmask u text) :
    Unmasked c := by
  rw [unmask_of_plain hu htext] at hc
  obtain ⟨d, hd, hc⟩ := List.mem_flatMap.mp hc
  exact unmasked_of_mem_unmaskChar (htext d hd) hc

theorem unmask_eq_self (hu : u.Plain AsciiOrZeroWidth) (hs : ∀ c ∈ s, Unmasked c) :
    unmask u s = s := by
  rw [unmask_of_plain hu fun c hc ↦ .inl (hs c hc).isAscii]
  induction s with
  | nil => rfl
  | cons c s ih =>
    obtain ⟨hc, hrest⟩ := List.forall_mem_cons.mp hs
    rw [List.flatMap_cons, hc.unmaskChar_eq, ih hrest, List.singleton_append]

/-! ## The passes that look around -/

theorem isSpace_of_isPunctuation {c : Char} (hc : u.isPunctuation c = true) :
    isSpace c = false := by
  rw [← Bool.not_eq_true]
  intro hspace
  rw [Unicode.isPunctuation_of_isSpace hspace] at hc
  cases hc

theorem of_mem_squeeze {c : Char} (h : c ∈ squeeze u s) : c = ' ' ∨ c ∈ s ∧ isSpace c = false :=
  (of_mem_collapse h).imp_right (And.imp_left fun hmem ↦ mem_unpunctuate (of_mem_unflood hmem))

theorem not_double_blank_squeeze (s : List Char) : ¬[' ', ' '] <:+: squeeze u s :=
  not_infix_collapse (by decide) false _

theorem not_repeated_squeeze (s : List Char) (c : Char) : ¬[c, c, c] <:+: squeeze u s := by
  refine not_infix_three_collapse (by decide) (fun d hd ↦ not_infix_unflood ?_ none _) c
  rw [bne_iff_ne]
  rintro rfl
  cases hd

theorem not_interrupted_squeeze (s : List Char) :
    ¬Interrupted u.isLetter u.isPunctuation (squeeze u s) :=
  not_interrupted_collapse (by decide) (fun _ ↦ Unicode.isSpace_of_isLetter)
    (fun _ ↦ isSpace_of_isPunctuation)
    (not_interrupted_unflood Unicode.isPunctuation_of_isLetter
      (not_interrupted_unpunctuate Unicode.isPunctuation_of_isLetter false s))

theorem NormalForm.squeeze_eq_self (h : NormalForm u s) : squeeze u s = s := by
  rw [squeeze, unpunctuate_eq_self (fun hfalse ↦ absurd hfalse Bool.false_ne_true)
    h.not_interrupted, unflood_eq_self h.not_repeated,
    collapse_eq_self h.eq_blank h.not_double_blank]

/-! ## The whole -/

theorem unmasked_of_mem_normalizeChars (hu : u.Plain AsciiOrZeroWidth)
    (htext : ∀ c ∈ text, AsciiOrZeroWidth c) {c : Char} (hc : c ∈ normalizeChars u text) :
    Unmasked c := by
  rw [normalizeChars_eq] at hc
  rcases of_mem_squeeze ((strip_isInfix _).subset hc) with rfl | ⟨hmem, -⟩
  · exact ⟨by decide, by decide, by decide⟩
  · exact unmasked_of_mem_unmask hu htext hmem

theorem normalForm_normalizeChars (hu : u.Plain AsciiOrZeroWidth)
    (htext : ∀ c ∈ text, AsciiOrZeroWidth c) : NormalForm u (normalizeChars u text) := by
  have hunmasked := fun c hc ↦ unmasked_of_mem_normalizeChars hu htext (c := c) hc
  have hin : normalizeChars u text <:+: squeeze u (unmask u text) := by
    rw [normalizeChars_eq]
    exact strip_isInfix _
  refine ⟨fun c hc ↦ (hunmasked c hc).not_isUpper,
    fun c hc ↦ isZeroWidth_of_isAscii (hunmasked c hc).isAscii,
    fun c hc ↦ (hunmasked c hc).not_mem_leetspeakKeys, fun c hc hspace ↦ ?_,
    fun h ↦ not_double_blank_squeeze _ (h.trans hin), ?_,
    fun c h ↦ not_repeated_squeeze _ c (h.trans hin),
    fun h ↦ not_interrupted_squeeze _ (Interrupted.mono h hin)⟩
  · refine (of_mem_squeeze (hin.subset hc)).resolve_right fun hmem ↦ ?_
    rw [hmem.2] at hspace
    cases hspace
  · rw [normalizeChars_eq]
    constructor
    · exact fun hhead ↦ absurd (strip_ends (.inl hhead)) (by decide)
    · exact fun hlast ↦ absurd (strip_ends (.inr hlast)) (by decide)

theorem NormalForm.normalizeChars_eq_self (hu : u.Plain AsciiOrZeroWidth)
    (htext : ∀ c ∈ text, AsciiOrZeroWidth c) (h : NormalForm u text) :
    normalizeChars u text = text := by
  have hunmask : unmask u text = text := unmask_eq_self hu fun c hc ↦
    ⟨(htext c hc).resolve_right (Bool.eq_false_iff.mp (h.not_isZeroWidth c hc)),
      h.not_isUpper c hc, h.not_mem_leetspeakKeys c hc⟩
  rw [normalizeChars_eq, hunmask, h.squeeze_eq_self]
  refine strip_eq_self fun c hend ↦ ?_
  rw [← Bool.not_eq_true]
  intro hspace
  rcases hend with hhead | hlast
  · rw [h.eq_blank c (List.mem_of_head? hhead) hspace] at hhead
    exact h.not_blank_end.1 hhead
  · rw [h.eq_blank c (List.mem_of_getLast? hlast) hspace] at hlast
    exact h.not_blank_end.2 hlast

/-- **`normalize_text` produces a normal form and is idempotent.** On texts of ASCII and zero-width
characters, every output is in normal form, and every text in normal form is its own output. -/
theorem normalizeText_normalForm (u : Unicode) (hu : u.Plain AsciiOrZeroWidth) :
    (∀ text : String, (∀ c ∈ text.toList, AsciiOrZeroWidth c) →
      NormalForm u (normalizeText u text).toList ∧
      normalizeText u (normalizeText u text) = normalizeText u text) ∧
    ∀ text : String, (∀ c ∈ text.toList, AsciiOrZeroWidth c) → NormalForm u text.toList →
      normalizeText u text = text := by
  have hfixed : ∀ text : String, (∀ c ∈ text.toList, AsciiOrZeroWidth c) →
      NormalForm u text.toList → normalizeText u text = text := by
    intro text htext h
    rw [normalizeText, h.normalizeChars_eq_self hu htext, String.ofList_toList]
  refine ⟨fun text htext ↦ ?_, hfixed⟩
  have hform : NormalForm u (normalizeText u text).toList := by
    rw [normalizeText, String.toList_ofList]
    exact normalForm_normalizeChars hu htext
  refine ⟨hform, hfixed _ (fun c hc ↦ ?_) hform⟩
  rw [normalizeText, String.toList_ofList] at hc
  exact .inl (unmasked_of_mem_normalizeChars hu htext hc).isAscii

theorem normalizeText_normalForm_sample :
    normalizeText Unicode.sample "  K1LL\u200b   Y0U  " = "kill you" ∧
      NormalForm Unicode.sample "kill you".toList ∧
      normalizeText Unicode.sample "kill you" = "kill you" := by
  have hall : ∀ text : String,
      (text.toList.all fun c ↦ isAscii c || isZeroWidth c) = true →
        ∀ c ∈ text.toList, AsciiOrZeroWidth c := fun text h c hc ↦
    (Bool.or_eq_true _ _).mp (List.all_eq_true.mp h c hc)
  have hkill : normalizeText Unicode.sample "  K1LL\u200b   Y0U  " = "kill you" := by
    decide +kernel
  obtain ⟨hforms, hfixed⟩ := normalizeText_normalForm Unicode.sample (Unicode.sample_plain _)
  have hform := (hforms "  K1LL\u200b   Y0U  " (hall _ (by decide +kernel))).1
  rw [hkill] at hform
  exact ⟨hkill, hform, hfixed "kill you" (hall _ (by decide +kernel)) hform⟩

end Sentinel
