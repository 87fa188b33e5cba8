import Sentinel.Text.Scanner

/-!
# What the deleting scanners leave behind

Each of the three deleting scanners has a pattern that its outputs do not contain and without which
it changes nothing: two characters of a run, three equal characters, punctuation between two
letters. The scanners that run later do not bring an earlier pattern back. `collapse` writes only
characters of its own class, so what is free of them in its output stood in the text as it is;
`unflood` shortens a run to a character of it, so the neighbours of a run stay its neighbours.
-/

namespace Text

variable {α : Type*}

/-! ## Merging a run -/

section Collapse

variable {p : α → Bool} {b : α}

theorem of_mem_collapse {inRun : Bool} {s : List α} {c : α} (h : c ∈ collapse p b inRun s) :
    c = b ∨ c ∈ s ∧ p c = false := by
  induction s generalizing inRun with
  | nil => exact absurd h List.not_mem_nil
  | cons d s ih =>
    cases hd : p d with
    | true =>
      rw [collapse_cons_of hd] at h
      have hrest : c = b ∨ c ∈ collapse p b true s := by
        cases inRun with
        | true => exact .inr h
        | false => exact List.mem_cons.mp h
      exact hrest.elim .inl fun hmem ↦ (ih hmem).imp_right
        (And.imp_left (List.mem_cons_of_mem d))
    | false =>
      rw [collapse_cons_of_not hd] at h
      rcases List.mem_cons.mp h with rfl | hmem
      · exact .inr ⟨List.mem_cons_self, hd⟩
      · exact (ih hmem).imp_right (And.imp_left (List.mem_cons_of_mem d))

theorem not_prefix_collapse_true (hb : p b = true) (s : List α) : ¬[b] <+: collapse p b true s := by
  intro h
  induction s with
  | nil => exact absurd (List.prefix_nil.mp h) (List.cons_ne_nil b [])
  | cons c s ih =>
    cases hc : p c with
    | true =>
      rw [collapse_cons_of hc, if_pos rfl, List.nil_append] at h
      exact ih h
    | false =>
      rw [collapse_cons_of_not hc, List.cons_prefix_cons] at h
      rw [h.1, hc] at hb
      cases hb

theorem not_infix_collapse (hb : p b = true) (inRun : Bool) (s : List α) :
    ¬[b, b] <:+: collapse p b inRun s := by
  intro h
  induction s generalizing inRun with
  | nil => exact absurd (List.infix_nil.mp h) (List.cons_ne_nil b [b])
  | cons c s ih =>
    cases hc : p c with
    | true =>
      rw [collapse_cons_of hc] at h
      cases inRun with
      | true => exact ih true h
      | false =>
        rcases List.infix_cons_iff.mp h with hpre | hin
        · exact not_prefix_collapse_true hb s (List.cons_prefix_cons.mp hpre).2
        · exact ih true hin
    | false =>
      rw [collapse_cons_of_not hc] at h
      rcases List.infix_cons_iff.mp h with hpre | hin
      · rw [(List.cons_prefix_cons.mp hpre).1, hc] at hb
        cases hb
      · exact ih false hin

theorem collapse_eq_self {s : List α} (hs : ∀ c ∈ s, p c = true → c = b) (h : ¬[b, b] <:+: s) :
    collapse p b false s = s := by
  induction s with
  | nil => rfl
  | cons c s ih =>
    have hrest : collapse p b false s = s := ih (fun d hd ↦ hs d (List.mem_cons_of_mem c hd))
      fun hin ↦ h (List.infix_cons hin)
    cases hc : p c with
    | false => rw [collapse_cons_of_not hc, hrest]
    | true =>
      obtain rfl := hs c List.mem_cons_self hc
      rw [collapse_cons_of hc, if_neg Bool.false_ne_true, List.singleton_append]
      congr 1
      -- the next character begins no run, so it does not matter that one is going on
      cases s with
      | nil => rfl
      | cons d s =>
        have hd : p d = false := by
          rw [← Bool.not_eq_true]
          intro hd
          rw [hs d (List.mem_cons_of_mem c List.mem_cons_self) hd] at h
          exact h (List.prefix_append [c, c] s).isInfix
        rw [collapse_cons_of_not hd] at hrest ⊢
        exact hrest

theorem prefix_of_collapse (hb : p b = true) {s w : List α} (hw : ∀ c ∈ w, p c = false)
    (h : w <+: collapse p b false s) : w <+: s := by
  induction w generalizing s with
  | nil => exact List.nil_prefix
  | cons c w ih =>
    obtain ⟨hc, hrest⟩ := List.forall_mem_cons.mp hw
    obtain ⟨Z, hZ⟩ := h
    obtain ⟨z, rfl, hz⟩ := collapse_eq_cons hb hc hZ.symm
    exact List.cons_prefix_cons.mpr ⟨rfl, ih hrest ⟨Z, hz.symm⟩⟩

/-- Where the output is free of runs, it stood in the text. -/
theorem infix_of_collapse (hb : p b = true) {inRun : Bool} {s w : List α}
    (hw : ∀ c ∈ w, p c = false) (h : w <:+: collapse p b inRun s) : w <:+: s := by
  induction s generalizing inRun with
  | nil => exact h
  | cons c s ih =>
    cases hc : p c with
    | true =>
      rw [collapse_cons_of hc] at h
      have hrest : w = [] ∨ w <:+: collapse p b true s := by
        cases inRun with
        | true => exact .inr h
        | false =>
          refine (List.infix_cons_iff.mp h).imp_left fun hpre ↦ ?_
          rcases List.prefix_cons_iff.mp hpre with hnil | ⟨rest, rfl, -⟩
          · exact hnil
          · rw [hw b List.mem_cons_self] at hb
            cases hb
      rcases hrest with rfl | hin
      · exact List.nil_infix
      · exact List.infix_cons (ih hin)
    | false =>
      rw [collapse_cons_of_not hc] at h
      rcases List.infix_cons_iff.mp h with hpre | hin
      · rw [← collapse_cons_of_not hc false] at hpre
        exact (prefix_of_collapse hb hw hpre).isInfix
      · exact List.infix_cons (ih hin)

end Collapse

/-! ## Long runs of one character -/

section Unflood

variable [DecidableEq α] {p : α → Bool}

theorem flooded_eq_none {c : α} {s : List α} (h : ¬[c, c] <+: s) : flooded p c s = none := by
  refine if_neg fun hlong ↦ h ?_
  cases s with
  | nil => exact absurd hlong.2 (Nat.not_succ_le_zero 1)
  | cons d s =>
    by_cases hd : d = c
    · subst hd
      rw [run_cons_self] at hlong
      have hne : run d s ≠ 0 := Nat.ne_of_gt (Nat.le_of_succ_le_succ hlong.2)
      rw [ne_eq, run_eq_zero, not_not] at hne
      obtain ⟨t, rfl⟩ := List.head?_eq_some_iff.mp hne
      exact List.prefix_append [d, d] t
    · rw [run_cons_of_ne hd] at hlong
      exact absurd hlong.2 (Nat.not_succ_le_zero 1)

theorem not_infix_unflood {c : α} (hc : p c = true) (flood : Option α) (s : List α) :
    ¬[c, c, c] <:+: unflood p flood s := by
  intro h
  induction s generalizing flood with
  | nil => exact absurd (List.infix_nil.mp h) (List.cons_ne_nil c [c, c])
  | cons d s ih =>
    by_cases hflood : flood = some d
    · subst hflood
      rw [unflood_skip] at h
      exact ih (some d) h
    · rw [unflood_keep hflood] at h
      rcases List.infix_cons_iff.mp h with hpre | hin
      · obtain ⟨rfl, Z, hZ⟩ := List.cons_prefix_cons.mp hpre
        -- after the first one the others are left out, or there is no third one
        obtain ⟨-, -, -, hne, -⟩ := unflood_eq_cons hZ.symm
        have hnone : flooded p c s = none := by
          cases hf : flooded p c s with
          | none => rfl
          | some e => exact absurd (eq_of_flooded hf ▸ hf) hne
        rw [hnone] at hZ
        obtain ⟨t, rfl, -⟩ := unflood_eq_pair hc hZ.symm
        rw [flooded, run_cons_self, run_cons_self, if_pos ⟨hc, Nat.le_add_left 2 _⟩] at hnone
        cases hnone
      · exact ih _ hin

theorem unflood_eq_self {s : List α} (h : ∀ c, ¬[c, c, c] <:+: s) : unflood p none s = s := by
  induction s with
  | nil => rfl
  | cons c s ih =>
    have hshort : ¬[c, c] <+: s := fun hpre ↦
      h c (List.cons_prefix_cons.mpr ⟨rfl, hpre⟩).isInfix
    rw [unflood_keep (Option.some_ne_none c).symm, flooded_eq_none hshort,
      ih fun d hin ↦ h d (List.infix_cons hin)]

end Unflood

/-! ## Punctuation between letters -/

/-- A run of punctuation stands directly between two letters. -/
def Interrupted (letter punct : α → Bool) (s : List α) : Prop :=
  ∃ c gap d, letter c = true ∧ gap ≠ [] ∧ (∀ e ∈ gap, punct e = true) ∧ letter d = true ∧
    c :: (gap ++ [d]) <:+: s

section Unpunctuate

variable {skip p letter punct : α → Bool}

theorem Interrupted.mono {s t : List α} (h : Interrupted letter punct s) (hs : s <:+: t) :
    Interrupted letter punct t := by
  obtain ⟨c, gap, d, hc, hne, hgap, hd, hin⟩ := h
  exact ⟨c, gap, d, hc, hne, hgap, hd, hin.trans hs⟩

theorem nextIs_eq (s : List α) :
    nextIs skip p s = ((s.filter fun c ↦ !skip c).head?).any p := by
  induction s with
  | nil => rfl
  | cons c s ih =>
    cases hc : skip c with
    | true => rw [nextIs_cons_of hc, ih, List.filter_cons_of_neg (by simp [hc])]
    | false =>
      rw [nextIs_cons_of_not hc, List.filter_cons_of_pos (by simp [hc]), List.head?_cons,
        Option.any_some]

theorem nextIs_unpunctuate (left : Bool) (s : List α) :
    nextIs punct p (unpunctuate letter punct left s) = nextIs punct p s := by
  rw [nextIs_eq, filter_unpunctuate, ← nextIs_eq]

theorem exists_of_nextIs {s : List α} (h : nextIs skip p s = true) :
    ∃ gap d, (∀ c ∈ gap, skip c = true) ∧ p d = true ∧ gap ++ [d] <+: s := by
  induction s with
  | nil => cases h
  | cons c s ih =>
    cases hc : skip c with
    | true =>
      rw [nextIs_cons_of hc] at h
      obtain ⟨gap, d, hgap, hd, hpre⟩ := ih h
      exact ⟨c :: gap, d, List.forall_mem_cons.mpr ⟨hc, hgap⟩, hd,
        List.cons_prefix_cons.mpr ⟨rfl, hpre⟩⟩
    | false =>
      rw [nextIs_cons_of_not hc] at h
      exact ⟨[], c, fun d hd ↦ absurd hd List.not_mem_nil, h, List.prefix_append [c] s⟩

theorem mem_unpunctuate {left : Bool} {s : List α} {c : α}
    (h : c ∈ unpunctuate letter punct left s) : c ∈ s := by
  induction s generalizing left with
  | nil => exact h
  | cons d s ih =>
    have hmem : c = d ∨ ∃ left', c ∈ unpunctuate letter punct left' s := by
      rw [unpunctuate] at h
      split_ifs at h
      · exact .inr ⟨_, h⟩
      · exact (List.mem_cons.mp h).imp_right fun hrest ↦ ⟨_, hrest⟩
      · exact (List.mem_cons.mp h).imp_right fun hrest ↦ ⟨_, hrest⟩
    rcases hmem with rfl | ⟨left', hrest⟩
    · exact List.mem_cons_self
    · exact List.mem_cons_of_mem d (ih hrest)

theorem eq_nil_of_unpunctuate (h : ∀ c, letter c = true → punct c = false) {s gap : List α} {d : α}
    (hgap : ∀ c ∈ gap, punct c = true) (hd : letter d = true)
    (hpre : gap ++ [d] <+: unpunctuate letter punct true s) : gap = [] := by
  obtain ⟨Z, hZ⟩ := hpre
  rw [List.append_assoc, List.singleton_append] at hZ
  have hdpunct := h d hd
  induction s with
  | nil => exact absurd hZ (List.append_ne_nil_of_right_ne_nil gap (List.cons_ne_nil d Z))
  | cons c s ih =>
    cases hc : punct c with
    | true =>
      rw [unpunctuate_cons_of hc] at hZ
      by_cases hnext : nextIs punct letter s = true
      · rw [hnext, Bool.and_true, if_pos rfl, List.nil_append] at hZ
        exact ih hZ
      · rw [Bool.true_and, if_neg hnext, List.singleton_append] at hZ
        -- the letter behind the gap is the next one in the text as well
        cases gap with
        | nil => rfl
        | cons e gap =>
          have hrest := (List.forall_mem_cons.mp hgap).2
          have hout : gap ++ d :: Z = unpunctuate letter punct true s := (List.cons.inj hZ).2
          rw [← nextIs_unpunctuate true, ← hout, nextIs_append hrest,
            nextIs_cons_of_not hdpunct] at hnext
          exact absurd hd hnext
    | false =>
      rw [unpunctuate_cons_of_not hc] at hZ
      cases gap with
      | nil => rfl
      | cons e gap =>
        rw [← (List.cons.inj hZ).1, hgap e List.mem_cons_self] at hc
        cases hc

theorem not_interrupted_unpunctuate (h : ∀ c, letter c = true → punct c = false) (left : Bool)
    (s : List α) : ¬Interrupted letter punct (unpunctuate letter punct left s) := by
  rintro ⟨c, gap, d, hc, hne, hgap, hd, X, Z, heq⟩
  rw [List.append_assoc, List.cons_append] at heq
  obtain ⟨x, z, rfl, -, hz⟩ := unpunctuate_eq_append (h c hc) heq.symm
  rw [hc] at hz
  exact hne (eq_nil_of_unpunctuate h hgap hd ⟨Z, hz.symm⟩)

theorem unpunctuate_eq_self {left : Bool} {s : List α}
    (hleft : left = true → ∀ gap d, gap ≠ [] → (∀ e ∈ gap, punct e = true) → letter d = true →
      ¬gap ++ [d] <+: s)
    (h : ¬Interrupted letter punct s) : unpunctuate letter punct left s = s := by
  induction s generalizing left with
  | nil => rfl
  | cons c s ih =>
    have hrest : ¬Interrupted letter punct s := fun hin ↦
      h (hin.mono (List.infix_cons List.infix_rfl))
    cases hc : punct c with
    | true =>
      have hkeep : ¬(left && nextIs punct letter s) = true := by
        rw [Bool.and_eq_true]
        rintro ⟨htrue, hnext⟩
        obtain ⟨gap, d, hgap, hd, hpre⟩ := exists_of_nextIs hnext
        exact hleft htrue (c :: gap) d (List.cons_ne_nil c gap)
          (List.forall_mem_cons.mpr ⟨hc, hgap⟩) hd (List.cons_prefix_cons.mpr ⟨rfl, hpre⟩)
      rw [unpunctuate_cons_of hc, if_neg hkeep, List.singleton_append, ih ?_ hrest]
      intro htrue gap d _ hgap hd hpre
      exact hleft htrue (c :: gap) d (List.cons_ne_nil c gap)
        (List.forall_mem_cons.mpr ⟨hc, hgap⟩) hd (List.cons_prefix_cons.mpr ⟨rfl, hpre⟩)
    | false =>
      rw [unpunctuate_cons_of_not hc, ih ?_ hrest]
      intro hletter gap d hne hgap hd hpre
      exact h ⟨c, gap, d, hletter, hne, hgap, hd,
        (List.cons_prefix_cons.mpr ⟨rfl, hpre⟩).isInfix⟩

end Unpunctuate

/-! ## The passes after one another -/

section Passes

variable {p q letter punct : α → Bool} {b : α}

/-- A shortened run of punctuation is still one, and still stands between the same two letters. -/
theorem not_interrupted_unflood [DecidableEq α] (hpunct : ∀ c, letter c = true → punct c = false)
    {s : List α} (h : ¬Interrupted letter punct s) :
    ¬Interrupted letter punct (unflood p none s) := by
  rintro ⟨c, gap, d, hc, hne, hgap, hd, X, Z, heq⟩
  rw [List.append_assoc, List.cons_append, List.append_assoc, List.singleton_append] at heq
  have hout : ∀ e, letter e = true → e ∉ gap := by
    intro e he hmem
    have hfalse := hpunct e he
    rw [hgap e hmem] at hfalse
    cases hfalse
  obtain ⟨x, run, z, rfl, -, hrun, -⟩ := unflood_eq_append_run hne (hout c hc) (hout d hd) heq.symm
  refine h ⟨c, run, d, hc, ?_, fun e he ↦ ?_, hd, x, z, ?_⟩
  · rintro rfl
    exact hne hrun.symm
  · have hmem := (mem_unflood (p := p) he).resolve_right (Option.some_ne_none e).symm
    rw [hrun] at hmem
    exact hgap e hmem
  · rw [List.append_assoc, List.cons_append, List.append_assoc, List.singleton_append]

theorem not_interrupted_collapse (hb : q b = true) (hletter : ∀ c, letter c = true → q c = false)
    (hpunct : ∀ c, punct c = true → q c = false) {inRun : Bool} {s : List α}
    (h : ¬Interrupted letter punct s) : ¬Interrupted letter punct (collapse q b inRun s) := by
  rintro ⟨c, gap, d, hc, hne, hgap, hd, hin⟩
  refine h ⟨c, gap, d, hc, hne, hgap, hd, infix_of_collapse hb ?_ hin⟩
  intro e he
  rcases List.mem_cons.mp he with rfl | he
  · exact hletter e hc
  · rcases List.mem_append.mp he with he | he
    · exact hpunct e (hgap e he)
    · rw [List.mem_singleton.mp he]
      exact hletter d hd

theorem not_infix_three_collapse (hb : q b = true) {inRun : Bool} {s : List α}
    (h : ∀ c, q c = false → ¬[c, c, c] <:+: s) (c : α) : ¬[c, c, c] <:+: collapse q b inRun s := by
  intro hin
  rcases of_mem_collapse (hin.subset List.mem_cons_self) with rfl | ⟨-, hc⟩
  · exact not_infix_collapse hb inRun s ((List.infix_cons List.infix_rfl).trans hin)
  · refine h c hc (infix_of_collapse hb (fun d hd ↦ ?_) hin)
    have heq : d = c := by simpa using hd
    rw [heq, hc]

end Passes

end Text
