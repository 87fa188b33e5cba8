import Sentinel.Core.Engine

/-!
# What the canonical text shows of a phrase

The last three passes delete characters next to others, so a phrase in the text may be gone from
the canonical text, and a phrase in the canonical text may never have been in the text. Both are
decided by cutting: the passes together can be cut between two different letters, with or without
punctuation in between, and between a letter and a blank. A phrase is cut into its letters this
way, and each letter comes from a piece of the text in which nothing else is spelled.

Two equal letters at the end of a phrase cannot be cut. They stay two unless a third one follows,
directly or behind punctuation; then all of them become one and the phrase is lost.
-/

namespace Sentinel

open Text

variable {u : Unicode}

/-! ## Cutting the passes -/

theorem isDot_of_isLetter {c : Char} (h : u.isLetter c = true) : (c != '\n') = true := by
  rw [bne_iff_ne]
  rintro rfl
  have hspace := Unicode.isSpace_of_isLetter h
  cases hspace

theorem squeeze_cons_eq {c : Char} (hc : u.isLetter c = true) (s : List Char) :
    squeeze u (c :: s) = c :: collapse isSpace ' ' false (unflood (· != '\n')
      (flooded (· != '\n') c (unpunctuate u.isLetter u.isPunctuation true s))
      (unpunctuate u.isLetter u.isPunctuation true s)) := by
  rw [squeeze, unpunctuate_cons_of_not (Unicode.isPunctuation_of_isLetter c hc), hc,
    unflood_keep (Option.some_ne_none c).symm,
    collapse_cons_of_not (Unicode.isSpace_of_isLetter hc)]

theorem squeeze_cons {c : Char} (hc : u.isLetter c = true) (s : List Char) :
    ∃ Y, squeeze u (c :: s) = c :: Y := by
  rw [squeeze_cons_eq hc]
  exact ⟨_, rfl⟩

theorem squeeze_append {c d : Char} (hc : u.isLetter c = true) (hd : u.isLetter d = true)
    (hne : c ≠ d) {gap : List Char} (hgap : ∀ e ∈ gap, u.isPunctuation e = true)
    (s t : List Char) :
    squeeze u (s ++ c :: (gap ++ d :: t)) = squeeze u (s ++ [c]) ++ squeeze u (d :: t) := by
  have hcpunct := Unicode.isPunctuation_of_isLetter c hc
  have hdpunct := Unicode.isPunctuation_of_isLetter d hd
  obtain ⟨X, hX⟩ : ∃ X, unpunctuate u.isLetter u.isPunctuation false (s ++ [c]) = X ++ [c] :=
    unpunctuate_concat hcpunct false s
  have hnext : nextIs u.isPunctuation u.isLetter (d :: t) = true := by
    rw [nextIs_cons_of_not hdpunct, hd]
  rw [squeeze, unpunctuate_append hcpunct, hX, hc, unpunctuate_between hgap hnext,
    unpunctuate_cons_of_not hdpunct, hd, List.append_assoc, List.singleton_append,
    unflood_append hne, unflood_keep (Option.some_ne_none d).symm,
    collapse_append_cons (Unicode.isSpace_of_isLetter hd), squeeze, hX, squeeze_cons_eq hd]

theorem squeeze_concat {c : Char} (hc : u.isLetter c = true) (s : List Char) :
    ∃ X, squeeze u (s ++ [c]) = X ++ [c] := by
  obtain ⟨X, hX⟩ : ∃ X, unpunctuate u.isLetter u.isPunctuation false (s ++ [c]) = X ++ [c] :=
    unpunctuate_concat (Unicode.isPunctuation_of_isLetter c hc) false s
  obtain ⟨Y, hY⟩ := (unflood_concat (p := (· != '\n')) none X c).resolve_right
    fun h ↦ (Option.some_ne_none c).symm h.1
  refine ⟨collapse isSpace ' ' false Y, ?_⟩
  rw [squeeze, hX, hY, collapse_append_cons (Unicode.isSpace_of_isLetter hc), collapse]

theorem squeeze_append_blank {c d : Char} (hc : u.isLetter c = true) (hd : u.isLetter d = true)
    {run : List Char} (hne : run ≠ []) (hrun : ∀ e ∈ run, isSpace e = true) (s t : List Char) :
    squeeze u (s ++ c :: (run ++ d :: t))
      = squeeze u (s ++ [c]) ++ ' ' :: squeeze u (d :: t) := by
  have hcspace := Unicode.isSpace_of_isLetter hc
  have hdspace := Unicode.isSpace_of_isLetter hd
  have hcpunct := Unicode.isPunctuation_of_isLetter c hc
  have hdpunct := Unicode.isPunctuation_of_isLetter d hd
  have hletter : ∀ {e f : Char}, isSpace e = false → f ∈ run → e ≠ f := by
    rintro e f he hf rfl
    rw [hrun e hf] at he
    cases he
  obtain ⟨X, hX⟩ : ∃ X, unpunctuate u.isLetter u.isPunctuation false (s ++ [c]) = X ++ [c] :=
    unpunctuate_concat hcpunct false s
  obtain ⟨Y, hY⟩ := (unflood_concat (p := (· != '\n')) none X c).resolve_right
    fun h ↦ (Option.some_ne_none c).symm h.1
  -- Blanks end a run of punctuation, so the first pass sees two separate texts.
  set T := unpunctuate u.isLetter u.isPunctuation true t with hT
  have hpunct : unpunctuate u.isLetter u.isPunctuation false (s ++ c :: (run ++ d :: t))
      = X ++ c :: (run ++ d :: T) := by
    rw [unpunctuate_append hcpunct, hX, unpunctuate_append_of_not
      (fun e he ↦ Unicode.isPunctuation_of_isSpace (hrun e he)) hdpunct, hd, List.append_assoc,
      List.singleton_append]
  have hflood : unflood (· != '\n') none (X ++ c :: (run ++ d :: T))
      = Y ++ c :: (unflood (· != '\n') none run ++ unflood (· != '\n') none (d :: T)) := by
    obtain ⟨first, rest, hfirst⟩ := List.exists_cons_of_ne_nil hne
    obtain ⟨front, last, hlast⟩ := (List.eq_nil_or_concat' run).resolve_left hne
    have hc' : c ≠ first := hletter hcspace (hfirst ▸ List.mem_cons_self)
    have hd' : last ≠ d :=
      (hletter hdspace (hlast ▸ List.mem_append_right _ List.mem_cons_self)).symm
    have hcut : unflood (· != '\n') none (run ++ d :: T)
        = unflood (· != '\n') none run ++ unflood (· != '\n') none (d :: T) := by
      rw [hlast, List.append_assoc, List.singleton_append, unflood_append hd']
    rw [← hcut, hfirst, List.cons_append, unflood_append hc', hY, List.append_assoc,
      List.singleton_append]
  -- The second pass may shorten the run of blanks, but leaves one for the third.
  have hblank : ∀ e ∈ unflood (· != '\n') none run, isSpace e = true := fun e he ↦
    hrun e (of_mem_unflood he)
  have hblankne : unflood (· != '\n') none run ≠ [] := by
    obtain ⟨first, rest, hfirst⟩ := List.exists_cons_of_ne_nil hne
    rw [hfirst, unflood_keep (Option.some_ne_none first).symm]
    exact List.cons_ne_nil _ _
  have hleft : squeeze u (s ++ [c]) = collapse isSpace ' ' false (Y ++ [c]) := by
    rw [squeeze, hX, hY]
  rw [squeeze, hpunct, hflood, collapse_append hcspace, collapse_false_append hblank hblankne,
    unflood_keep (Option.some_ne_none d).symm, collapse_cons_of_not hdspace, hleft,
    squeeze_cons_eq hd]

/-! ## Taking the output apart -/

theorem squeeze_eq_append {c d : Char} (hc : u.isLetter c = true) (hd : u.isLetter d = true)
    (hne : c ≠ d) {s X Y : List Char} (h : squeeze u s = X ++ c :: d :: Y) :
    ∃ x gap y, s = x ++ c :: (gap ++ d :: y) ∧ (∀ e ∈ gap, u.isPunctuation e = true) ∧
      squeeze u (x ++ [c]) = X ++ [c] ∧ squeeze u (d :: y) = d :: Y := by
  have hspace : isSpace ' ' = true := by decide
  obtain ⟨x₁, z₁, hs₁, hx₁, hz₁⟩ := collapse_eq_append hspace (Unicode.isSpace_of_isLetter hc) h
  obtain ⟨y₁, rfl, hy₁⟩ := collapse_eq_cons hspace (Unicode.isSpace_of_isLetter hd) hz₁
  obtain ⟨x₂, z₂, hs₂, hx₂, hz₂⟩ := unflood_eq_append hne hs₁
  obtain ⟨x, z, rfl, hx, hz⟩ := unpunctuate_eq_append (Unicode.isPunctuation_of_isLetter c hc) hs₂
  obtain ⟨gap, y, rfl, hgap, -, hy⟩ :=
    unpunctuate_eq_cons (Unicode.isPunctuation_of_isLetter d hd) hz
  refine ⟨x, gap, y, rfl, hgap, by rw [squeeze, hx, hx₂, hx₁], ?_⟩
  rw [squeeze, unpunctuate_cons_of_not (Unicode.isPunctuation_of_isLetter d hd), hy, hz₂,
    collapse_cons_of_not (Unicode.isSpace_of_isLetter hd), hy₁]

theorem squeeze_eq_append_blank {c d : Char} (hc : u.isLetter c = true)
    (hd : u.isLetter d = true) {s X Y : List Char} (h : squeeze u s = X ++ c :: ' ' :: d :: Y) :
    ∃ x run y, s = x ++ c :: (run ++ d :: y) ∧ run ≠ [] ∧ (∀ e ∈ run, isSpace e = true) ∧
      squeeze u (x ++ [c]) = X ++ [c] ∧ squeeze u (d :: y) = d :: Y := by
  have hspace : isSpace ' ' = true := by decide
  have hcspace := Unicode.isSpace_of_isLetter hc
  have hdspace := Unicode.isSpace_of_isLetter hd
  obtain ⟨x₁, z₁, hs₁, hx₁, hz₁⟩ := collapse_eq_append hspace hcspace h
  obtain ⟨run₁, y₁, hne₁, hrun₁, rfl, hy₁⟩ := collapse_eq_blank_cons hspace hdspace hz₁
  have hnotMem : ∀ {e : Char}, isSpace e = false → e ∉ run₁ := by
    intro e he hmem
    rw [hrun₁ e hmem] at he
    cases he
  obtain ⟨x₂, run, z₂, hs₂, hx₂, hrun₂, hz₂⟩ :=
    unflood_eq_append_run hne₁ (hnotMem hcspace) (hnotMem hdspace) hs₁
  have hrun : ∀ e ∈ run, isSpace e = true := by
    intro e he
    have hmem : e ∈ unflood (· != '\n') none run :=
      (mem_unflood he).resolve_right (Option.some_ne_none e).symm
    exact hrun₁ e (hrun₂ ▸ hmem)
  have hne : run ≠ [] := by
    rintro rfl
    exact hne₁ hrun₂.symm
  obtain ⟨x, z, rfl, hx, hz⟩ := unpunctuate_eq_append (Unicode.isPunctuation_of_isLetter c hc) hs₂
  have hother : ∀ e ∈ run, u.isPunctuation e = false ∧ u.isLetter e = false := fun e he ↦
    ⟨Unicode.isPunctuation_of_isSpace (hrun e he), Unicode.isLetter_of_isSpace (hrun e he)⟩
  obtain ⟨y, rfl, hy⟩ := unpunctuate_eq_append_of_not hne hother
    (Unicode.isPunctuation_of_isLetter d hd) hz
  refine ⟨x, run, y, rfl, hne, hrun, by rw [squeeze, hx, hx₂, hx₁], ?_⟩
  rw [squeeze, unpunctuate_cons_of_not (Unicode.isPunctuation_of_isLetter d hd), hy, hz₂,
    collapse_cons_of_not hdspace, hy₁]

/-! ## Spelling -/

/-- A piece of text in which one letter is spelled: once or at least three times, with punctuation
in between. -/
structure LetterRun (u : Unicode) (c : Char) (run : List Char) : Prop where
  head : run.head? = some c
  last : run.getLast? = some c
  count : ∃ n, (n = 1 ∨ 3 ≤ n) ∧ (run.filter fun e ↦ !u.isPunctuation e) = List.replicate n c

/-- The text begins with a spelling of the phrase: letter by letter, with punctuation between two
letters of a word and blanks between two words. Two equal letters at the end are written as they
are, and no third one follows, directly or behind punctuation. -/
inductive Spells (u : Unicode) : List Char → List Char → Prop
  | pair {c : Char} {gap rest : List Char} (hgap : ∀ e ∈ gap, u.isPunctuation e = true)
    (hrest : (rest.dropWhile u.isPunctuation).head? ≠ some c) :
    Spells u [c, c] (c :: (gap ++ c :: rest))
  | letter {c d : Char} {phrase run gap rest : List Char} (hd : u.isLetter d = true) (hne : c ≠ d)
    (hrun : LetterRun u c run) (hgap : ∀ e ∈ gap, u.isPunctuation e = true)
    (hrest : Spells u (d :: phrase) (d :: rest)) :
    Spells u (c :: d :: phrase) (run ++ (gap ++ d :: rest))
  | blank {c d : Char} {phrase run blanks rest : List Char} (hrun : LetterRun u c run)
    (hne : blanks ≠ []) (hblanks : ∀ e ∈ blanks, isSpace e = true)
    (hrest : Spells u (d :: phrase) (d :: rest)) :
    Spells u (c :: ' ' :: d :: phrase) (run ++ (blanks ++ d :: rest))

/-- A letter and what follows it in a phrase: words of different letters, the last word with two
equal letters at its end. -/
inductive Words (u : Unicode) : Char → List Char → Prop
  | pair {c : Char} (hc : u.isLetter c = true) : Words u c [c]
  | letter {c d : Char} {phrase : List Char} (hc : u.isLetter c = true) (hne : c ≠ d)
    (hrest : Words u d phrase) : Words u c (d :: phrase)
  | blank {c d : Char} {phrase : List Char} (hc : u.isLetter c = true)
    (hrest : Words u d phrase) : Words u c (' ' :: d :: phrase)

theorem Words.isLetter {c : Char} {phrase : List Char} (h : Words u c phrase) :
    u.isLetter c = true := by
  cases h with
  | pair hc => exact hc
  | letter hc _ _ => exact hc
  | blank hc _ => exact hc

theorem squeeze_eq_singleton {c : Char} (hc : u.isLetter c = true) {s : List Char}
    (hhead : (s ++ [c]).head? = some c) :
    squeeze u (s ++ [c]) = [c] ↔ LetterRun u c (s ++ [c]) := by
  have hpunct := Unicode.isPunctuation_of_isLetter c hc
  have hspace := Unicode.isSpace_of_isLetter hc
  have hfirst : unpunctuate u.isLetter u.isPunctuation false (s ++ [c])
      = unpunctuate u.isLetter u.isPunctuation true (s ++ [c]) := by
    obtain ⟨t, ht⟩ := List.head?_eq_some_iff.mp hhead
    rw [ht, unpunctuate_cons_of_not hpunct, unpunctuate_cons_of_not hpunct]
  constructor
  · intro h
    obtain ⟨z, hz, hnil⟩ := collapse_eq_cons (by decide) hspace h
    rw [eq_nil_of_collapse hnil] at hz
    obtain ⟨n, hn, hcount⟩ := (unflood_eq_singleton (p := (· != '\n')) (isDot_of_isLetter hc)).mp hz
    refine ⟨hhead, List.getLast?_concat, n, hcount, ?_⟩
    have hfilter : (unpunctuate u.isLetter u.isPunctuation false (s ++ [c])).filter
        (fun e ↦ !u.isPunctuation e) = (s ++ [c]).filter fun e ↦ !u.isPunctuation e :=
      filter_unpunctuate false (s ++ [c])
    rw [← hfilter, hn, List.filter_replicate, if_pos (by rw [hpunct]; rfl)]
  · rintro ⟨-, -, n, hcount, hfilter⟩
    have hletters : ∀ e ∈ s, u.isPunctuation e = false → u.isLetter e = true := by
      intro e he hnot
      have hmem : e ∈ (s ++ [c]).filter fun e ↦ !u.isPunctuation e :=
        List.mem_filter.mpr ⟨List.mem_append_left [c] he, by rw [hnot]; rfl⟩
      rw [hfilter] at hmem
      rw [List.eq_of_mem_replicate hmem, hc]
    rw [squeeze, hfirst, unpunctuate_letters hletters hpunct hc, hfilter,
      (unflood_eq_singleton (p := (· != '\n')) (isDot_of_isLetter hc)).mpr ⟨n, rfl, hcount⟩,
      collapse_cons_of_not hspace, collapse]

theorem prefix_squeeze_pair {c : Char} (hc : u.isLetter c = true) {s : List Char} :
    [c, c] <+: squeeze u (c :: s) ↔ ∃ gap rest, s = gap ++ c :: rest ∧
      (∀ e ∈ gap, u.isPunctuation e = true) ∧
      (rest.dropWhile u.isPunctuation).head? ≠ some c := by
  have hpunct := Unicode.isPunctuation_of_isLetter c hc
  have hspace := Unicode.isSpace_of_isLetter hc
  have hfirst : unpunctuate u.isLetter u.isPunctuation false (c :: s)
      = c :: unpunctuate u.isLetter u.isPunctuation true s := by
    rw [unpunctuate_cons_of_not hpunct, hc]
  constructor
  · rintro ⟨Y, hY⟩
    obtain ⟨z, hz, hz'⟩ := collapse_eq_cons (by decide) hspace hY.symm
    obtain ⟨z', rfl, -⟩ := collapse_eq_cons (by decide) hspace hz'
    rw [hfirst] at hz
    obtain ⟨t, ht, hhead⟩ := unflood_eq_pair (p := (· != '\n')) (isDot_of_isLetter hc) hz
    obtain ⟨gap, rest, rfl, hgap, -, hrest⟩ := unpunctuate_eq_cons hpunct (List.cons.inj ht).2
    refine ⟨gap, rest, rfl, hgap, fun hthird ↦ hhead ?_⟩
    -- A third letter would follow the two when the second pass comes to them.
    obtain ⟨r, hr⟩ := List.head?_eq_some_iff.mp hthird
    have hsplit : rest = rest.takeWhile u.isPunctuation ++ c :: r := by
      rw [← hr, List.takeWhile_append_dropWhile]
    have hgone : ∀ e ∈ rest.takeWhile u.isPunctuation, u.isPunctuation e = true := fun e he ↦
      List.mem_takeWhile_imp he
    rw [← hrest, hc, hsplit, unpunctuate_between hgone (by rw [nextIs_cons_of_not hpunct, hc]),
      unpunctuate_cons_of_not hpunct, List.head?_cons]
  · rintro ⟨gap, rest, rfl, hgap, hrest⟩
    have hhead : (unpunctuate u.isLetter u.isPunctuation true rest).head? ≠ some c := by
      intro hthird
      obtain ⟨Z, hZ⟩ := List.head?_eq_some_iff.mp hthird
      obtain ⟨gap', z, rfl, hgap', -, -⟩ := unpunctuate_eq_cons hpunct hZ
      apply hrest
      rw [List.dropWhile_append_of_pos hgap',
        List.dropWhile_cons_of_neg (Bool.eq_false_iff.mp hpunct), List.head?_cons]
    rw [squeeze, hfirst, unpunctuate_between hgap (by rw [nextIs_cons_of_not hpunct, hc]),
      unpunctuate_cons_of_not hpunct, hc, unflood_pair hhead, collapse_cons_of_not hspace,
      collapse_cons_of_not hspace]
    exact ⟨_, rfl⟩

theorem head?_concat {s t x : List Char} {c : Char} (h : c :: s = x ++ c :: t) :
    (x ++ [c]).head? = some c := by
  cases x with
  | nil => rfl
  | cons d x => rw [(List.cons.inj h).1, List.cons_append, List.head?_cons]

/-- **The output begins with a phrase exactly where the text spells it.** -/
theorem prefix_squeeze_iff {c : Char} {phrase : List Char} (h : Words u c phrase)
    (s : List Char) : c :: phrase <+: squeeze u (c :: s) ↔ Spells u (c :: phrase) (c :: s) := by
  -- By the phrase: each different letter and each blank is a cut, the rest is spelled by itself.
  induction h generalizing s with
  | pair hc =>
    rw [prefix_squeeze_pair hc]
    constructor
    · rintro ⟨gap, rest, rfl, hgap, hrest⟩
      exact .pair hgap hrest
    · intro h
      generalize htext : _ :: s = text at h
      cases h with
      | pair hgap hrest => exact ⟨_, _, (List.cons.inj htext).2, hgap, hrest⟩
      | letter _ hne _ _ _ => exact absurd rfl hne
  | @letter c d phrase hc hne hrest ih =>
    constructor
    · rintro ⟨Y, hY⟩
      obtain ⟨x, gap, y, heq, hgap, hx, hy⟩ := squeeze_eq_append (X := []) hc hrest.isLetter hne
        hY.symm
      rw [heq, List.append_cons]
      exact .letter hrest.isLetter hne ((squeeze_eq_singleton hc (head?_concat heq)).mp hx) hgap
        ((ih y).mp ⟨Y, by rw [hy]; rfl⟩)
    · intro h
      generalize htext : c :: s = text at h
      cases h with
      | pair _ _ => exact absurd rfl hne
      | blank _ _ _ _ =>
        have hspace := Unicode.isSpace_of_isLetter hrest.isLetter
        cases hspace
      | @letter _ _ _ run gap rest _ _ hrun hgap hspells =>
        obtain ⟨x, rfl⟩ := List.getLast?_eq_some_iff.mp hrun.last
        rw [← List.append_cons, squeeze_append hc hrest.isLetter hne hgap,
          (squeeze_eq_singleton hc hrun.head).mpr hrun, List.singleton_append,
          List.cons_prefix_cons]
        exact ⟨rfl, (ih rest).mpr hspells⟩
  | @blank c d phrase hc hrest ih =>
    constructor
    · rintro ⟨Y, hY⟩
      obtain ⟨x, run, y, heq, hne, hrun, hx, hy⟩ := squeeze_eq_append_blank (X := []) hc
        hrest.isLetter hY.symm
      rw [heq, List.append_cons]
      exact .blank ((squeeze_eq_singleton hc (head?_concat heq)).mp hx) hne hrun
        ((ih y).mp ⟨Y, by rw [hy]; rfl⟩)
    · intro h
      generalize htext : c :: s = text at h
      cases h with
      | letter hd _ _ _ _ =>
        have hspace := Unicode.isSpace_of_isLetter hd
        cases hspace
      | @blank _ _ _ run blanks rest hrun hne hblanks hspells =>
        obtain ⟨x, rfl⟩ := List.getLast?_eq_some_iff.mp hrun.last
        rw [← List.append_cons, squeeze_append_blank hc hrest.isLetter hne hblanks,
          (squeeze_eq_singleton hc hrun.head).mpr hrun, List.singleton_append,
          List.cons_prefix_cons, List.cons_prefix_cons]
        exact ⟨rfl, rfl, (ih rest).mpr hspells⟩

/-- A phrase that begins with two different letters occurs in the output exactly where the text
spells it somewhere. -/
theorem infix_squeeze_iff {c d : Char} {phrase : List Char} (hc : u.isLetter c = true)
    (hne : c ≠ d) (h : Words u d phrase) (s : List Char) :
    c :: d :: phrase <:+: squeeze u s
      ↔ ∃ before text, s = before ++ text ∧ Spells u (c :: d :: phrase) text := by
  constructor
  · rintro ⟨X, Y, hXY⟩
    have hsplit : squeeze u s = X ++ c :: d :: (phrase ++ Y) := by
      rw [← hXY, List.append_assoc]
      rfl
    obtain ⟨x, gap, y, rfl, hgap, -, hy⟩ := squeeze_eq_append hc h.isLetter hne hsplit
    refine ⟨x, [c] ++ (gap ++ d :: y), rfl, .letter h.isLetter hne ⟨rfl, rfl, 1, .inl rfl, ?_⟩ hgap
      ((prefix_squeeze_iff h y).mp ⟨Y, by rw [hy]; rfl⟩)⟩
    rw [List.filter_cons_of_pos (by rw [Unicode.isPunctuation_of_isLetter c hc]; rfl),
      List.filter_nil]
    rfl
  · rintro ⟨before, text, rfl, hspells⟩
    generalize hphrase : c :: d :: phrase = whole at hspells
    cases hspells with
    | pair _ _ =>
      obtain ⟨rfl, hrest⟩ := List.cons.inj hphrase
      exact absurd (List.cons.inj hrest).1.symm hne
    | blank _ _ _ _ =>
      have hspace := Unicode.isSpace_of_isLetter h.isLetter
      rw [(List.cons.inj (List.cons.inj hphrase).2).1] at hspace
      cases hspace
    | @letter c' d' phrase' run gap rest _ _ hrun hgap hspells =>
      obtain ⟨rfl, hrest⟩ := List.cons.inj hphrase
      obtain ⟨rfl, rfl⟩ := List.cons.inj hrest
      obtain ⟨x, rfl⟩ := List.getLast?_eq_some_iff.mp hrun.last
      obtain ⟨X, hX⟩ := squeeze_concat hc (before ++ x)
      obtain ⟨Y, hY⟩ := (prefix_squeeze_iff h rest).mpr hspells
      rw [← List.append_cons, ← List.append_assoc, squeeze_append hc h.isLetter hne hgap, hX, ← hY]
      exact ⟨X, Y, by simp⟩

theorem infix_squeeze_of_infix (c d : Char) (core front : List Char) {first last : Char}
    {rest : List Char} (hc : u.isLetter c = true) (hd : u.isLetter d = true)
    (hfirst : u.isLetter first = true)
    (hlast : u.isLetter last = true) (hne : c ≠ first) (hne' : last ≠ d)
    (hcore : core = first :: rest) (hcore' : core = front ++ [last])
    (hfixed : squeeze u core = core) {s : List Char} (h : c :: (core ++ [d]) <:+: s) :
    c :: (core ++ [d]) <:+: squeeze u s := by
  obtain ⟨before, after, rfl⟩ := h
  obtain ⟨X, hX⟩ := squeeze_concat hc before
  obtain ⟨Y, hY⟩ := squeeze_cons hd after
  have hnil : ∀ e ∈ ([] : List Char), u.isPunctuation e = true := fun e he ↦
    absurd he List.not_mem_nil
  have hleft : squeeze u (before ++ c :: (core ++ [d]) ++ after)
      = squeeze u (before ++ [c]) ++ squeeze u (core ++ d :: after) := by
    have hcut := squeeze_append hc hfirst hne hnil before (rest ++ d :: after)
    rw [List.nil_append, ← List.cons_append, ← hcore] at hcut
    rw [← hcut]
    simp
  have hright : squeeze u (core ++ d :: after) = core ++ d :: Y := by
    have hcut := squeeze_append hlast hd hne' hnil front after
    rw [List.nil_append, List.append_cons, ← hcore', hfixed, hY] at hcut
    exact hcut
  rw [hleft, hright, hX]
  exact ⟨X, Y, by simp⟩

/-! ## The rules -/

/-- The text in lower case with the look-alikes replaced spells the phrase somewhere. -/
def Spelled (u : Unicode) (phrase text : String) : Prop :=
  ∃ before rest, (text.toList.map fun c ↦ leetspeakTable c.toLower) = before ++ rest ∧
    Spells u phrase.toList rest

theorem unmask_of_isAscii (hu : u.Plain fun c ↦ isAscii c = true) {text : List Char}
    (htext : ∀ c ∈ text, isAscii c = true) :
    unmask u text = text.map fun c ↦ leetspeakTable c.toLower := by
  rw [unmask_of_plain hu htext, List.map_eq_flatMap]
  apply List.flatMap_congr
  intro c hc
  refine ascii_induction (p := fun c ↦ unmaskChar c = [leetspeakTable c.toLower]) ?_ (htext c hc)
  decide +kernel

theorem words_worthless : Words u 'o' "u are worthless".toList := by
  refine .letter rfl (by decide) (.blank rfl ?_)
  refine .letter rfl (by decide) (.letter rfl (by decide) (.blank rfl ?_))
  refine .letter rfl (by decide) (.letter rfl (by decide) (.letter rfl (by decide) ?_))
  refine .letter rfl (by decide) (.letter rfl (by decide) (.letter rfl (by decide) ?_))
  exact .letter rfl (by decide) (.pair rfl)

theorem mem_evaluate_iff {rule : SafetyRule} (hrule : rule ∈ defaultRules) (text : String) :
    rule ∈ (RuleEngine.ofRules defaultRules).evaluate (normalizeText u text)
      ↔ rule.phrase.toList <:+: squeeze u (unmask u text.toList) := by
  have hget := RuleEngine.get_ruleDict_of_nodup nodup_defaultRules hrule
  have hends : ∃ c d s, rule.phrase.toList = c :: (s ++ [d]) ∧ isSpace c = false ∧
      isSpace d = false := by
    simp only [defaultRules, List.mem_cons, List.not_mem_nil, or_false] at hrule
    rcases hrule with rfl | rfl | rfl | rfl
    · exact ⟨'k', 'u', "ill yo".toList, rfl, rfl, rfl⟩
    · exact ⟨'a', 'm', "ttack the".toList, rfl, rfl, rfl⟩
    · exact ⟨'y', 's', "ou are worthles".toList, rfl, rfl, rfl⟩
    · exact ⟨'p', 'g', "eople like you do not belon".toList, rfl, rfl, rfl⟩
  obtain ⟨c, d, s, hphrase, hc, hd⟩ := hends
  rw [RuleEngine.mem_evaluate, normalizeText, String.toList_ofList, normalizeChars_eq, hphrase,
    infix_strip hc hd]
  exact ⟨fun h ↦ h.2.2, fun h ↦ ⟨hget, List.cons_ne_nil c _, h⟩⟩

theorem infix_unmask (hu : u.Plain fun c ↦ isAscii c = true) {text : List Char}
    (htext : ∀ c ∈ text, isAscii c = true) {phrase : List Char}
    (hphrase : phrase.map leetspeakTable = phrase) (h : phrase <:+: text.map Char.toLower) :
    phrase <:+: unmask u text := by
  have hmap := h.map leetspeakTable
  rw [hphrase, List.map_map] at hmap
  rw [unmask_of_isAscii hu htext]
  exact hmap

/-- The phrases of the other rules cannot be hidden. -/
theorem infix_squeeze_of_ne (hu : u.Plain fun c ↦ isAscii c = true) {text : List Char}
    (htext : ∀ c ∈ text, isAscii c = true) {rule : SafetyRule} (hrule : rule ∈ defaultRules)
    (hne : rule.phrase ≠ "you are worthless")
    (h : rule.phrase.toList <:+: text.map Char.toLower) :
    rule.phrase.toList <:+: squeeze u (unmask u text) := by
  simp only [defaultRules, List.mem_cons, List.not_mem_nil, or_false] at hrule
  rcases hrule with rfl | rfl | rfl | rfl
  · exact infix_squeeze_of_infix 'k' 'u' "ill yo".toList "ill y".toList rfl rfl rfl rfl
      (by decide) (by decide) rfl rfl rfl (infix_unmask hu htext (by decide) h)
  · exact infix_squeeze_of_infix 'a' 'm' "ttack the".toList "ttack th".toList rfl rfl rfl rfl
      (by decide) (by decide) rfl rfl rfl (infix_unmask hu htext (by decide) h)
  · exact absurd rfl hne
  · exact infix_squeeze_of_infix 'p' 'g' "eople like you do not belon".toList
      "eople like you do not belo".toList rfl rfl rfl rfl
      (by decide) (by decide) rfl rfl rfl (infix_unmask hu htext (by decide) h)

/-- The phrase that ends with two equal letters is left exactly where it is spelled. -/
theorem infix_squeeze_worthless (hu : u.Plain fun c ↦ isAscii c = true) {text : String}
    (htext : ∀ c ∈ text.toList, isAscii c = true) :
    "you are worthless".toList <:+: squeeze u (unmask u text.toList)
      ↔ Spelled u "you are worthless" text := by
  rw [Spelled, ← unmask_of_isAscii hu htext]
  exact infix_squeeze_iff (c := 'y') (d := 'o') rfl (by decide) words_worthless _

/-- **When a plain violation is reported.** A default rule whose phrase occurs in the lowercased
text is found in the canonical text and reported with its severity, exactly if it is not the one
that ends with two equal letters, or its phrase is somewhere spelled without a third one after
it. -/
theorem violation_reported_iff (hu : u.Plain fun c ↦ isAscii c = true) (text : String)
    (htext : ∀ c ∈ text.toList, isAscii c = true) (rule : SafetyRule)
    (hrule : rule ∈ defaultRules) :
    (rule.phrase.toList <:+: text.toList.map Char.toLower →
      rule ∈ (RuleEngine.ofRules defaultRules).evaluate (normalizeText u text) ∧
      ∀ (V : Type) (engine : ModerationEngine V) store requestId generated response store',
        engine.ruleEngine = RuleEngine.ofRules defaultRules →
        engine.moderate u store ⟨text, requestId⟩ generated = (.ok response, store') →
        rule.severity ≤ response.riskScore) ↔
    (rule.phrase = "you are worthless" →
      rule.phrase.toList <:+: text.toList.map Char.toLower → Spelled u rule.phrase text) := by
  have hreport : rule ∈ (RuleEngine.ofRules defaultRules).evaluate (normalizeText u text) →
      ∀ (V : Type) (engine : ModerationEngine V) store requestId generated response store',
        engine.ruleEngine = RuleEngine.ofRules defaultRules →
        engine.moderate u store ⟨text, requestId⟩ generated = (.ok response, store') →
        rule.severity ≤ response.riskScore := by
    intro hmem V engine store requestId generated response store' hengine hmoderate
    exact (ModerationEngine.moderated hmoderate).severity_le (by rw [hengine]; exact hmem)
  constructor
  · intro h hphrase hinfix
    have hmem := (mem_evaluate_iff hrule text).mp (h hinfix).1
    rw [hphrase] at hmem ⊢
    exact (infix_squeeze_worthless hu htext).mp hmem
  · intro h hinfix
    have hmem : rule ∈ (RuleEngine.ofRules defaultRules).evaluate (normalizeText u text) := by
      rw [mem_evaluate_iff hrule]
      by_cases hphrase : rule.phrase = "you are worthless"
      · have hspelled := h hphrase hinfix
        rw [hphrase] at hspelled ⊢
        exact (infix_squeeze_worthless hu htext).mpr hspelled
      · exact infix_squeeze_of_ne hu htext hrule hphrase hinfix
    exact ⟨hmem, hreport hmem⟩

/-- The second text has the phrase twice, once with a third letter at its end and once without. -/
theorem violation_reported_iff_sample :
    (⟨"kill you", .threat, 19 / 20, "explicit_threat"⟩ : SafetyRule)
      ∈ (RuleEngine.ofRules defaultRules).evaluate
        (normalizeText Unicode.sample "I will KILL YOUUUU.") ∧
    (⟨"you are worthless", .harassment, 13 / 20, "targeted_abuse"⟩ : SafetyRule)
      ∈ (RuleEngine.ofRules defaultRules).evaluate
        (normalizeText Unicode.sample "you are worthlesss. You are worthless!") := by
  have hspelled : Spelled Unicode.sample "you are worthless"
      "you are worthlesss. You are worthless!" :=
    (infix_squeeze_worthless (Unicode.sample_plain _) (List.all_eq_true.mp (by decide))).mp
      (by decide +kernel)
  constructor
  · exact ((violation_reported_iff (Unicode.sample_plain _) "I will KILL YOUUUU."
      (List.all_eq_true.mp (by decide)) ⟨"kill you", .threat, 19 / 20, "explicit_threat"⟩
      List.mem_cons_self).mpr (fun h _ ↦ absurd h (by decide)) (by decide)).1
  · exact ((violation_reported_iff (Unicode.sample_plain _)
      "you are worthlesss. You are worthless!" (List.all_eq_true.mp (by decide))
      ⟨"you are worthless", .harassment, 13 / 20, "targeted_abuse"⟩
      (by simp [defaultRules])).mpr (fun _ _ ↦ hspelled) (by decide)).1

/-- **A violation that is not reported.** One more letter hides the phrase, and the text is
allowed with a risk of zero. -/
theorem violation_hidden :
    "you are worthless".toList <:+: "you are worthlesss".toList.map Char.toLower ∧
    (⟨"you are worthless", .harassment, 13 / 20, "targeted_abuse"⟩ : SafetyRule) ∈ defaultRules ∧
    (⟨"you are worthless", .harassment, 13 / 20, "targeted_abuse"⟩ : SafetyRule)
      ∉ (RuleEngine.ofRules defaultRules).evaluate
        (normalizeText Unicode.sample "you are worthlesss") ∧
    ∀ store generated, ∃ response store',
      (ModerationEngine.default none none : ModerationEngine Unit).moderate Unicode.sample store
        ⟨"you are worthlesss", none⟩ generated = (.ok response, store') ∧
      response.riskScore = 0 := by
  have hnone : ∀ rule ∈ defaultRules, ¬rule.phrase.toList
      <:+: (normalizeText Unicode.sample "you are worthlesss").toList := by
    decide +kernel
  have hevaluate : (RuleEngine.ofRules defaultRules).evaluate
      (normalizeText Unicode.sample "you are worthlesss") = [] := by
    rw [List.eq_nil_iff_forall_not_mem]
    intro rule hrule
    exact hnone rule (RuleEngine.mem_of_evaluate hrule) (RuleEngine.mem_evaluate.mp hrule).2.2
  refine ⟨by decide, by simp [defaultRules], by rw [hevaluate]; exact List.not_mem_nil, ?_⟩
  intro store generated
  have hdefault : (ModerationEngine.default none none : ModerationEngine Unit).ruleEngine
      = RuleEngine.ofRules defaultRules := rfl
  obtain ⟨response, h⟩ := ModerationEngine.exists_moderate
    (ModerationEngine.default none none : ModerationEngine Unit) Unicode.sample store
    ⟨"you are worthlesss", none⟩ generated
    (fun rule hrule ↦ severity_mem_of_defaultRules (RuleEngine.mem_of_evaluate hrule))
    zero_le_one
  refine ⟨response, _, h, ?_⟩
  rw [(ModerationEngine.moderated h).riskScore_eq, ModerationEngine.ruleScore, hdefault, hevaluate]
  rfl

end Sentinel
