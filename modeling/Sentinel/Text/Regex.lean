import Sentinel.Text.Scanner

/-!
# Regular expressions

As much of Python's `re` as single-class expressions need: an expression is the list of things that
the engine tries one after the other, and `lengths` gives the lengths of all its matches at a place,
in the order in which the backtracking engine finds them. `sub` is `re.sub`, with its rules for
empty matches.

The expressions of the last part are those that a scanner computes. There `sub` skips over what it
has matched while the scanner walks through it with its state, and the two are compared at every
place of the text: what the substitution still has to skip is what the scanner is leaving out.
-/

namespace Text

variable {α : Type*}

/-- A regular expression, by what it begins with. A back reference is a `next` that depends on the
character. -/
inductive Regex (α : Type*)
  | done
  /-- `(?<=[p])`. -/
  | behind (p : α → Bool) (next : Regex α)
  /-- `(?=[p])`. -/
  | ahead (p : α → Bool) (next : Regex α)
  /-- `[p]`. -/
  | char (p : α → Bool) (next : α → Regex α)
  /-- `[p]{least,}`, greedy. -/
  | many (least : ℕ) (p : α → Bool) (next : Regex α)

namespace Regex

/-- The lengths of the matches of `[p]{least,}` followed by `rest`, those of a long run first. -/
def greedy (p : α → Bool) (rest : Option α → List α → List ℕ) :
    ℕ → Option α → List α → List ℕ
  | least, left, [] => if least = 0 then rest left [] else []
  | least, left, c :: s =>
    (if p c then (greedy p rest (least - 1) (some c) s).map (· + 1) else [])
      ++ if least = 0 then rest left (c :: s) else []

/-- The lengths of the matches at the beginning of `s`, which stands after the character `left`. -/
def lengths : Regex α → Option α → List α → List ℕ
  | .done, _, _ => [0]
  | .behind p next, left, s => if left.any p then next.lengths left s else []
  | .ahead p next, left, s => if s.head?.any p then next.lengths left s else []
  | .char _ _, _, [] => []
  | .char p next, _, c :: s => if p c then ((next c).lengths (some c) s).map (· + 1) else []
  | .many least p next, left, s => greedy p next.lengths least left s

/-- `sub` from a place on, of which the last match still covers `skip` characters. -/
def subFrom (r : Regex α) (repl : List α → List α) : Option α → ℕ → List α → List α
  | left, _, [] => if r.lengths left [] = [] then [] else repl []
  | _, skip + 1, c :: s => subFrom r repl (some c) skip s
  | left, 0, c :: s =>
    match (r.lengths left (c :: s)).head? with
    | none => c :: subFrom r repl (some c) 0 s
    | some 0 =>
      -- An empty match is followed by one that is not, or by the next character.
      match (r.lengths left (c :: s)).find? (0 < ·) with
      | none => repl [] ++ c :: subFrom r repl (some c) 0 s
      | some n => repl [] ++ repl ((c :: s).take n) ++ subFrom r repl (some c) (n - 1) s
    | some (n + 1) => repl ((c :: s).take (n + 1)) ++ subFrom r repl (some c) n s

/-- `re.sub(r, repl, s)`. -/
def sub (r : Regex α) (repl : List α → List α) (s : List α) : List α := r.subFrom repl none 0 s

variable {r : Regex α} {repl : List α → List α} {p : α → Bool} {left : Option α}

theorem subFrom_none {c : α} {s : List α} (h : r.lengths left (c :: s) = []) :
    r.subFrom repl left 0 (c :: s) = c :: r.subFrom repl (some c) 0 s := by
  rw [subFrom, h, List.head?_nil]

theorem subFrom_some {c : α} {s : List α} {n : ℕ}
    (h : (r.lengths left (c :: s)).head? = some (n + 1)) :
    r.subFrom repl left 0 (c :: s)
      = repl ((c :: s).take (n + 1)) ++ r.subFrom repl (some c) n s := by
  rw [subFrom, h]

theorem subFrom_empty {c : α} {s : List α} (h : r.lengths left (c :: s) = [0]) :
    r.subFrom repl left 0 (c :: s) = repl [] ++ c :: r.subFrom repl (some c) 0 s := by
  rw [subFrom, h]
  rfl

theorem subFrom_skip (c : α) (s : List α) (skip : ℕ) :
    r.subFrom repl left (skip + 1) (c :: s) = r.subFrom repl (some c) skip s := by
  rw [subFrom]

/-! ## One character -/

/-- `[p]` by a text that depends on the character. -/
theorem sub_char (p : α → Bool) (repl : List α → List α) (s : List α) :
    (char p fun _ ↦ done).sub repl s = s.flatMap fun c ↦ if p c then repl [c] else [c] := by
  have hfrom : ∀ (s : List α) (left : Option α), (char p fun _ ↦ done).subFrom repl left 0 s
      = s.flatMap fun c ↦ if p c then repl [c] else [c] := by
    intro s
    induction s with
    | nil =>
      intro left
      rw [subFrom, lengths, if_pos rfl, List.flatMap_nil]
    | cons c s ih =>
      intro left
      rw [List.flatMap_cons]
      split_ifs with hc
      · rw [subFrom_some (n := 0) (by rw [lengths, if_pos hc]; rfl), ih]
        rfl
      · rw [subFrom_none (by rw [lengths, if_neg hc]), ih, List.singleton_append]
  exact hfrom s none

/-! ## A run -/

theorem lengths_done : (done : Regex α).lengths = fun _ _ ↦ [0] := by
  funext left s
  rw [lengths]

theorem head?_greedy (least : ℕ) (left : Option α) (s : List α) :
    (greedy p (fun _ _ ↦ [0]) least left s).head?
      = if least ≤ (s.takeWhile p).length then some (s.takeWhile p).length else none := by
  induction s generalizing least left with
  | nil =>
    simp only [greedy, List.takeWhile_nil, List.length_nil, Nat.le_zero]
    split_ifs <;> rfl
  | cons c s ih =>
    rw [greedy]
    by_cases hc : p c = true
    · rw [if_pos hc, List.takeWhile_cons_of_pos hc, List.length_cons, List.head?_append,
        List.head?_map, ih]
      split_ifs <;> first | rfl | omega
    · rw [if_neg hc, List.takeWhile_cons_of_neg hc, List.length_nil, List.nil_append]
      simp only [Nat.le_zero]
      split_ifs <;> rfl

/-- `[p]+` by one character. -/
theorem sub_many (p : α → Bool) (b : α) (s : List α) :
    (many 1 p done).sub (fun _ ↦ [b]) s = collapse p b false s := by
  have hfrom : ∀ (s : List α) (left : Option α),
      (many 1 p done).subFrom (fun _ ↦ [b]) left 0 s = collapse p b false s ∧
      (many 1 p done).subFrom (fun _ ↦ [b]) left (s.takeWhile p).length s
        = collapse p b true s := by
    intro s
    induction s with
    | nil =>
      intro left
      have hlengths : (many 1 p done).lengths left [] = [] := by
        rw [lengths, greedy, if_neg Nat.one_ne_zero]
      simp only [subFrom, if_pos hlengths, collapse, and_self]
    | cons c s ih =>
      intro left
      have hhead := head?_greedy (p := p) 1 left (c :: s)
      rw [← lengths_done, ← lengths] at hhead
      obtain ⟨hfirst, hskip⟩ := ih (some c)
      cases hc : p c with
      | true =>
        rw [List.takeWhile_cons_of_pos hc, List.length_cons, if_pos (Nat.le_add_left 1 _)] at hhead
        rw [List.takeWhile_cons_of_pos hc, List.length_cons, subFrom_some hhead, subFrom_skip,
          hskip, collapse_cons_of hc, collapse_cons_of hc]
        exact ⟨rfl, rfl⟩
      | false =>
        have hne : ¬p c = true := Bool.eq_false_iff.mp hc
        rw [List.takeWhile_cons_of_neg hne, List.length_nil, if_neg (Nat.not_succ_le_zero 0),
          List.head?_eq_none_iff] at hhead
        rw [List.takeWhile_cons_of_neg hne, List.length_nil, subFrom_none hhead, hfirst,
          collapse_cons_of_not hc, collapse_cons_of_not hc]
        exact ⟨rfl, rfl⟩
  exact (hfrom s none).1

/-! ## A run of one character -/

theorem length_takeWhile_beq [DecidableEq α] (c : α) (s : List α) :
    (s.takeWhile (· == c)).length = run c s := by
  induction s with
  | nil => rfl
  | cons d s ih =>
    rw [List.takeWhile_cons, run]
    by_cases h : d = c
    · rw [if_pos h, if_pos (beq_iff_eq.mpr h), List.length_cons, ih]
    · rw [if_neg h, if_neg (fun heq ↦ h (beq_iff_eq.mp heq)), List.length_nil]

/-- `([p])\1{2,}` by its first character. -/
theorem sub_repeated [DecidableEq α] (p : α → Bool) (s : List α) :
    (char p fun c ↦ many 2 (· == c) done).sub (List.take 1) s = unflood p none s := by
  have hfrom : ∀ (s : List α) (left : Option α),
      (char p fun c ↦ many 2 (· == c) done).subFrom (List.take 1) left 0 s = unflood p none s ∧
      ∀ c, (char p fun c ↦ many 2 (· == c) done).subFrom (List.take 1) left (run c s) s
        = unflood p (some c) s := by
    intro s
    induction s with
    | nil =>
      intro left
      simp only [subFrom, lengths, if_true, unflood, implies_true, and_self]
    | cons c s ih =>
      intro left
      obtain ⟨hfirst, hskip⟩ := ih (some c)
      have hhead : ((char p fun c ↦ many 2 (· == c) done).lengths left (c :: s)).head?
          = if p c ∧ 2 ≤ run c s then some (run c s + 1) else none := by
        by_cases hc : p c = true
        · rw [lengths, if_pos hc, List.head?_map, lengths, lengths_done, head?_greedy,
            length_takeWhile_beq]
          simp only [hc, true_and]
          split_ifs <;> rfl
        · rw [lengths, if_neg hc, if_neg fun h ↦ hc h.1, List.head?_nil]
      have hfresh : (char p fun c ↦ many 2 (· == c) done).subFrom (List.take 1) left 0 (c :: s)
          = unflood p none (c :: s) := by
        rw [unflood_keep (Option.some_ne_none c).symm, flooded]
        split_ifs at hhead ⊢
        · rw [subFrom_some hhead, hskip c]
          rfl
        · rw [subFrom_none (List.head?_eq_none_iff.mp hhead), hfirst]
      refine ⟨hfresh, fun d ↦ ?_⟩
      -- The rest of a match is skipped; where it is over, the scanner has nothing left out either.
      by_cases hd : c = d
      · subst hd
        rw [run_cons_self, subFrom_skip, hskip, unflood_skip]
      · rw [run_cons_of_ne hd, hfresh]
        exact (unflood_cons_congr (fun heq ↦ hd (Option.some_inj.mp heq).symm) s).symm
  exact (hfrom s none).1

/-! ## Between two characters -/

section Between

variable {letter punct : α → Bool}

theorem lengths_ahead_done : (ahead letter done : Regex α).lengths
    = fun _ s ↦ if s.head?.any letter then [0] else [] := by
  funext left s
  rw [lengths, lengths]

/-- A run that must end before a letter is matched as a whole, because there is no letter in it. -/
theorem head?_greedy_ahead (h : ∀ c, letter c = true → punct c = false) (least : ℕ)
    (left : Option α) (s : List α) :
    (greedy punct (ahead letter done).lengths least left s).head?
      = if least ≤ (s.takeWhile punct).length ∧ nextIs punct letter s then
          some (s.takeWhile punct).length
        else none := by
  rw [lengths_ahead_done]
  induction s generalizing least left with
  | nil =>
    have hnext : ¬(least ≤ ([] : List α).length ∧ nextIs punct letter [] = true) := by
      rintro ⟨-, hnext⟩
      cases hnext
    rw [greedy, List.takeWhile_nil, if_neg hnext, List.head?_nil, Option.any_none,
      if_neg Bool.false_ne_true, ite_self, List.head?_nil]
  | cons c s ih =>
    cases hc : punct c with
    | true =>
      -- The engine may not stop here, so it takes the rest of the run or nothing.
      have hletter : ¬(c :: s).head?.any letter = true := by
        intro hany
        rw [h c hany] at hc
        cases hc
      rw [greedy, if_pos hc, if_neg hletter, ite_self, List.append_nil, List.head?_map, ih,
        List.takeWhile_cons_of_pos hc, List.length_cons, nextIs_cons_of hc]
      by_cases hnext : nextIs punct letter s = true
      · simp only [hnext, and_true]
        split_ifs <;> first | rfl | omega
      · simp only [hnext, and_false, if_false, Option.map_none, Bool.false_eq_true]
    | false =>
      have hne : ¬punct c = true := Bool.eq_false_iff.mp hc
      rw [greedy, if_neg hne, List.nil_append, List.takeWhile_cons_of_neg hne, List.length_nil,
        nextIs_cons_of_not hc, List.head?_cons, Option.any_some]
      simp only [Nat.le_zero]
      by_cases hleast : least = 0
      · simp only [hleast, if_true, true_and]
        split_ifs <;> rfl
      · simp only [hleast, if_false, false_and, List.head?_nil]

/-- `(?<=[letter])[punct]+(?=[letter])` deleted. -/
theorem sub_between (h : ∀ c, letter c = true → punct c = false) (s : List α) :
    (behind letter (many 1 punct (ahead letter done))).sub (fun _ ↦ []) s
      = unpunctuate letter punct false s := by
  set r : Regex α := behind letter (many 1 punct (ahead letter done)) with hr
  have hlengths : ∀ (left : Option α) (s : List α), (r.lengths left s).head?
      = if left.any letter ∧ 1 ≤ (s.takeWhile punct).length ∧ nextIs punct letter s then
          some (s.takeWhile punct).length
        else none := by
    intro left s
    rw [hr, lengths, lengths]
    by_cases hleft : left.any letter = true
    · simp only [hleft, if_true, true_and]
      exact head?_greedy_ahead h 1 left s
    · rw [if_neg hleft, if_neg fun hall ↦ hleft hall.1, List.head?_nil]
  -- In a run that stays, the engine looks behind at punctuation; the scanner still knows what was
  -- before it, but then no letter follows.
  have hfrom : ∀ (s : List α) (left : Option α),
      (∀ b, left.any letter = b ∨ (left.any letter = false ∧ nextIs punct letter s = false) →
        r.subFrom (fun _ ↦ []) left 0 s = unpunctuate letter punct b s) ∧
      (nextIs punct letter s = true → r.subFrom (fun _ ↦ []) left (s.takeWhile punct).length s
        = unpunctuate letter punct true s) := by
    intro s
    induction s with
    | nil =>
      intro left
      simp only [subFrom, ite_self, unpunctuate, implies_true, and_self]
    | cons c s ih =>
      intro left
      obtain ⟨hfirst, hskip⟩ := ih (some c)
      have hhead := hlengths left (c :: s)
      cases hc : punct c with
      | true =>
        rw [List.takeWhile_cons_of_pos hc, List.length_cons, nextIs_cons_of hc] at hhead ⊢
        constructor
        · intro b hb
          rw [unpunctuate_cons_of hc]
          by_cases hgo : left.any letter = true ∧ nextIs punct letter s = true
          · obtain ⟨hleft, hnext⟩ := hgo
            rw [hleft, hnext] at hb
            obtain rfl : true = b := hb.resolve_right fun hfalse ↦ by cases hfalse.1
            rw [if_pos ⟨hleft, Nat.le_add_left 1 _, hnext⟩] at hhead
            rw [subFrom_some hhead, hskip hnext, hnext, Bool.and_true, if_pos rfl]
          · have hstay : (b && nextIs punct letter s) = false := by
              rcases hb with rfl | ⟨-, hnext⟩
              · rw [← Bool.not_eq_true, Bool.and_eq_true]
                exact hgo
              · rw [hnext, Bool.and_false]
            have hletter : letter c = false := by
              rw [← Bool.not_eq_true]
              intro hletter
              rw [h c hletter] at hc
              cases hc
            rw [if_neg fun hall ↦ hgo ⟨hall.1, hall.2.2⟩, List.head?_eq_none_iff] at hhead
            rw [subFrom_none hhead, hstay, if_neg Bool.false_ne_true, List.singleton_append]
            congr 1
            refine hfirst b ?_
            rw [Option.any_some, hletter]
            cases b with
            | false => exact .inl rfl
            | true => exact .inr ⟨rfl, hstay⟩
        · intro hnext
          rw [subFrom_skip, hskip hnext, unpunctuate_cons_of hc, hnext, Bool.and_true, if_pos rfl,
            List.nil_append]
      | false =>
        have hne : ¬punct c = true := Bool.eq_false_iff.mp hc
        rw [List.takeWhile_cons_of_neg hne, List.length_nil,
          if_neg fun hall ↦ Nat.not_succ_le_zero 0 hall.2.1, List.head?_eq_none_iff] at hhead
        rw [List.takeWhile_cons_of_neg hne, List.length_nil, subFrom_none hhead,
          hfirst (letter c) (.inl (Option.any_some ..))]
        simp only [unpunctuate_cons_of_not hc, implies_true, and_self]
  exact (hfrom s none).1 false (.inl rfl)

/-- Something inserted at `(?<=[p])(?=[q])`. -/
theorem sub_empty (p q : α → Bool) (w s : List α) :
    (behind p (ahead q done)).sub (fun _ ↦ w) s = interpose p q w none s := by
  have hfrom : ∀ (s : List α) (left : Option α),
      (behind p (ahead q done)).subFrom (fun _ ↦ w) left 0 s = interpose p q w left s := by
    intro s
    induction s with
    | nil =>
      intro left
      have hlengths : (behind p (ahead q done)).lengths left [] = [] := by
        rw [lengths, lengths, List.head?_nil, Option.any_none, if_neg Bool.false_ne_true, ite_self]
      rw [subFrom, if_pos hlengths, interpose]
    | cons c s ih =>
      intro left
      rw [interpose]
      have hlengths : (behind p (ahead q done)).lengths left (c :: s)
          = if left.any p && q c then [0] else [] := by
        rw [lengths, lengths, lengths, List.head?_cons, Option.any_some]
        cases left.any p <;> rfl
      split_ifs at hlengths ⊢
      · rw [subFrom_empty hlengths, ih]
      · rw [subFrom_none hlengths, ih, List.nil_append]
  exact hfrom s none

end Between

end Regex

end Text
