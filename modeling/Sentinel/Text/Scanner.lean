import Mathlib.Data.List.Basic
import Mathlib.Tactic.SplitIfs

/-!
# Scanners

Passes over a text, each written as one walk from left to right. Three of them delete or merge
characters: `collapse` writes one character for a run, `unflood` keeps one character of a long run
of equal ones, and `unpunctuate` deletes the punctuation between two letters; `interpose` goes the
other way and inserts something between two letters. What a deleting pass does
with a character depends on what is around it, so a pass does not commute with `++`. It does where
the text is cut at a place that the pass cannot see across, and these are the cuts of this file:
after a character outside the runs, between two different characters, after a character that is
not punctuation. Each scanner has the cut in both directions, for a text that is put together and
for an output that is taken apart.
-/

namespace Text

variable {α : Type*}

/-! ## Merging a run -/

/-- Write `b` in place of each run of characters in `p`; `inRun` tells whether the last character
was in the run. -/
def collapse (p : α → Bool) (b : α) : Bool → List α → List α
  | _, [] => []
  | inRun, c :: s =>
    if p c then (if inRun then [] else [b]) ++ collapse p b true s else c :: collapse p b false s

section Collapse

variable {p : α → Bool} {b : α}

theorem collapse_cons_of_not {c : α} (hc : p c = false) (inRun : Bool) (s : List α) :
    collapse p b inRun (c :: s) = c :: collapse p b false s := by
  rw [collapse, if_neg (Bool.eq_false_iff.mp hc)]

theorem collapse_cons_of {c : α} (hc : p c = true) (inRun : Bool) (s : List α) :
    collapse p b inRun (c :: s) = (if inRun then [] else [b]) ++ collapse p b true s := by
  rw [collapse, if_pos hc]

theorem collapse_append {c : α} (hc : p c = false) (inRun : Bool) (s t : List α) :
    collapse p b inRun (s ++ c :: t)
      = collapse p b inRun (s ++ [c]) ++ collapse p b false t := by
  induction s generalizing inRun with
  | nil => rw [List.nil_append, List.nil_append, collapse_cons_of_not hc, collapse_cons_of_not hc,
      collapse, List.singleton_append]
  | cons d s ih =>
    cases hd : p d with
    | true =>
      rw [List.cons_append, List.cons_append, collapse_cons_of hd, collapse_cons_of hd, ih,
        List.append_assoc]
    | false =>
      rw [List.cons_append, List.cons_append, collapse_cons_of_not hd, collapse_cons_of_not hd, ih,
        List.cons_append]

theorem collapse_append_cons {c : α} (hc : p c = false) (inRun : Bool) (s t : List α) :
    collapse p b inRun (s ++ c :: t) = collapse p b inRun s ++ c :: collapse p b false t := by
  induction s generalizing inRun with
  | nil => rw [List.nil_append, collapse_cons_of_not hc, collapse, List.nil_append]
  | cons d s ih =>
    cases hd : p d with
    | true =>
      rw [List.cons_append, collapse_cons_of hd, collapse_cons_of hd, ih, List.append_assoc]
    | false =>
      rw [List.cons_append, collapse_cons_of_not hd, collapse_cons_of_not hd, ih, List.cons_append]

theorem collapse_true_append {s : List α} (hs : ∀ c ∈ s, p c = true) (t : List α) :
    collapse p b true (s ++ t) = collapse p b true t := by
  induction s with
  | nil => rfl
  | cons c s ih =>
    rw [List.cons_append, collapse_cons_of (hs c List.mem_cons_self), if_pos rfl, List.nil_append,
      ih fun d hd ↦ hs d (List.mem_cons_of_mem c hd)]

theorem collapse_false_append {s : List α} (hs : ∀ c ∈ s, p c = true) (hne : s ≠ [])
    (t : List α) : collapse p b false (s ++ t) = b :: collapse p b true t := by
  cases s with
  | nil => exact absurd rfl hne
  | cons c s =>
    rw [List.cons_append, collapse_cons_of (hs c List.mem_cons_self), if_neg Bool.false_ne_true,
      collapse_true_append (fun d hd ↦ hs d (List.mem_cons_of_mem c hd)), List.singleton_append]

theorem collapse_eq_append (hb : p b = true) {c : α} (hc : p c = false) {inRun : Bool}
    {s X Z : List α} (h : collapse p b inRun s = X ++ c :: Z) :
    ∃ x z, s = x ++ c :: z ∧ collapse p b inRun (x ++ [c]) = X ++ [c] ∧
      collapse p b false z = Z := by
  induction s generalizing inRun X with
  | nil => simp [collapse] at h
  | cons d s ih =>
    cases hd : p d with
    | true =>
      rw [collapse_cons_of hd] at h
      have hrest : ∃ Y, collapse p b true s = Y ++ c :: Z ∧
          X = (if inRun then [] else [b]) ++ Y := by
        cases inRun with
        | true => exact ⟨X, h, rfl⟩
        | false =>
          cases X with
          | nil =>
            rw [if_neg Bool.false_ne_true, List.singleton_append, List.nil_append] at h
            rw [(List.cons.inj h).1, hc] at hb
            cases hb
          | cons e Y =>
            rw [if_neg Bool.false_ne_true, List.singleton_append, List.cons_append] at h
            obtain ⟨rfl, hY⟩ := List.cons.inj h
            exact ⟨Y, hY, rfl⟩
      obtain ⟨Y, hY, rfl⟩ := hrest
      obtain ⟨x, z, rfl, hx, hz⟩ := ih hY
      refine ⟨d :: x, z, rfl, ?_, hz⟩
      rw [List.cons_append, collapse_cons_of hd, hx, List.append_assoc]
    | false =>
      rw [collapse_cons_of_not hd] at h
      cases X with
      | nil =>
        obtain ⟨rfl, hZ⟩ := List.cons.inj h
        exact ⟨[], s, rfl, by rw [List.nil_append, collapse_cons_of_not hd, collapse], hZ⟩
      | cons e X =>
        obtain ⟨rfl, hX⟩ := List.cons.inj h
        obtain ⟨x, z, rfl, hx, hz⟩ := ih hX
        refine ⟨d :: x, z, rfl, ?_, hz⟩
        rw [List.cons_append, collapse_cons_of_not hd, hx, List.cons_append]

theorem collapse_true_eq_cons {d : α} (hd : p d = false) {s Z : List α}
    (h : collapse p b true s = d :: Z) :
    ∃ run z, (∀ c ∈ run, p c = true) ∧ s = run ++ d :: z ∧ collapse p b false z = Z := by
  induction s with
  | nil => cases h
  | cons c s ih =>
    cases hc : p c with
    | true =>
      rw [collapse_cons_of hc, if_pos rfl, List.nil_append] at h
      obtain ⟨run, z, hrun, rfl, hz⟩ := ih h
      exact ⟨c :: run, z, List.forall_mem_cons.mpr ⟨hc, hrun⟩, rfl, hz⟩
    | false =>
      rw [collapse_cons_of_not hc] at h
      obtain ⟨rfl, hZ⟩ := List.cons.inj h
      exact ⟨[], s, fun e he ↦ absurd he List.not_mem_nil, rfl, hZ⟩

/-- What is written for a run comes from a run. -/
theorem collapse_eq_blank_cons {d : α} (hb : p b = true) (hd : p d = false) {s Z : List α}
    (h : collapse p b false s = b :: d :: Z) :
    ∃ run z, run ≠ [] ∧ (∀ c ∈ run, p c = true) ∧ s = run ++ d :: z ∧
      collapse p b false z = Z := by
  cases s with
  | nil => cases h
  | cons c s =>
    cases hc : p c with
    | true =>
      rw [collapse_cons_of hc, if_neg Bool.false_ne_true, List.singleton_append] at h
      obtain ⟨run, z, hrun, rfl, hz⟩ := collapse_true_eq_cons hd (List.cons.inj h).2
      exact ⟨c :: run, z, List.cons_ne_nil c run, List.forall_mem_cons.mpr ⟨hc, hrun⟩, rfl, hz⟩
    | false =>
      rw [collapse_cons_of_not hc] at h
      rw [← (List.cons.inj h).1, hc] at hb
      cases hb

theorem collapse_eq_cons {d : α} (hb : p b = true) (hd : p d = false) {s Z : List α}
    (h : collapse p b false s = d :: Z) : ∃ z, s = d :: z ∧ collapse p b false z = Z := by
  cases s with
  | nil => cases h
  | cons c s =>
    cases hc : p c with
    | true =>
      rw [collapse_cons_of hc, if_neg Bool.false_ne_true, List.singleton_append] at h
      rw [(List.cons.inj h).1, hd] at hb
      cases hb
    | false =>
      rw [collapse_cons_of_not hc] at h
      obtain ⟨rfl, hZ⟩ := List.cons.inj h
      exact ⟨s, rfl, hZ⟩

theorem eq_nil_of_collapse {s : List α} (h : collapse p b false s = []) : s = [] := by
  cases s with
  | nil => rfl
  | cons c s =>
    cases hc : p c with
    | true =>
      rw [collapse_cons_of hc] at h
      cases h
    | false =>
      rw [collapse_cons_of_not hc] at h
      cases h

end Collapse

/-! ## Long runs of one character -/

section Unflood

variable [DecidableEq α]

/-- How often `c` stands at the beginning of `s`. -/
def run (c : α) : List α → ℕ
  | [] => 0
  | d :: s => if d = c then run c s + 1 else 0

/-- Keep one character of each run of at least three equal characters in `p`; `flood` is the
character that is being left out. -/
def unflood (p : α → Bool) : Option α → List α → List α
  | _, [] => []
  | flood, c :: s =>
    if flood = some c then unflood p flood s
    else c :: unflood p (if p c ∧ 2 ≤ run c s then some c else none) s

variable {p : α → Bool}

theorem run_cons_self (c : α) (s : List α) : run c (c :: s) = run c s + 1 := by
  rw [run, if_pos rfl]

theorem run_cons_of_ne {c d : α} (h : d ≠ c) (s : List α) : run c (d :: s) = 0 := by
  rw [run, if_neg h]

theorem run_replicate_append (c : α) (n : ℕ) (s : List α) :
    run c (List.replicate n c ++ s) = n + run c s := by
  induction n with
  | zero => rw [List.replicate_zero, List.nil_append, Nat.zero_add]
  | succ n ih => rw [List.replicate_succ, List.cons_append, run_cons_self, ih, Nat.succ_add]

theorem run_cut {c d : α} (h : c ≠ d) (e : α) (s t : List α) :
    run e (s ++ c :: d :: t) = run e (s ++ [c]) := by
  induction s with
  | nil =>
    by_cases hc : c = e
    · subst hc
      rw [List.nil_append, List.nil_append, run_cons_self, run_cons_of_ne h.symm, run_cons_self,
        run]
    · rw [List.nil_append, List.nil_append, run_cons_of_ne hc, run_cons_of_ne hc]
  | cons f s ih =>
    by_cases hf : f = e
    · subst hf
      rw [List.cons_append, List.cons_append, run_cons_self, run_cons_self, ih]
    · rw [List.cons_append, List.cons_append, run_cons_of_ne hf, run_cons_of_ne hf]

/-- The state of `unflood` after it has kept `c`. -/
def flooded (p : α → Bool) (c : α) (s : List α) : Option α :=
  if p c ∧ 2 ≤ run c s then some c else none

theorem unflood_skip (c : α) (s : List α) :
    unflood p (some c) (c :: s) = unflood p (some c) s := by
  rw [unflood, if_pos rfl]

theorem unflood_keep {flood : Option α} {c : α} (h : flood ≠ some c) (s : List α) :
    unflood p flood (c :: s) = c :: unflood p (flooded p c s) s := by
  rw [unflood, if_neg h, flooded]

theorem eq_of_flooded {c d : α} {s : List α} (h : flooded p c s = some d) : c = d := by
  rw [flooded] at h
  split_ifs at h
  exact Option.some_inj.mp h

theorem flooded_ne {c d : α} (h : c ≠ d) (s : List α) : flooded p c s ≠ some d :=
  fun heq ↦ h (eq_of_flooded heq)

theorem flooded_cut {c d : α} (h : c ≠ d) (e : α) (s t : List α) :
    flooded p e (s ++ c :: d :: t) = flooded p e (s ++ [c]) := by
  rw [flooded, flooded, run_cut h]

/-- What is left out of a run does not matter to a text that begins with another character. -/
theorem unflood_cons_congr {flood : Option α} {c : α} (h : flood ≠ some c) (s : List α) :
    unflood p flood (c :: s) = unflood p none (c :: s) := by
  rw [unflood_keep h, unflood_keep (Option.some_ne_none c).symm]

theorem unflood_append {c d : α} (h : c ≠ d) (flood : Option α) (s t : List α) :
    unflood p flood (s ++ c :: d :: t)
      = unflood p flood (s ++ [c]) ++ unflood p none (d :: t) := by
  induction s generalizing flood with
  | nil =>
    rw [List.nil_append, List.nil_append]
    by_cases hflood : flood = some c
    · subst hflood
      rw [unflood_skip, unflood_skip, unflood, List.nil_append]
      exact unflood_cons_congr (fun heq ↦ h (Option.some_inj.mp heq)) t
    · rw [unflood_keep hflood, unflood_keep hflood, unflood, List.singleton_append,
        unflood_cons_congr (flooded_ne h _)]
  | cons e s ih =>
    rw [List.cons_append, List.cons_append]
    by_cases hflood : flood = some e
    · subst hflood
      rw [unflood_skip, unflood_skip, ih]
    · rw [unflood_keep hflood, unflood_keep hflood, flooded_cut h, ih, List.cons_append]

/-- The last character is kept, unless all of them are left out. -/
theorem unflood_concat (flood : Option α) (s : List α) (c : α) :
    (∃ X, unflood p flood (s ++ [c]) = X ++ [c]) ∨
      flood = some c ∧ unflood p flood (s ++ [c]) = [] := by
  induction s generalizing flood with
  | nil =>
    by_cases hflood : flood = some c
    · subst hflood
      exact .inr ⟨rfl, unflood_skip c []⟩
    · exact .inl ⟨[], unflood_keep hflood []⟩
  | cons d s ih =>
    rw [List.cons_append]
    by_cases hflood : flood = some d
    · subst hflood
      rw [unflood_skip]
      exact ih (some d)
    · rw [unflood_keep hflood]
      rcases ih (flooded p d (s ++ [c])) with ⟨X, hX⟩ | ⟨hfl, hnil⟩
      · exact .inl ⟨d :: X, by rw [hX, List.cons_append]⟩
      · obtain rfl := eq_of_flooded hfl
        exact .inl ⟨[], by rw [hnil, List.nil_append]⟩

theorem of_mem_unflood {flood : Option α} {s : List α} {c : α} (h : c ∈ unflood p flood s) :
    c ∈ s := by
  induction s generalizing flood with
  | nil => exact h
  | cons d s ih =>
    by_cases hflood : flood = some d
    · subst hflood
      rw [unflood_skip] at h
      exact List.mem_cons_of_mem d (ih h)
    · rw [unflood_keep hflood] at h
      rcases List.mem_cons.mp h with rfl | h
      · exact List.mem_cons_self
      · exact List.mem_cons_of_mem d (ih h)

theorem mem_unflood {flood : Option α} {s : List α} {c : α} (h : c ∈ s) :
    c ∈ unflood p flood s ∨ flood = some c := by
  induction s generalizing flood with
  | nil => exact absurd h List.not_mem_nil
  | cons d s ih =>
    by_cases hflood : flood = some d
    · subst hflood
      rw [unflood_skip]
      rcases List.mem_cons.mp h with rfl | h
      · exact .inr rfl
      · exact ih h
    · rw [unflood_keep hflood]
      rcases List.mem_cons.mp h with rfl | h
      · exact .inl List.mem_cons_self
      · have hrest : c ∈ unflood p (flooded p d s) s ∨ flooded p d s = some c := ih h
        rcases hrest with hmem | hfl
        · exact .inl (List.mem_cons_of_mem d hmem)
        · exact .inl (eq_of_flooded hfl ▸ List.mem_cons_self)

theorem run_replicate (c : α) (n : ℕ) : run c (List.replicate n c) = n := by
  rw [← List.append_nil (List.replicate n c), run_replicate_append, run, Nat.add_zero]

theorem unflood_skip_replicate (c : α) (n : ℕ) (s : List α) :
    unflood p (some c) (List.replicate n c ++ s) = unflood p (some c) s := by
  induction n with
  | zero => rfl
  | succ n ih => rw [List.replicate_succ, List.cons_append, unflood_skip, ih]

/-- Only copies of the character that is being left out are left out. -/
theorem unflood_eq_cons {flood : Option α} {s Z : List α} {d : α}
    (h : unflood p flood s = d :: Z) :
    ∃ n t, s = flood.elim [] (List.replicate n) ++ d :: t ∧ flood ≠ some d ∧
      unflood p (flooded p d t) t = Z := by
  induction s with
  | nil => cases h
  | cons c s ih =>
    by_cases hflood : flood = some c
    · subst hflood
      rw [unflood_skip] at h
      obtain ⟨n, t, rfl, hd, ht⟩ := ih h
      refine ⟨n + 1, t, ?_, hd, ht⟩
      rw [Option.elim, Option.elim, List.replicate_succ, List.cons_append]
    · rw [unflood_keep hflood] at h
      obtain ⟨rfl, hZ⟩ := List.cons.inj h
      refine ⟨0, s, ?_, hflood, hZ⟩
      cases flood <;> rfl

/-- An output is taken apart between two different characters. -/
theorem unflood_eq_append {c d : α} (h : c ≠ d) {flood : Option α} {s X Z : List α}
    (hs : unflood p flood s = X ++ c :: d :: Z) :
    ∃ x z, s = x ++ c :: d :: z ∧ unflood p flood (x ++ [c]) = X ++ [c] ∧
      unflood p none (d :: z) = d :: Z := by
  induction s generalizing flood X with
  | nil => simp [unflood] at hs
  | cons e s ih =>
    by_cases hflood : flood = some e
    · subst hflood
      rw [unflood_skip] at hs
      obtain ⟨x, z, rfl, hx, hz⟩ := ih hs
      exact ⟨e :: x, z, rfl, by rw [List.cons_append, unflood_skip, hx], hz⟩
    · rw [unflood_keep hflood] at hs
      cases X with
      | nil =>
        obtain ⟨rfl, hZ⟩ := List.cons.inj hs
        obtain ⟨n, t, hst, -, ht⟩ := unflood_eq_cons hZ
        have hd : unflood p none (d :: t) = d :: Z := by
          rw [unflood_keep (Option.some_ne_none d).symm, ht]
        cases hf : flooded p e s with
        | none =>
          rw [hf, Option.elim, List.nil_append] at hst
          refine ⟨[], t, by rw [hst, List.nil_append], ?_, hd⟩
          rw [List.nil_append, unflood_keep hflood, unflood]
        | some e' =>
          obtain rfl := eq_of_flooded hf
          rw [hf, Option.elim] at hst
          -- The copies that were left out go to the first part, so that `d` begins the second.
          have hrun : run e s = run e (List.replicate n e) := by
            rw [hst, run_replicate_append, run_cons_of_ne h.symm, run_replicate, Nat.add_zero]
          have hreplicate : List.replicate n e ++ [e] = e :: List.replicate n e := by
            rw [← List.replicate_succ', List.replicate_succ]
          refine ⟨List.replicate n e, t, ?_, ?_, hd⟩
          · rw [hst, ← List.cons_append, ← hreplicate, List.append_assoc, List.singleton_append]
          · rw [hreplicate, unflood_keep hflood, flooded, ← hrun, ← flooded, hf,
              ← List.append_nil (List.replicate n e), unflood_skip_replicate, unflood,
              List.nil_append]
      | cons f X =>
        obtain ⟨rfl, hX⟩ := List.cons.inj hs
        obtain ⟨x, z, rfl, hx, hz⟩ := ih hX
        refine ⟨e :: x, z, rfl, ?_, hz⟩
        rw [List.cons_append, unflood_keep hflood, ← flooded_cut h, hx, List.cons_append]

theorem unflood_eq_append_run {c d : α} {run : List α} (hne : run ≠ []) (hc : c ∉ run)
    (hd : d ∉ run) {s X Z : List α} (hs : unflood p none s = X ++ c :: (run ++ d :: Z)) :
    ∃ x run' z, s = x ++ c :: (run' ++ d :: z) ∧ unflood p none (x ++ [c]) = X ++ [c] ∧
      unflood p none run' = run ∧ unflood p none (d :: z) = d :: Z := by
  obtain ⟨first, rest, rfl⟩ := List.exists_cons_of_ne_nil hne
  obtain ⟨front, last, hlast⟩ := (List.eq_nil_or_concat' (first :: rest)).resolve_left hne
  have hcfirst : c ≠ first := fun heq ↦ hc (heq ▸ List.mem_cons_self)
  have hdlast : last ≠ d := fun heq ↦
    hd (hlast ▸ heq ▸ List.mem_append_right front List.mem_cons_self)
  obtain ⟨x, z₁, rfl, hx, hz₁⟩ := unflood_eq_append hcfirst hs
  have hsplit : unflood p none (first :: z₁) = front ++ last :: d :: Z := by
    rw [hz₁]
    change (first :: rest) ++ d :: Z = front ++ last :: d :: Z
    rw [hlast, List.append_assoc, List.singleton_append]
  obtain ⟨x₁, z, heq, hx₁, hz⟩ := unflood_eq_append hdlast hsplit
  refine ⟨x, x₁ ++ [last], z, ?_, hx, hx₁.trans hlast.symm, hz⟩
  rw [heq, List.append_assoc, List.singleton_append]

theorem run_eq_zero {c : α} {s : List α} : run c s = 0 ↔ s.head? ≠ some c := by
  cases s with
  | nil => simp [run]
  | cons d s =>
    by_cases h : d = c
    · subst h
      simp [run_cons_self]
    · simp [run_cons_of_ne h, h]

theorem unflood_eq_nil {c : α} {s : List α} (h : unflood p (some c) s = []) :
    ∃ n, s = List.replicate n c := by
  induction s with
  | nil => exact ⟨0, rfl⟩
  | cons d s ih =>
    by_cases hd : some c = some d
    · obtain rfl := Option.some_inj.mp hd
      rw [unflood_skip] at h
      obtain ⟨n, rfl⟩ := ih h
      exact ⟨n + 1, rfl⟩
    · rw [unflood_keep hd] at h
      cases h

theorem unflood_eq_singleton {c : α} (hc : p c = true) {s : List α} :
    unflood p none s = [c] ↔ ∃ n, s = List.replicate n c ∧ (n = 1 ∨ 3 ≤ n) := by
  constructor
  · intro h
    cases s with
    | nil => cases h
    | cons d s =>
      rw [unflood_keep (Option.some_ne_none d).symm] at h
      obtain ⟨rfl, hs⟩ := List.cons.inj h
      cases hf : flooded p d s with
      | none =>
        cases s with
        | nil => exact ⟨1, rfl, .inl rfl⟩
        | cons e s =>
          rw [hf, unflood_keep (Option.some_ne_none e).symm] at hs
          cases hs
      | some e =>
        obtain rfl := eq_of_flooded hf
        rw [hf] at hs
        obtain ⟨n, rfl⟩ := unflood_eq_nil hs
        rw [flooded] at hf
        split_ifs at hf with hlong
        rw [run_replicate] at hlong
        exact ⟨n + 1, rfl, .inr (Nat.succ_le_succ hlong.2)⟩
  · rintro ⟨n, rfl, hn⟩
    obtain ⟨m, rfl⟩ : ∃ m, n = m + 1 := ⟨n - 1, by omega⟩
    have hrun : run c (List.replicate m c) = m := by
      rw [← List.append_nil (List.replicate m c), run_replicate_append, run, Nat.add_zero]
    rw [List.replicate_succ, unflood_keep (Option.some_ne_none c).symm, flooded, hrun]
    rcases hn with hn | hn
    · obtain rfl : m = 0 := Nat.succ.inj hn
      rfl
    · rw [if_pos ⟨hc, Nat.le_of_succ_le_succ hn⟩, ← List.append_nil (List.replicate m c),
        unflood_skip_replicate, unflood]

theorem unflood_pair {c : α} {s : List α} (h : s.head? ≠ some c) :
    unflood p none (c :: c :: s) = c :: c :: unflood p none s := by
  have hrun : ∀ t, run c t < 2 → flooded p c t = none := fun t ht ↦
    if_neg fun hlong ↦ absurd hlong.2 (Nat.not_le_of_lt ht)
  have hzero := run_eq_zero.mpr h
  rw [unflood_keep (Option.some_ne_none c).symm,
    hrun _ (by rw [run_cons_self, hzero]; exact Nat.one_lt_two),
    unflood_keep (Option.some_ne_none c).symm, hrun _ (by rw [hzero]; exact Nat.two_pos)]

theorem unflood_eq_pair {c : α} (hc : p c = true) {s Z : List α}
    (h : unflood p none s = c :: c :: Z) : ∃ t, s = c :: c :: t ∧ t.head? ≠ some c := by
  cases s with
  | nil => cases h
  | cons d s =>
    rw [unflood_keep (Option.some_ne_none d).symm] at h
    obtain ⟨rfl, hs⟩ := List.cons.inj h
    obtain ⟨n, t, hst, hne, -⟩ := unflood_eq_cons hs
    have hnone : flooded p d s = none := by
      cases hf : flooded p d s with
      | none => rfl
      | some e => exact absurd (eq_of_flooded hf ▸ hf) hne
    rw [hnone, Option.elim, List.nil_append] at hst
    subst hst
    refine ⟨t, rfl, run_eq_zero.mp ?_⟩
    rw [flooded, run_cons_self] at hnone
    split_ifs at hnone with hlong
    have hshort : ¬2 ≤ run d t + 1 := fun hle ↦ hlong ⟨hc, hle⟩
    omega

end Unflood

/-! ## Punctuation between letters -/

/-- The first character of `s` outside `skip` is in `p`. -/
def nextIs (skip p : α → Bool) (s : List α) : Bool := (s.dropWhile skip).head?.any p

/-- Delete the punctuation that has a letter on both sides; `left` tells whether the last character
that is not punctuation was a letter. -/
def unpunctuate (letter punct : α → Bool) : Bool → List α → List α
  | _, [] => []
  | left, c :: s =>
    if punct c then
      if left && nextIs punct letter s then unpunctuate letter punct left s
      else c :: unpunctuate letter punct left s
    else c :: unpunctuate letter punct (letter c) s

section Unpunctuate

variable {skip p letter punct : α → Bool}

theorem nextIs_cons_of {c : α} (hc : skip c = true) (s : List α) :
    nextIs skip p (c :: s) = nextIs skip p s := by
  rw [nextIs, nextIs, List.dropWhile_cons_of_pos hc]

theorem nextIs_cons_of_not {c : α} (hc : skip c = false) (s : List α) :
    nextIs skip p (c :: s) = p c := by
  rw [nextIs, List.dropWhile_cons_of_neg (Bool.eq_false_iff.mp hc), List.head?_cons,
    Option.any_some]

theorem nextIs_append {s : List α} (hs : ∀ c ∈ s, skip c = true) (t : List α) :
    nextIs skip p (s ++ t) = nextIs skip p t := by
  induction s with
  | nil => rfl
  | cons c s ih =>
    rw [List.cons_append, nextIs_cons_of (hs c List.mem_cons_self),
      ih fun d hd ↦ hs d (List.mem_cons_of_mem c hd)]

theorem nextIs_cut {c : α} (hc : skip c = false) (s t : List α) :
    nextIs skip p (s ++ c :: t) = nextIs skip p (s ++ [c]) := by
  induction s with
  | nil => rw [List.nil_append, List.nil_append, nextIs_cons_of_not hc, nextIs_cons_of_not hc]
  | cons d s ih =>
    cases hd : skip d with
    | true => rw [List.cons_append, List.cons_append, nextIs_cons_of hd, nextIs_cons_of hd, ih]
    | false => rw [List.cons_append, List.cons_append, nextIs_cons_of_not hd, nextIs_cons_of_not hd]

theorem unpunctuate_cons_of_not {c : α} (hc : punct c = false) (left : Bool) (s : List α) :
    unpunctuate letter punct left (c :: s) = c :: unpunctuate letter punct (letter c) s := by
  rw [unpunctuate, if_neg (Bool.eq_false_iff.mp hc)]

theorem unpunctuate_cons_of {c : α} (hc : punct c = true) (left : Bool) (s : List α) :
    unpunctuate letter punct left (c :: s)
      = (if left && nextIs punct letter s then [] else [c])
        ++ unpunctuate letter punct left s := by
  rw [unpunctuate, if_pos hc]
  split_ifs <;> rfl

/-- The cut after a character that is not punctuation. -/
theorem unpunctuate_append {c : α} (hc : punct c = false) (left : Bool) (s t : List α) :
    unpunctuate letter punct left (s ++ c :: t)
      = unpunctuate letter punct left (s ++ [c]) ++ unpunctuate letter punct (letter c) t := by
  induction s generalizing left with
  | nil =>
    rw [List.nil_append, List.nil_append, unpunctuate_cons_of_not hc, unpunctuate_cons_of_not hc,
      unpunctuate, List.singleton_append]
  | cons d s ih =>
    rw [List.cons_append, List.cons_append]
    cases hd : punct d with
    | true =>
      rw [unpunctuate_cons_of hd, unpunctuate_cons_of hd, nextIs_cut hc, ih, List.append_assoc]
    | false =>
      rw [unpunctuate_cons_of_not hd, unpunctuate_cons_of_not hd, ih, List.cons_append]

theorem unpunctuate_concat {c : α} (hc : punct c = false) (left : Bool) (s : List α) :
    ∃ X, unpunctuate letter punct left (s ++ [c]) = X ++ [c] := by
  induction s generalizing left with
  | nil => exact ⟨[], by rw [List.nil_append, unpunctuate_cons_of_not hc, unpunctuate]⟩
  | cons d s ih =>
    cases hd : punct d with
    | true =>
      obtain ⟨X, hX⟩ := ih left
      exact ⟨(if left && nextIs punct letter (s ++ [c]) then [] else [d]) ++ X, by
        rw [List.cons_append, unpunctuate_cons_of hd, hX, List.append_assoc]⟩
    | false =>
      obtain ⟨X, hX⟩ := ih (letter d)
      exact ⟨d :: X, by rw [List.cons_append, unpunctuate_cons_of_not hd, hX, List.cons_append]⟩

theorem unpunctuate_append_of_not {s : List α} (hs : ∀ c ∈ s, punct c = false) {c : α}
    (hc : punct c = false) (left : Bool) (t : List α) :
    unpunctuate letter punct left (s ++ c :: t)
      = s ++ c :: unpunctuate letter punct (letter c) t := by
  induction s generalizing left with
  | nil => rw [List.nil_append, List.nil_append, unpunctuate_cons_of_not hc]
  | cons d s ih =>
    rw [List.cons_append, List.cons_append, unpunctuate_cons_of_not (hs d List.mem_cons_self),
      ih (fun e he ↦ hs e (List.mem_cons_of_mem d he))]

theorem unpunctuate_between {s : List α} (hs : ∀ c ∈ s, punct c = true) {t : List α}
    (ht : nextIs punct letter t = true) :
    unpunctuate letter punct true (s ++ t) = unpunctuate letter punct true t := by
  induction s with
  | nil => rfl
  | cons c s ih =>
    have hrest : ∀ d ∈ s, punct d = true := fun d hd ↦ hs d (List.mem_cons_of_mem c hd)
    rw [List.cons_append, unpunctuate_cons_of (hs c List.mem_cons_self), nextIs_append hrest, ht,
      Bool.and_true, if_pos rfl, List.nil_append, ih hrest]

theorem unpunctuate_eq_append {c : α} (hc : punct c = false) {left : Bool} {s X Z : List α}
    (h : unpunctuate letter punct left s = X ++ c :: Z) :
    ∃ x z, s = x ++ c :: z ∧ unpunctuate letter punct left (x ++ [c]) = X ++ [c] ∧
      unpunctuate letter punct (letter c) z = Z := by
  induction s generalizing left X with
  | nil => simp [unpunctuate] at h
  | cons d s ih =>
    cases hd : punct d with
    | true =>
      rw [unpunctuate_cons_of hd] at h
      have hrest : ∃ Y, unpunctuate letter punct left s = Y ++ c :: Z ∧
          X = (if left && nextIs punct letter s then [] else [d]) ++ Y := by
        split_ifs at h ⊢ with hnext
        · exact ⟨X, h, rfl⟩
        · cases X with
          | nil =>
            rw [List.singleton_append, List.nil_append] at h
            rw [(List.cons.inj h).1, hc] at hd
            cases hd
          | cons e Y =>
            rw [List.singleton_append, List.cons_append] at h
            obtain ⟨rfl, hY⟩ := List.cons.inj h
            exact ⟨Y, hY, rfl⟩
      obtain ⟨Y, hY, rfl⟩ := hrest
      obtain ⟨x, z, rfl, hx, hz⟩ := ih hY
      refine ⟨d :: x, z, rfl, ?_, hz⟩
      rw [List.cons_append, unpunctuate_cons_of hd, hx, nextIs_cut hc x z, List.append_assoc]
    | false =>
      rw [unpunctuate_cons_of_not hd] at h
      cases X with
      | nil =>
        obtain ⟨rfl, hZ⟩ := List.cons.inj h
        exact ⟨[], s, rfl, by rw [List.nil_append, unpunctuate_cons_of_not hd, unpunctuate], hZ⟩
      | cons e X =>
        obtain ⟨rfl, hX⟩ := List.cons.inj h
        obtain ⟨x, z, rfl, hx, hz⟩ := ih hX
        refine ⟨d :: x, z, rfl, ?_, hz⟩
        rw [List.cons_append, unpunctuate_cons_of_not hd, hx, List.cons_append]

/-- What has gone in front of the next character is punctuation between two letters. -/
theorem unpunctuate_eq_cons {c : α} (hc : punct c = false) {left : Bool} {s Z : List α}
    (h : unpunctuate letter punct left s = c :: Z) :
    ∃ gap z, s = gap ++ c :: z ∧ (∀ d ∈ gap, punct d = true) ∧
      (gap ≠ [] → left = true ∧ letter c = true) ∧
      unpunctuate letter punct (letter c) z = Z := by
  induction s with
  | nil => cases h
  | cons d s ih =>
    cases hd : punct d with
    | true =>
      rw [unpunctuate_cons_of hd] at h
      split_ifs at h with hnext
      · obtain ⟨gap, z, rfl, hgap, -, hz⟩ := ih h
        obtain ⟨hleft, hletter⟩ := Bool.and_eq_true_iff.mp hnext
        rw [nextIs_append hgap, nextIs_cons_of_not hc] at hletter
        exact ⟨d :: gap, z, rfl, List.forall_mem_cons.mpr ⟨hd, hgap⟩, fun _ ↦ ⟨hleft, hletter⟩, hz⟩
      · rw [List.singleton_append] at h
        rw [(List.cons.inj h).1, hc] at hd
        cases hd
    | false =>
      rw [unpunctuate_cons_of_not hd] at h
      obtain ⟨rfl, hZ⟩ := List.cons.inj h
      exact ⟨[], s, rfl, fun e he ↦ absurd he List.not_mem_nil, fun hne ↦ absurd rfl hne, hZ⟩

theorem unpunctuate_eq_append_of_not {run : List α} (hne : run ≠ [])
    (hrun : ∀ c ∈ run, punct c = false ∧ letter c = false) {c : α} (hc : punct c = false)
    {left : Bool} {s Z : List α}
    (h : unpunctuate letter punct left s = run ++ c :: Z) :
    ∃ z, s = run ++ c :: z ∧ unpunctuate letter punct (letter c) z = Z := by
  induction run generalizing left s with
  | nil => exact absurd rfl hne
  | cons d run ih =>
    obtain ⟨hd, hdletter⟩ := hrun d List.mem_cons_self
    obtain ⟨gap, z, rfl, -, hgap, hz⟩ := unpunctuate_eq_cons hd h
    have hnil : gap = [] := by
      by_contra hne
      rw [(hgap hne).2] at hdletter
      cases hdletter
    subst hnil
    rw [hdletter] at hz
    cases run with
    | nil =>
      obtain ⟨gap, z', rfl, -, hgap', hz'⟩ := unpunctuate_eq_cons hc hz
      have hnil : gap = [] := by
        by_contra hne
        cases (hgap' hne).1
      subst hnil
      exact ⟨z', rfl, hz'⟩
    | cons e run =>
      obtain ⟨z', rfl, hz'⟩ := ih (List.cons_ne_nil e run)
        (fun f hf ↦ hrun f (List.mem_cons_of_mem d hf)) hz
      exact ⟨z', rfl, hz'⟩

theorem filter_unpunctuate (left : Bool) (s : List α) :
    (unpunctuate letter punct left s).filter (fun c ↦ !punct c) = s.filter fun c ↦ !punct c := by
  induction s generalizing left with
  | nil => rfl
  | cons c s ih =>
    cases hc : punct c with
    | true =>
      rw [unpunctuate_cons_of hc, List.filter_append, ih, List.filter_cons_of_neg (by simp [hc])]
      split_ifs
      · rfl
      · rw [List.filter_cons_of_neg (by simp [hc]), List.filter_nil, List.nil_append]
    | false =>
      rw [unpunctuate_cons_of_not hc, List.filter_cons_of_pos (by simp [hc]), ih,
        List.filter_cons_of_pos (by simp [hc])]

theorem unpunctuate_letters {s : List α} (hs : ∀ c ∈ s, punct c = false → letter c = true)
    {c : α} (hc : punct c = false) (hletter : letter c = true) :
    unpunctuate letter punct true (s ++ [c]) = (s ++ [c]).filter fun d ↦ !punct d := by
  have hnext : ∀ t : List α, (∀ d ∈ t, punct d = false → letter d = true) →
      nextIs punct letter (t ++ [c]) = true := by
    intro t ht
    induction t with
    | nil => rw [List.nil_append, nextIs_cons_of_not hc, hletter]
    | cons d t ih =>
      cases hd : punct d with
      | true => rw [List.cons_append, nextIs_cons_of hd,
          ih fun e he ↦ ht e (List.mem_cons_of_mem d he)]
      | false => rw [List.cons_append, nextIs_cons_of_not hd, ht d List.mem_cons_self hd]
  induction s with
  | nil =>
    rw [List.nil_append, unpunctuate_cons_of_not hc, unpunctuate,
      List.filter_cons_of_pos (by simp [hc]), List.filter_nil]
  | cons d s ih =>
    have hrest : ∀ e ∈ s, punct e = false → letter e = true := fun e he ↦
      hs e (List.mem_cons_of_mem d he)
    rw [List.cons_append]
    cases hd : punct d with
    | true =>
      rw [unpunctuate_cons_of hd, hnext s hrest, Bool.and_true, if_pos rfl, List.nil_append,
        ih hrest, List.filter_cons_of_neg (by simp [hd])]
    | false =>
      rw [unpunctuate_cons_of_not hd, hs d List.mem_cons_self hd, ih hrest,
        List.filter_cons_of_pos (by simp [hd])]

end Unpunctuate

/-! ## Insertion -/

/-- Insert `w` at each place between a character in `p` and one in `q`. -/
def interpose (p q : α → Bool) (w : List α) : Option α → List α → List α
  | _, [] => []
  | left, c :: s =>
    (if left.any p && q c then w else []) ++ c :: interpose p q w (some c) s

end Text
