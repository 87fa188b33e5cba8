import Mathlib.Data.List.Count
import Mathlib.Data.List.Induction
import Mathlib.Data.List.Range

/-!
# Counting

Ways to count the members of a list that satisfy a predicate: by their indices, class by class, and
in a list that has been cut.
-/

namespace Collections

variable {α β : Type*}

theorem countP_range_getElem (p : α → Bool) (l : List α) :
    (List.range l.length).countP (fun i ↦ (l[i]?).any p) = l.countP p := by
  induction l using List.reverseRecOn with
  | nil => rfl
  | append_singleton l x ih =>
    have hbefore : (List.range l.length).countP (fun i ↦ ((l ++ [x])[i]?).any p) = l.countP p := by
      rw [← ih]
      apply List.countP_congr
      intro i hi
      rw [List.getElem?_append_left (List.mem_range.mp hi)]
    rw [List.length_append, List.length_singleton, List.range_succ, List.countP_append, hbefore,
      List.countP_append, List.countP_singleton, List.countP_singleton,
      List.getElem?_concat_length, Option.any_some]

theorem countP_and_add (p q : α → Bool) (l : List α) :
    l.countP (fun x ↦ p x && q x) + l.countP (fun x ↦ p x && !q x) = l.countP p := by
  induction l with
  | nil => rfl
  | cons x l ih =>
    rw [List.countP_cons, List.countP_cons, List.countP_cons, ← ih]
    cases p x <;> cases q x <;> simp +arith

theorem countP_le_of_classes [DecidableEq β] (f : α → β) {l : List α} {n : ℕ} {classes : List β} :
    ∀ {p : α → Bool}, (∀ x ∈ l, p x = true → f x ∈ classes) →
      (∀ b ∈ classes, l.countP (fun x ↦ p x && decide (f x = b)) ≤ n) →
      l.countP p ≤ classes.length * n := by
  induction classes with
  | nil =>
    intro p hmem _
    rw [List.countP_eq_zero.mpr fun x hx hp ↦ List.not_mem_nil (hmem x hx hp)]
    exact Nat.zero_le _
  | cons b classes ih =>
    intro p hmem hclass
    have hsplit := countP_and_add p (fun x ↦ decide (f x = b)) l
    have hrest := ih (p := fun x ↦ p x && !decide (f x = b)) (fun x hx hp ↦ by
      obtain ⟨hp, hne⟩ := Bool.and_eq_true_iff.mp hp
      refine (List.mem_cons.mp (hmem x hx hp)).resolve_left fun heq ↦ ?_
      rw [decide_eq_true heq] at hne
      cases hne) (fun b' hb' ↦ by
      refine le_trans (List.countP_mono_left fun x _ hx ↦ ?_)
        (hclass b' (List.mem_cons_of_mem b hb'))
      simp only [Bool.and_eq_true] at hx ⊢
      exact ⟨hx.1.1, hx.2⟩)
    have hfirst := hclass b List.mem_cons_self
    rw [← hsplit, List.length_cons, Nat.succ_mul, Nat.add_comm]
    exact Nat.add_le_add hrest hfirst

/-- Where at most one member does not satisfy the predicate, a cut keeps all that do, or at least
all but one of the places it leaves. -/
theorem countP_take (p : α → Bool) {l : List α} (h : l.countP (fun x ↦ !p x) ≤ 1) (n : ℕ) :
    (l.take n).countP p = l.countP p ∨
      n - 1 ≤ (l.take n).countP p ∧ (l.take n).countP p ≤ l.countP p := by
  have hle : (l.take n).countP p ≤ l.countP p := (List.take_sublist n l).countP_le
  have hother : (l.take n).countP (fun x ↦ !p x) ≤ 1 :=
    ((List.take_sublist n l).countP_le).trans h
  have hlength := List.length_eq_countP_add_countP p (l := l.take n)
  rcases Nat.le_total l.length n with hall | hcut
  · rw [List.take_of_length_le hall]
    exact .inl rfl
  · rw [List.length_take, Nat.min_eq_left hcut] at hlength
    have hnot : (l.take n).countP (fun x ↦ decide ¬p x = true)
        = (l.take n).countP fun x ↦ !p x := by
      apply List.countP_congr
      intro x _
      cases p x <;> simp
    refine .inr ⟨?_, hle⟩
    omega

end Collections
