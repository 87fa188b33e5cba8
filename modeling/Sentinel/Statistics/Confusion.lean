import Mathlib.Algebra.BigOperators.Group.List.Basic
import Mathlib.Algebra.Order.Field.Basic
import Mathlib.Tactic.FieldSimp
import Mathlib.Tactic.Ring
import Sentinel.Collections.Counting

/-!
# Confusion matrices

The four counts of a binary classifier on labelled examples, and the ratios that are read off them.
Which examples are negative, which are positive and which are flagged are three predicates, and
nothing requires that an example is one of negative and positive; where each is exactly one, the
matrix adds up to the number of examples.

Matrices are added entry by entry. A tally is the sum of the tallies of its examples, so it can be
taken class by class. A classifier that flags more has more of both kinds of hits, and the
numbers of positives and negatives do not depend on it: that is `FlagsMore`, and the ratios follow
the order it gives.
-/

namespace Statistics

variable {α β K : Type*}

/-! ## Ratios -/

section Rate

/-- A ratio of counts, which counts as zero where it is undefined. -/
def rate [DivisionRing K] (n d : ℕ) : K := if d = 0 then 0 else n / d

theorem rate_eq_div [DivisionRing K] (n d : ℕ) : (rate n d : K) = n / d := by
  rw [rate]
  split_ifs with hd
  · rw [hd, Nat.cast_zero, div_zero]
  · rfl

variable [Field K] [LinearOrder K] [IsStrictOrderedRing K]

theorem rate_le_rate {n m : ℕ} (h : n ≤ m) (d : ℕ) : (rate n d : K) ≤ rate m d := by
  rw [rate_eq_div, rate_eq_div]
  exact div_le_div_of_nonneg_right (Nat.cast_le.mpr h) (Nat.cast_nonneg d)

/-- The harmonic mean, which counts as zero where it is undefined. -/
def harmonicMean (p r : K) : K := if p + r = 0 then 0 else 2 * p * r / (p + r)

/-- **The harmonic mean of precision and recall** is a ratio of counts itself. -/
theorem harmonicMean_rate (tp fp fn : ℕ) :
    harmonicMean (rate tp (tp + fp) : K) (rate tp (tp + fn))
      = if 0 < tp then (2 * tp / (2 * tp + fp + fn) : K) else 0 := by
  split_ifs with htp
  · have hpos : (0 : K) < tp := Nat.cast_pos.mpr htp
    have hfp : (0 : K) ≤ fp := Nat.cast_nonneg fp
    have hfn : (0 : K) ≤ fn := Nat.cast_nonneg fn
    have hprecision : (0 : K) < tp + fp := add_pos_of_pos_of_nonneg hpos hfp
    have hrecall : (0 : K) < tp + fn := add_pos_of_pos_of_nonneg hpos hfn
    have hsum : (tp : K) / (tp + fp) + tp / (tp + fn)
        = tp * (2 * tp + fp + fn) / ((tp + fp) * (tp + fn)) := by
      field_simp
      ring
    rw [harmonicMean, rate_eq_div, rate_eq_div, Nat.cast_add, Nat.cast_add,
      if_neg (add_pos (div_pos hpos hprecision) (div_pos hpos hrecall)).ne', hsum]
    field_simp
  · have hzero : tp = 0 := Nat.eq_zero_of_not_pos htp
    rw [harmonicMean, hzero, rate_eq_div, rate_eq_div, Nat.cast_zero, zero_div, zero_div, add_zero,
      if_pos rfl]

end Rate

/-! ## Matrices -/

/-- The counts of true and false negatives and positives. -/
@[ext]
structure Confusion where
  tn : ℕ
  fp : ℕ
  fn : ℕ
  tp : ℕ
deriving DecidableEq

namespace Confusion

instance : Zero Confusion := ⟨⟨0, 0, 0, 0⟩⟩

instance : Add Confusion :=
  ⟨fun c c' ↦ ⟨c.tn + c'.tn, c.fp + c'.fp, c.fn + c'.fn, c.tp + c'.tp⟩⟩

/-- Entry by entry. -/
instance : AddCommMonoid Confusion where
  nsmul := nsmulRec
  add_assoc c c' c'' := Confusion.ext (Nat.add_assoc _ _ _) (Nat.add_assoc _ _ _)
    (Nat.add_assoc _ _ _) (Nat.add_assoc _ _ _)
  zero_add c := Confusion.ext (Nat.zero_add _) (Nat.zero_add _) (Nat.zero_add _) (Nat.zero_add _)
  add_zero _ := rfl
  add_comm c c' := Confusion.ext (Nat.add_comm _ _) (Nat.add_comm _ _) (Nat.add_comm _ _)
    (Nat.add_comm _ _)

def total (c : Confusion) : ℕ := c.tn + c.fp + c.fn + c.tp

section Rates

variable [DivisionRing K] (c : Confusion)

def precision : K := rate c.tp (c.tp + c.fp)

def truePositiveRate : K := rate c.tp (c.tp + c.fn)

def falsePositiveRate : K := rate c.fp (c.fp + c.tn)

def falseNegativeRate : K := rate c.fn (c.fn + c.tp)

end Rates

/-! ## Tallies -/

/-- The matrix of a list of examples. -/
def tally (negative positive flagged : α → Bool) (l : List α) : Confusion where
  tn := l.countP fun x ↦ negative x && !flagged x
  fp := l.countP fun x ↦ negative x && flagged x
  fn := l.countP fun x ↦ positive x && !flagged x
  tp := l.countP fun x ↦ positive x && flagged x

variable {negative positive flagged flagged' : α → Bool} {l : List α}

theorem tally_cons (x : α) (l : List α) : tally negative positive flagged (x :: l)
    = tally negative positive flagged [x] + tally negative positive flagged l := by
  have happend : ∀ p : α → Bool, (x :: l).countP p = [x].countP p + l.countP p := fun p ↦ by
    rw [← List.singleton_append, List.countP_append]
  exact Confusion.ext (happend fun x ↦ negative x && !flagged x)
    (happend fun x ↦ negative x && flagged x) (happend fun x ↦ positive x && !flagged x)
    (happend fun x ↦ positive x && flagged x)

theorem tally_eq_sum (l : List α) : tally negative positive flagged l
    = (l.map fun x ↦ tally negative positive flagged [x]).sum := by
  induction l with
  | nil => rfl
  | cons x l ih => rw [tally_cons, ih, List.map_cons, List.sum_cons]

theorem tally_map (f : β → α) (l : List β) : tally negative positive flagged (l.map f)
    = tally (negative ∘ f) (positive ∘ f) (flagged ∘ f) l := by
  rw [tally, tally]
  simp only [List.countP_map]
  rfl

theorem tp_add_fn (l : List α) : (tally negative positive flagged l).tp
    + (tally negative positive flagged l).fn = l.countP positive :=
  Collections.countP_and_add positive flagged l

theorem fp_add_tn (l : List α) : (tally negative positive flagged l).fp
    + (tally negative positive flagged l).tn = l.countP negative :=
  Collections.countP_and_add negative flagged l

section Labelled

variable (hlabels : ∀ x ∈ l, negative x = !positive x)

include hlabels

theorem tp_add_fp : (tally negative positive flagged l).tp
    + (tally negative positive flagged l).fp = l.countP flagged := by
  have hfp : (tally negative positive flagged l).fp
      = l.countP fun x ↦ flagged x && !positive x := by
    apply List.countP_congr
    intro x hx
    rw [hlabels x hx, Bool.and_comm]
  have htp : (tally negative positive flagged l).tp
      = l.countP fun x ↦ flagged x && positive x := by
    apply List.countP_congr
    intro x _
    rw [Bool.and_comm]
  rw [hfp, htp, Collections.countP_and_add]

/-- **Every example is counted once.** -/
theorem total_tally : (tally negative positive flagged l).total = l.length := by
  have hnegative : l.countP negative = l.countP fun x ↦ true && !positive x := by
    apply List.countP_congr
    intro x hx
    rw [hlabels x hx, Bool.true_and]
  have hpositive : l.countP positive = l.countP fun x ↦ true && positive x := by
    simp only [Bool.true_and]
  have hsplit := Collections.countP_and_add (fun _ ↦ true) positive l
  have htp : (tally negative positive flagged l).tp + (tally negative positive flagged l).fn
      = l.countP positive := tp_add_fn l
  have hfp : (tally negative positive flagged l).fp + (tally negative positive flagged l).tn
      = l.countP negative := fp_add_tn l
  rw [← hpositive, ← hnegative, List.countP_true] at hsplit
  rw [total]
  omega

end Labelled

/-! ## Flagging more -/

/-- The second matrix is that of a classifier that flags all that the first one flags. -/
structure FlagsMore (c c' : Confusion) : Prop where
  tp_le : c.tp ≤ c'.tp
  fp_le : c.fp ≤ c'.fp
  positives : c.tp + c.fn = c'.tp + c'.fn
  negatives : c.fp + c.tn = c'.fp + c'.tn

theorem tally_flagsMore (h : ∀ x ∈ l, flagged x = true → flagged' x = true) :
    FlagsMore (tally negative positive flagged l) (tally negative positive flagged' l) where
  tp_le := List.countP_mono_left fun x hx hand ↦ by
    obtain ⟨hpositive, hflagged⟩ := Bool.and_eq_true_iff.mp hand
    exact Bool.and_eq_true_iff.mpr ⟨hpositive, h x hx hflagged⟩
  fp_le := List.countP_mono_left fun x hx hand ↦ by
    obtain ⟨hnegative, hflagged⟩ := Bool.and_eq_true_iff.mp hand
    exact Bool.and_eq_true_iff.mpr ⟨hnegative, h x hx hflagged⟩
  positives := by rw [tp_add_fn, tp_add_fn]
  negatives := by rw [fp_add_tn, fp_add_tn]

section Order

variable [Field K] [LinearOrder K] [IsStrictOrderedRing K] {c c' : Confusion}

theorem FlagsMore.truePositiveRate_le (h : FlagsMore c c') :
    (c.truePositiveRate : K) ≤ c'.truePositiveRate := by
  rw [truePositiveRate, truePositiveRate, h.positives]
  exact rate_le_rate h.tp_le _

theorem FlagsMore.falsePositiveRate_le (h : FlagsMore c c') :
    (c.falsePositiveRate : K) ≤ c'.falsePositiveRate := by
  rw [falsePositiveRate, falsePositiveRate, h.negatives]
  exact rate_le_rate h.fp_le _

theorem FlagsMore.falseNegativeRate_le (h : FlagsMore c c') :
    (c'.falseNegativeRate : K) ≤ c.falseNegativeRate := by
  have hle : c'.fn ≤ c.fn := by
    have htp := h.tp_le
    have hpositives := h.positives
    omega
  rw [falseNegativeRate, falseNegativeRate, Nat.add_comm, ← h.positives, Nat.add_comm c.tp]
  exact rate_le_rate hle _

end Order

end Confusion

end Statistics
