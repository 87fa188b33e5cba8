import Mathlib.Algebra.Order.Field.Basic
import Mathlib.Tactic.Linarith
import Mathlib.Tactic.Ring

/-!
# Token buckets

A bucket keeps what it held when it was last looked at and the time of that look. What it holds
later is computed on demand: tokens flow in at a constant rate, up to the capacity. Time and tokens
are in one ordered field, so a bucket can be looked at between any two looks and nothing changes by
it; that is `level_level`, and everything else about passing time follows from it.

The last part is about a bucket that refuses. As long as it does, its tokens lie on the line that
begins at the first refusal, however often it is asked, and the line says when it will give again.
-/

namespace Buckets

/-- The tokens of a bucket at the time of the last look. -/
structure Bucket (K : Type*) where
  tokens : K
  updatedAt : K
deriving DecidableEq

/-- What all buckets have in common. A full bucket can give. -/
structure Flow (K : Type*) [Field K] [LinearOrder K] where
  capacity : K
  rate : K
  one_le_capacity : 1 ≤ capacity
  rate_pos : 0 < rate

variable {K : Type*} [Field K] [LinearOrder K]

namespace Flow

variable (flow : Flow K)

/-- What the bucket holds at a time. A look back finds what was there last. -/
def level (b : Bucket K) (now : K) : K :=
  min flow.capacity (b.tokens + max 0 (now - b.updatedAt) * flow.rate)

/-- The bucket after one token has been asked for, and whether it gave one. -/
def ask (b : Bucket K) (now : K) : Bool × Bucket K :=
  if flow.level b now < 1 then (false, ⟨flow.level b now, now⟩)
  else (true, ⟨flow.level b now - 1, now⟩)

variable {flow} {b : Bucket K} {t t' : K}

theorem level_le_capacity (flow : Flow K) (b : Bucket K) (t : K) : flow.level b t ≤ flow.capacity :=
  min_le_left _ _

theorem ask_of_lt (h : flow.level b t < 1) : flow.ask b t = (false, ⟨flow.level b t, t⟩) := if_pos h

theorem ask_of_le (h : 1 ≤ flow.level b t) : flow.ask b t = (true, ⟨flow.level b t - 1, t⟩) :=
  if_neg (not_lt.mpr h)

@[simp] theorem ask_updatedAt : (flow.ask b t).2.updatedAt = t := by
  rcases lt_or_ge (flow.level b t) 1 with h | h
  · rw [ask_of_lt h]
  · rw [ask_of_le h]

variable [IsStrictOrderedRing K]

/-! ## Passing time -/

theorem level_of_le (h : b.updatedAt ≤ t) :
    flow.level b t = min flow.capacity (b.tokens + (t - b.updatedAt) * flow.rate) := by
  rw [level, max_eq_right (sub_nonneg.mpr h)]

theorem level_self : flow.level b b.updatedAt = min flow.capacity b.tokens := by
  rw [level_of_le le_rfl, sub_self, zero_mul, add_zero]

theorem level_level (h : b.updatedAt ≤ t) (h' : t ≤ t') :
    flow.level ⟨flow.level b t, t⟩ t' = flow.level b t' := by
  rw [level_of_le (b := ⟨_, t⟩) h', level_of_le h, level_of_le (h.trans h')]
  have hsplit : b.tokens + (t' - b.updatedAt) * flow.rate
      = b.tokens + (t - b.updatedAt) * flow.rate + (t' - t) * flow.rate := by ring
  have hflow : 0 ≤ (t' - t) * flow.rate :=
    mul_nonneg (sub_nonneg.mpr h') flow.rate_pos.le
  rw [hsplit, min_add, ← min_assoc, min_eq_left (le_add_of_nonneg_right hflow)]

theorem level_le_add (h : b.updatedAt ≤ t) (h' : t ≤ t') :
    flow.level b t' ≤ flow.level b t + (t' - t) * flow.rate := by
  rw [← level_level h h', level_of_le (b := ⟨_, t⟩) h']
  exact min_le_right _ _

theorem level_nonneg (h : 0 ≤ b.tokens) : 0 ≤ flow.level b t :=
  le_min (zero_le_one.trans flow.one_le_capacity)
    (add_nonneg h (mul_nonneg (le_max_left _ _) flow.rate_pos.le))

/-- A bucket is full when as much as it can hold has flown in since the last look. -/
theorem level_eq_capacity (hb : 0 ≤ b.tokens)
    (h : flow.capacity ≤ (t - b.updatedAt) * flow.rate) : flow.level b t = flow.capacity := by
  refine min_eq_left (h.trans ?_)
  have hmax : (t - b.updatedAt) * flow.rate ≤ max 0 (t - b.updatedAt) * flow.rate :=
    mul_le_mul_of_nonneg_right (le_max_right _ _) flow.rate_pos.le
  linarith

theorem level_full : flow.level ⟨flow.capacity, t⟩ t' = flow.capacity :=
  min_eq_left (le_add_of_nonneg_right (mul_nonneg (le_max_left _ _) flow.rate_pos.le))

theorem ask_tokens_mem (flow : Flow K) (h : 0 ≤ b.tokens) (t : K) :
    0 ≤ (flow.ask b t).2.tokens ∧ (flow.ask b t).2.tokens ≤ flow.capacity := by
  have hle := flow.level_le_capacity b t
  rcases lt_or_ge (flow.level b t) 1 with hlt | hge
  · rw [ask_of_lt hlt]
    exact ⟨level_nonneg h, hle⟩
  · rw [ask_of_le hge]
    exact ⟨sub_nonneg.mpr hge, (sub_le_self _ zero_le_one).trans hle⟩

/-! ## Refusals -/

/-- The bucket lies on the line through a level at a time, and nothing was given since. -/
def OnLine (flow : Flow K) (start t : K) (b : Bucket K) : Prop :=
  t ≤ b.updatedAt ∧ b.tokens = start + (b.updatedAt - t) * flow.rate

variable {start : K}

omit [IsStrictOrderedRing K] in
/-- A refusal begins a line. -/
theorem onLine_of_refused (h : flow.level b t < 1) :
    OnLine flow (flow.level b t) t (flow.ask b t).2 := by
  rw [ask_of_lt h]
  refine ⟨le_rfl, ?_⟩
  rw [sub_self, zero_mul, add_zero]

theorem OnLine.level_eq (h : OnLine flow start t b) (h' : b.updatedAt ≤ t') :
    flow.level b t' = min flow.capacity (start + (t' - t) * flow.rate) := by
  rw [level_of_le h', h.2]
  congr 1
  ring

theorem OnLine.ask (h : OnLine flow start t b) (h' : b.updatedAt ≤ t')
    (hrefused : flow.level b t' < 1) : OnLine flow start t (flow.ask b t').2 := by
  have hlevel := h.level_eq h'
  rw [ask_of_lt hrefused]
  refine ⟨h.1.trans h', ?_⟩
  rw [hlevel] at hrefused ⊢
  rcases min_lt_iff.mp hrefused with hfull | hline
  · exact absurd flow.one_le_capacity (not_le.mpr hfull)
  · exact min_eq_right (hline.le.trans flow.one_le_capacity)

theorem OnLine.one_le_level (h : OnLine flow start t b) (h' : b.updatedAt ≤ t')
    (hwait : (1 - start) / flow.rate ≤ t' - t) : 1 ≤ flow.level b t' := by
  rw [h.level_eq h']
  rw [div_le_iff₀ flow.rate_pos] at hwait
  exact le_min flow.one_le_capacity (by linarith)

theorem OnLine.level_lt_one (h : OnLine flow start t b) (h' : b.updatedAt ≤ t')
    (hwait : t' - t < (1 - start) / flow.rate) : flow.level b t' < 1 := by
  rw [h.level_eq h']
  rw [lt_div_iff₀ flow.rate_pos] at hwait
  exact (min_le_right _ _).trans_lt (by linarith)

end Flow

end Buckets
