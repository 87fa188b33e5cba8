import Mathlib.Data.List.Induction
import Mathlib.Data.Nat.Cast.Order.Ring
import Sentinel.Buckets.TokenBucket

/-!
# Requests that keep to the budget

A full bucket that is asked for tokens again and again grants all of them exactly if the requests
conform: no stretch of them is longer than the capacity and what flows in during the stretch.

One direction is the promise of the bucket to those it protects, the other its promise to those who
ask. Both are read off one formula. As long as everything is granted, what a bucket holds is the
least of the capacity and of what each earlier request would have left, had the bucket been full
when that request came.
-/

namespace Buckets

variable {K : Type*} [Field K] [LinearOrder K]

namespace Flow

variable (flow : Flow K)

/-- The answers to requests at the times, one after the other. -/
def answers : Bucket K → List K → List Bool
  | _, [] => []
  | b, t :: times => (flow.ask b t).1 :: answers (flow.ask b t).2 times

def afterAll (b : Bucket K) (times : List K) : Bucket K :=
  times.foldl (fun b t ↦ (flow.ask b t).2) b

/-- No stretch of the requests, from the one with index `i` to that with index `j`, asks for more
than the capacity and what flows in meanwhile. -/
def Conforms (times : List K) : Prop :=
  ∀ i j first last, i ≤ j → times[i]? = some first → times[j]? = some last →
    ((j - i : ℕ) : K) + 1 ≤ flow.capacity + (last - first) * flow.rate

variable {flow} {b : Bucket K} {times : List K} {s t x : K}

theorem answers_append (b : Bucket K) (times times' : List K) : flow.answers b (times ++ times')
    = flow.answers b times ++ flow.answers (flow.afterAll b times) times' := by
  induction times generalizing b with
  | nil => rfl
  | cons t times ih => rw [List.cons_append, answers, answers, ih, List.cons_append]; rfl

theorem afterAll_concat (b : Bucket K) (times : List K) (s : K) :
    flow.afterAll b (times ++ [s]) = (flow.ask (flow.afterAll b times) s).2 := by
  rw [afterAll, List.foldl_append]
  rfl

theorem ask_granted : (flow.ask b t).1 = true ↔ 1 ≤ flow.level b t := by
  rw [ask]
  split_ifs with hlt
  · exact iff_of_false id (not_le.mpr hlt)
  · exact iff_of_true rfl (not_lt.mp hlt)

theorem granted_concat : (∀ granted ∈ flow.answers b (times ++ [s]), granted = true) ↔
    (∀ granted ∈ flow.answers b times, granted = true) ∧
      1 ≤ flow.level (flow.afterAll b times) s := by
  rw [answers_append, List.forall_mem_append, answers, answers, List.forall_mem_singleton,
    ask_granted]

omit [Field K] [LinearOrder K] in
theorem getElem?_concat_eq_some {i : ℕ} : (times ++ [s])[i]? = some t ↔
    times[i]? = some t ∨ i = times.length ∧ s = t := by
  rcases lt_trichotomy i times.length with hlt | rfl | hgt
  · rw [List.getElem?_append_left hlt, or_iff_left fun h ↦ hlt.ne h.1]
  · rw [List.getElem?_concat_length, Option.some_inj, List.getElem?_eq_none le_rfl]
    simp only [reduceCtorEq, true_and, false_or]
  · have hlength : (times ++ [s]).length ≤ i := by
      rw [List.length_append, List.length_singleton]
      exact hgt
    rw [List.getElem?_eq_none hlength, List.getElem?_eq_none hgt.le]
    simp only [reduceCtorEq, hgt.ne', false_and, or_self]

theorem conforms_concat : flow.Conforms (times ++ [s]) ↔ flow.Conforms times ∧
    ∀ i first, times[i]? = some first →
      ((times.length - i : ℕ) : K) + 1 ≤ flow.capacity + (s - first) * flow.rate := by
  constructor
  · intro h
    constructor
    · intro i j first last hij hfirst hlast
      exact h i j first last hij (getElem?_concat_eq_some.mpr (.inl hfirst))
        (getElem?_concat_eq_some.mpr (.inl hlast))
    · intro i first hfirst
      have hi : i < times.length := (List.getElem?_eq_some_iff.mp hfirst).1
      exact h i times.length first s hi.le (getElem?_concat_eq_some.mpr (.inl hfirst))
        (getElem?_concat_eq_some.mpr (.inr ⟨rfl, rfl⟩))
  · rintro ⟨htimes, hnew⟩ i j first last hij hfirst hlast
    rcases getElem?_concat_eq_some.mp hlast with hlast | ⟨rfl, rfl⟩
    · have hj : j < times.length := (List.getElem?_eq_some_iff.mp hlast).1
      rcases getElem?_concat_eq_some.mp hfirst with hfirst | ⟨rfl, -⟩
      · exact htimes i j first last hij hfirst hlast
      · exact absurd hj (not_lt.mpr hij)
    · rcases getElem?_concat_eq_some.mp hfirst with hfirst | ⟨rfl, rfl⟩
      · exact hnew i first hfirst
      · rw [Nat.sub_self, Nat.cast_zero, zero_add, sub_self, zero_mul, add_zero]
        exact flow.one_le_capacity

variable [IsStrictOrderedRing K]

/-- **What a bucket holds** that was full in the beginning and has granted every request. -/
theorem le_level_afterAll (hfull : ∀ t, flow.level b t = flow.capacity)
    (htimes : times.Pairwise (· ≤ ·)) (hlater : ∀ s ∈ times, s ≤ t)
    (hgranted : ∀ granted ∈ flow.answers b times, granted = true) :
    x ≤ flow.level (flow.afterAll b times) t ↔ x ≤ flow.capacity ∧ ∀ i first,
      times[i]? = some first →
        x + (times.length - i : ℕ) ≤ flow.capacity + (t - first) * flow.rate := by
  induction times using List.reverseRecOn generalizing t x with
  | nil =>
    rw [afterAll, List.foldl_nil, hfull]
    exact (and_iff_left fun i first h ↦ by cases h).symm
  | append_singleton times s ih =>
    obtain ⟨hbefore, -, hlast⟩ := List.pairwise_append.mp htimes
    obtain ⟨hgranted, hlevel⟩ := granted_concat.mp hgranted
    have hst : s ≤ t := hlater s (List.mem_append_right _ (List.mem_singleton_self s))
    have hstep : x ≤ flow.level (flow.afterAll b (times ++ [s])) t ↔ x ≤ flow.capacity ∧
        x + 1 - (t - s) * flow.rate ≤ flow.level (flow.afterAll b times) s := by
      rw [afterAll_concat, ask_of_le hlevel, level_of_le (b := ⟨_, s⟩) hst, le_min_iff]
      refine and_congr_right' ⟨fun h ↦ by linarith, fun h ↦ by linarith⟩
    rw [hstep, ih hbefore (fun r hr ↦ hlast r hr s (List.mem_singleton_self s)) hgranted]
    refine and_congr_right' ?_
    -- the requests before `s` by induction, and `s` itself is the bound by the capacity
    constructor
    · rintro ⟨hcapacity, hearlier⟩ i first hfirst
      rcases getElem?_concat_eq_some.mp hfirst with hfirst | ⟨rfl, rfl⟩
      · have hi : i < times.length := (List.getElem?_eq_some_iff.mp hfirst).1
        have hbound := hearlier i first hfirst
        rw [List.length_append, List.length_singleton, Nat.sub_add_comm hi.le, Nat.cast_add,
          Nat.cast_one]
        linarith
      · rw [List.length_append, List.length_singleton, Nat.add_sub_cancel_left, Nat.cast_one]
        linarith
    · intro h
      constructor
      · have hbound := h times.length s (getElem?_concat_eq_some.mpr (.inr ⟨rfl, rfl⟩))
        rw [List.length_append, List.length_singleton, Nat.add_sub_cancel_left, Nat.cast_one]
          at hbound
        linarith
      · intro i first hfirst
        have hi : i < times.length := (List.getElem?_eq_some_iff.mp hfirst).1
        have hbound := h i first (getElem?_concat_eq_some.mpr (.inl hfirst))
        rw [List.length_append, List.length_singleton, Nat.sub_add_comm hi.le, Nat.cast_add,
          Nat.cast_one] at hbound
        linarith

/-- **A full bucket grants all requests exactly if they conform.** -/
theorem granted_iff_conforms (hfull : ∀ t, flow.level b t = flow.capacity)
    (htimes : times.Pairwise (· ≤ ·)) :
    (∀ granted ∈ flow.answers b times, granted = true) ↔ flow.Conforms times := by
  induction times using List.reverseRecOn with
  | nil => exact iff_of_true (fun _ h ↦ by cases h) fun i j first last _ h ↦ by cases h
  | append_singleton times s ih =>
    obtain ⟨hbefore, -, hlast⟩ := List.pairwise_append.mp htimes
    have hlater : ∀ r ∈ times, r ≤ s := fun r hr ↦ hlast r hr s (List.mem_singleton_self s)
    rw [granted_concat, conforms_concat, ← ih hbefore]
    refine and_congr_right fun hgranted ↦ ?_
    rw [le_level_afterAll hfull hbefore hlater hgranted, and_iff_right flow.one_le_capacity]
    simp only [add_comm (1 : K)]

end Flow

end Buckets
