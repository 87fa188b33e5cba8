import Mathlib.Data.List.Induction
import Mathlib.Data.Option.Basic

/-!
# Runs of a partial step function

A system is given by a step function `step : σ → α → Option σ`: in state `s` the action `a` is
possible when `step s a` is `some`. A run performs a list of actions, and everything a development
wants to say about all runs is obtained from what one step does.

Three induction rules cover the uses. An invariant is a predicate that each step preserves; it may
also refer to the actions that the run has performed so far. The third rule is for properties that
hold only of runs whose steps avoid something: `Along C s as` says that every step of the run of
`as` from `s` is taken in a state and by an action satisfying `C`, and the invariant then has to be
preserved by such steps only.
-/

namespace Transition

variable {σ α : Type*} {step : σ → α → Option σ}

/-- The state after performing the actions in order, if each of them is possible in its turn. -/
def run (step : σ → α → Option σ) : σ → List α → Option σ
  | s, [] => some s
  | s, a :: as => (step s a).bind fun s' ↦ run step s' as

@[simp] theorem run_nil (s : σ) : run step s [] = some s := rfl

theorem run_cons (s : σ) (a : α) (as : List α) :
    run step s (a :: as) = (step s a).bind fun s' ↦ run step s' as := rfl

theorem run_cons_eq_some {s t : σ} {a : α} {as : List α} :
    run step s (a :: as) = some t ↔ ∃ s', step s a = some s' ∧ run step s' as = some t := by
  rw [run_cons, Option.bind_eq_some_iff]

theorem run_append_eq_some {s t : σ} {as bs : List α} :
    run step s (as ++ bs) = some t ↔ ∃ s', run step s as = some s' ∧ run step s' bs = some t := by
  induction as generalizing s with
  | nil => simp [run]
  | cons a as ih =>
    rw [List.cons_append, run_cons_eq_some]
    simp only [ih, run_cons_eq_some]
    constructor
    · rintro ⟨s₁, hs₁, s', hs', hrest⟩
      exact ⟨s', ⟨s₁, hs₁, hs'⟩, hrest⟩
    · rintro ⟨s', ⟨s₁, hs₁, hs'⟩, hrest⟩
      exact ⟨s₁, hs₁, s', hs', hrest⟩

theorem run_concat_eq_some {s t : σ} {as : List α} {a : α} :
    run step s (as ++ [a]) = some t ↔ ∃ s', run step s as = some s' ∧ step s' a = some t := by
  simp only [run_append_eq_some, run_cons_eq_some, run_nil, Option.some_inj, exists_eq_right]

/-! ## Invariants -/

/-- **The invariant rule.** -/
theorem run_invariant {P : σ → Prop} (hstep : ∀ {s a s'}, P s → step s a = some s' → P s') :
    ∀ {as : List α} {s t : σ}, P s → run step s as = some t → P t := by
  intro as
  induction as with
  | nil =>
    intro s t hs h
    rw [run_nil, Option.some_inj] at h
    exact h ▸ hs
  | cons a as ih =>
    intro s t hs h
    obtain ⟨s', hs', h'⟩ := run_cons_eq_some.mp h
    exact ih (hstep hs hs') h'

/-- The invariant rule for what may refer to the actions so far. -/
theorem run_history {P : List α → σ → Prop} {s : σ} (hinit : P [] s)
    (hstep : ∀ {as : List α} {t t' : σ} {a : α}, run step s as = some t → P as t →
      step t a = some t' → P (as ++ [a]) t') :
    ∀ {as : List α} {t : σ}, run step s as = some t → P as t := by
  intro as
  induction as using List.reverseRecOn with
  | nil =>
    intro t h
    rw [run_nil, Option.some_inj] at h
    exact h ▸ hinit
  | append_singleton as a ih =>
    intro t h
    obtain ⟨s', hs', ha⟩ := run_concat_eq_some.mp h
    exact hstep hs' (ih hs') ha

/-! ## Runs whose steps meet a condition -/

/-- Every step that the run of the actions from the state takes meets the condition, which reads
the state before the step and the action. -/
def Along (step : σ → α → Option σ) (C : σ → α → Prop) : σ → List α → Prop
  | _, [] => True
  | s, a :: as => C s a ∧ ∀ s', step s a = some s' → Along step C s' as

theorem along_of_forall {C : σ → α → Prop} {D : α → Prop} (hCD : ∀ {s a}, D a → C s a) :
    ∀ {as : List α} (s : σ), (∀ a ∈ as, D a) → Along step C s as := by
  intro as
  induction as with
  | nil => intro _ _; trivial
  | cons a as ih =>
    intro s h
    exact ⟨hCD (h a List.mem_cons_self), fun s' _ ↦
      ih s' fun b hb ↦ h b (List.mem_cons_of_mem a hb)⟩

theorem Along.and {C D : σ → α → Prop} : ∀ {as : List α} {s : σ}, Along step C s as →
    Along step D s as → Along step (fun s a ↦ C s a ∧ D s a) s as := by
  intro as
  induction as with
  | nil => intro _ _ _; trivial
  | cons a as ih => exact fun h h' ↦ ⟨⟨h.1, h'.1⟩, fun s' hs' ↦ ih (h.2 s' hs') (h'.2 s' hs')⟩

theorem Along.mono {C D : σ → α → Prop} (hCD : ∀ {s a}, C s a → D s a) :
    ∀ {as : List α} {s : σ}, Along step C s as → Along step D s as := by
  intro as
  induction as with
  | nil => intro _ _; trivial
  | cons a as ih => exact fun h ↦ ⟨hCD h.1, fun s' hs' ↦ ih (h.2 s' hs')⟩

theorem along_append {C : σ → α → Prop} {as bs : List α} {s t : σ} (hs : run step s as = some t) :
    Along step C s (as ++ bs) ↔ Along step C s as ∧ Along step C t bs := by
  induction as generalizing s with
  | nil =>
    rw [run_nil, Option.some_inj] at hs
    subst hs
    exact ⟨fun h ↦ ⟨trivial, h⟩, fun h ↦ h.2⟩
  | cons a as ih =>
    obtain ⟨s', hs', hrun⟩ := run_cons_eq_some.mp hs
    have hnext : ∀ {s''}, step s a = some s'' → s'' = s' := fun hs'' ↦
      Option.some_inj.mp (hs''.symm.trans hs')
    constructor
    · intro h
      refine ⟨⟨h.1, fun s'' hs'' ↦ ?_⟩, ((ih hrun).mp (h.2 s' hs')).2⟩
      exact hnext hs'' ▸ ((ih hrun).mp (h.2 s' hs')).1
    · intro h
      refine ⟨h.1.1, fun s'' hs'' ↦ ?_⟩
      rw [hnext hs'']
      exact (ih hrun).mpr ⟨h.1.2 s' hs', h.2⟩

instance decidableAlong {C : σ → α → Prop} [∀ s a, Decidable (C s a)] :
    ∀ (s : σ) (as : List α), Decidable (Along step C s as)
  | _, [] => .isTrue trivial
  | s, a :: as =>
    match hs : step s a with
    | none =>
      decidable_of_iff (C s a) ⟨fun h ↦ ⟨h, fun s' hs' ↦ by rw [hs] at hs'; cases hs'⟩, fun h ↦ h.1⟩
    | some s' =>
      letI : Decidable (Along step C s' as) := decidableAlong s' as
      decidable_of_iff (C s a ∧ Along step C s' as)
        ⟨fun h ↦ ⟨h.1, fun s'' hs'' ↦ Option.some_inj.mp (hs.symm.trans hs'') ▸ h.2⟩,
          fun h ↦ ⟨h.1, h.2 s' hs⟩⟩

/-- The invariant rule for runs whose steps all meet a condition. -/
theorem run_invariant_along {P : σ → Prop} {C : σ → α → Prop}
    (hstep : ∀ {s a s'}, P s → C s a → step s a = some s' → P s') :
    ∀ {as : List α} {s t : σ}, P s → Along step C s as → run step s as = some t → P t := by
  intro as
  induction as with
  | nil =>
    intro s t hs _ h
    rw [run_nil, Option.some_inj] at h
    exact h ▸ hs
  | cons a as ih =>
    intro s t hs hC h
    obtain ⟨s', hs', h'⟩ := run_cons_eq_some.mp h
    exact ih (hstep hs hC.1 hs') (hC.2 s' hs') h'

end Transition
