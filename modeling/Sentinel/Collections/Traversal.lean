import Mathlib.Data.List.Forall2

/-!
# Loops that check

A comprehension over a list that may raise. Where its body succeeds on a member exactly if a test
holds, and then gives what a total function gives, the comprehension succeeds exactly if the test
holds of every member, and then gives the values of that function. The conclusion has the form of
the hypothesis, so the rule serves for nested loops too.
-/

namespace Collections

universe u

variable {α ε : Type*} {β γ : Type u}

theorem bind_eq_ok {x : Except ε β} {f : β → Except ε γ} {y : γ} :
    x >>= f = .ok y ↔ ∃ value, x = .ok value ∧ f value = .ok y := by
  cases x with
  | error e =>
    refine iff_of_false (fun h ↦ by cases h) ?_
    rintro ⟨value, hvalue, -⟩
    cases hvalue
  | ok value =>
    constructor
    · exact fun h ↦ ⟨value, rfl, h⟩
    · rintro ⟨_, ⟨⟩, h⟩
      exact h

/-- **A comprehension that checks.** -/
theorem mapM_eq_ok_iff {f : α → Except ε β} {p : α → Prop} {g : α → β} {l : List α}
    (hf : ∀ x ∈ l, ∀ y, f x = .ok y ↔ p x ∧ y = g x) {ys : List β} :
    l.mapM f = .ok ys ↔ (∀ x ∈ l, p x) ∧ ys = l.map g := by
  induction l generalizing ys with
  | nil =>
    rw [List.mapM_nil, List.map_nil, and_iff_right fun x hx ↦ absurd hx List.not_mem_nil]
    constructor
    · rintro ⟨⟩
      rfl
    · rintro rfl
      rfl
  | cons x l ih =>
    rw [List.forall_mem_cons] at hf
    obtain ⟨hfirst, hrest⟩ := hf
    rw [List.mapM_cons, bind_eq_ok, List.forall_mem_cons, List.map_cons]
    constructor
    · rintro ⟨y, hy, hys⟩
      obtain ⟨hx, rfl⟩ := (hfirst y).mp hy
      obtain ⟨zs, hzs, hpure⟩ := bind_eq_ok.mp hys
      obtain ⟨hall, rfl⟩ := (ih hrest).mp hzs
      cases hpure
      exact ⟨⟨hx, hall⟩, rfl⟩
    · rintro ⟨⟨hx, hall⟩, rfl⟩
      refine ⟨g x, (hfirst _).mpr ⟨hx, rfl⟩, bind_eq_ok.mpr ?_⟩
      exact ⟨l.map g, (ih hrest).mpr ⟨hall, rfl⟩, rfl⟩

theorem mapM_eq_ok_iff_forall₂ {f : α → Except ε β} {l : List α} {ys : List β} :
    l.mapM f = .ok ys ↔ List.Forall₂ (fun x y ↦ f x = .ok y) l ys := by
  induction l generalizing ys with
  | nil =>
    rw [List.mapM_nil, List.forall₂_nil_left_iff]
    exact ⟨fun h ↦ (Except.ok.inj h).symm, fun h ↦ h ▸ rfl⟩
  | cons x l ih =>
    rw [List.mapM_cons, bind_eq_ok, List.forall₂_cons_left_iff]
    constructor
    · rintro ⟨y, hy, hys⟩
      obtain ⟨zs, hzs, hpure⟩ := bind_eq_ok.mp hys
      exact ⟨y, zs, hy, ih.mp hzs, (Except.ok.inj hpure).symm⟩
    · rintro ⟨y, zs, hy, hzs, rfl⟩
      exact ⟨y, hy, bind_eq_ok.mpr ⟨zs, ih.mpr hzs, rfl⟩⟩

theorem mem_of_mapM_eq_ok {f : α → Except ε β} {l : List α} {ys : List β} (h : l.mapM f = .ok ys)
    {y : β} : y ∈ ys ↔ ∃ x ∈ l, f x = .ok y := by
  rw [mapM_eq_ok_iff_forall₂] at h
  induction h with
  | nil => exact iff_of_false List.not_mem_nil fun ⟨_, hmem, _⟩ ↦ List.not_mem_nil hmem
  | cons hfirst hrest ih =>
    rw [List.mem_cons, List.exists_mem_cons_iff, ih, hfirst, Except.ok.injEq, eq_comm]

theorem exists_of_mapM_eq_ok {f : α → Except ε β} {l : List α} {ys : List β} (h : l.mapM f = .ok ys)
    {x : α} (hx : x ∈ l) : ∃ y ∈ ys, f x = .ok y := by
  rw [mapM_eq_ok_iff_forall₂] at h
  induction h with
  | nil => exact absurd hx List.not_mem_nil
  | cons hfirst hrest ih =>
    rcases List.mem_cons.mp hx with rfl | hx
    · exact ⟨_, List.mem_cons_self, hfirst⟩
    · obtain ⟨y, hy, hvalue⟩ := ih hx
      exact ⟨y, List.mem_cons_of_mem _ hy, hvalue⟩

theorem nodup_of_mapM_eq_ok {κ κ' : Type*} {f : α → Except ε β} {key : α → κ} {key' : β → κ'}
    (hf : ∀ {x x' y y'}, f x = .ok y → f x' = .ok y' → key' y = key' y' → key x = key x')
    {l : List α} {ys : List β} (hnodup : (l.map key).Nodup) (h : l.mapM f = .ok ys) :
    (ys.map key').Nodup := by
  have hall := h
  rw [mapM_eq_ok_iff_forall₂] at hall
  clear h
  induction hall with
  | nil => exact List.nodup_nil
  | @cons x y l ys hfirst hrest ih =>
    rw [List.map_cons, List.nodup_cons] at hnodup ⊢
    refine ⟨fun hmem ↦ hnodup.1 ?_, ih hnodup.2⟩
    obtain ⟨y', hy', hkey⟩ := List.mem_map.mp hmem
    obtain ⟨x', hx', hvalue⟩ := (mem_of_mapM_eq_ok (mapM_eq_ok_iff_forall₂.mpr hrest)).mp hy'
    exact List.mem_map.mpr ⟨x', hx', hf hvalue hfirst hkey⟩

/-- **A loop that reads each member and then goes on** reads them all first. -/
theorem foldlM_eq_ok_iff {σ : Type u} {f : α → Except ε β} {g : σ → β → σ} {l : List α} {s t : σ} :
    l.foldlM (fun s x ↦ f x >>= fun y ↦ pure (g s y)) s = .ok t ↔
      ∃ ys, l.mapM f = .ok ys ∧ t = ys.foldl g s := by
  induction l generalizing s with
  | nil =>
    rw [List.foldlM_nil, List.mapM_nil]
    constructor
    · exact fun h ↦ ⟨[], rfl, (Except.ok.inj h).symm⟩
    · rintro ⟨_, ⟨⟩, rfl⟩
      rfl
  | cons x l ih =>
    rw [List.foldlM_cons, List.mapM_cons, bind_eq_ok]
    constructor
    · rintro ⟨s', hs', hrest⟩
      obtain ⟨y, hy, hpure⟩ := bind_eq_ok.mp hs'
      cases hpure
      obtain ⟨ys, hys, rfl⟩ := ih.mp hrest
      exact ⟨y :: ys, bind_eq_ok.mpr ⟨y, hy, bind_eq_ok.mpr ⟨ys, hys, rfl⟩⟩, rfl⟩
    · rintro ⟨_, hys, rfl⟩
      obtain ⟨y, hy, hrest⟩ := bind_eq_ok.mp hys
      obtain ⟨zs, hzs, hpure⟩ := bind_eq_ok.mp hrest
      cases hpure
      exact ⟨g s y, bind_eq_ok.mpr ⟨y, hy, rfl⟩, ih.mpr ⟨zs, hzs, rfl⟩⟩

/-- **A loop that raises** has gone through a first part and raises on the next member. -/
theorem foldlM_eq_error_iff {σ : Type u} {f : σ → α → Except ε σ} {l : List α} {s : σ} {e : ε} :
    l.foldlM f s = .error e ↔ ∃ before x after t, l = before ++ x :: after ∧
      before.foldlM f s = .ok t ∧ f t x = .error e := by
  induction l generalizing s with
  | nil =>
    rw [List.foldlM_nil]
    refine iff_of_false (fun h ↦ by cases h) ?_
    rintro ⟨before, x, after, t, hsplit, -⟩
    exact List.cons_ne_nil _ _ (List.append_eq_nil_iff.mp hsplit.symm).2
  | cons y l ih =>
    rw [List.foldlM_cons]
    constructor
    · intro h
      cases hy : f s y with
      | error e' =>
        rw [hy] at h
        cases h
        exact ⟨[], y, l, s, rfl, rfl, hy⟩
      | ok s' =>
        rw [hy] at h
        obtain ⟨before, x, after, t, rfl, hbefore, hx⟩ := ih.mp h
        exact ⟨y :: before, x, after, t, rfl, bind_eq_ok.mpr ⟨s', hy, hbefore⟩, hx⟩
    · rintro ⟨_ | ⟨z, before⟩, x, after, t, hsplit, hbefore, hx⟩
      · obtain ⟨rfl, rfl⟩ := List.cons.inj hsplit
        cases hbefore
        rw [hx]
        rfl
      · obtain ⟨rfl, rfl⟩ := List.cons.inj hsplit
        obtain ⟨s', hs', hrest⟩ := bind_eq_ok.mp hbefore
        rw [hs']
        exact ih.mpr ⟨before, x, after, t, rfl, hrest, hx⟩

theorem exists_forall₂_of_filterMap {α β γ : Type*} {R : α → γ → Prop} {f : β → Option γ}
    {xs : List α} {ys : List β} (h : List.Forall₂ R xs (ys.filterMap f)) :
    ∃ zs, zs.Sublist ys ∧ List.Forall₂ (fun x y ↦ ∃ z, f y = some z ∧ R x z) xs zs := by
  induction ys generalizing xs with
  | nil =>
    rw [List.filterMap_nil, List.forall₂_nil_right_iff] at h
    exact ⟨[], List.Sublist.refl [], h ▸ .nil⟩
  | cons y ys ih =>
    cases hy : f y with
    | none =>
      rw [List.filterMap_cons_none hy] at h
      obtain ⟨zs, hsublist, hrelated⟩ := ih h
      exact ⟨zs, hsublist.cons y, hrelated⟩
    | some z =>
      rw [List.filterMap_cons_some hy] at h
      obtain ⟨x, rest, hx, hrest, rfl⟩ := List.forall₂_cons_right_iff.mp h
      obtain ⟨zs, hsublist, hrelated⟩ := ih hrest
      exact ⟨y :: zs, hsublist.cons_cons y, .cons ⟨z, hy, hx⟩ hrelated⟩

end Collections
