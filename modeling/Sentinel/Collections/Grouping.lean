import Mathlib.Algebra.BigOperators.Group.List.Basic
import Mathlib.Data.List.Induction
import Mathlib.Data.List.Sort
import Mathlib.Order.Bounds.Basic
import Sentinel.Collections.Dict

/-!
# Grouping and sorted iteration

A list is divided into groups by a key, the groups being appended to in the order of the list. Each
key that occurs gets the members with that key and no others. So the groups neither lose nor repeat
a member, and whatever is summed over the members of the list may be summed group by group instead.

A dictionary that is written to for each member, with a value that depends on the key alone, has an
item for each key that occurs, whatever the order of the list.

Where a write keeps the greater one of the old value and the new one, each key ends up with the
greatest of its values.

The items of a dictionary can also be taken in the order of the keys. No key occurs twice, so the
order is strict and the values have no part in it.
-/

namespace Collections

variable {α β γ κ M : Type*}

/-! ## Sums by classes -/

section Classes

variable [DecidableEq κ] [AddCommMonoid M]

theorem sum_map_ite_eq {keys : List κ} (hnodup : keys.Nodup) {key : κ} (hmem : key ∈ keys)
    (value : M) : (keys.map fun key' ↦ if key = key' then value else 0).sum = value := by
  induction keys with
  | nil => cases hmem
  | cons first keys ih =>
    obtain ⟨hfirst, hrest⟩ := List.nodup_cons.mp hnodup
    rw [List.map_cons, List.sum_cons]
    by_cases heq : key = first
    · have hzero : ∀ value' ∈ keys.map fun key' ↦ if key = key' then value else 0, value' = 0 := by
        intro value' hvalue
        obtain ⟨key', hkey, rfl⟩ := List.mem_map.mp hvalue
        refine if_neg fun hsame ↦ hfirst ?_
        rwa [← heq, hsame]
      rw [if_pos heq, List.sum_eq_zero hzero, add_zero]
    · rw [if_neg heq, zero_add, ih hrest ((List.mem_cons.mp hmem).resolve_left heq)]

/-- **Sums may be taken class by class.** -/
theorem sum_map_sum_filter (key : α → κ) (f : α → M) {keys : List κ} (hnodup : keys.Nodup)
    {l : List α} (hmem : ∀ x ∈ l, key x ∈ keys) :
    (keys.map fun key' ↦ ((l.filter fun x ↦ key x = key').map f).sum).sum = (l.map f).sum := by
  induction l with
  | nil =>
    refine List.sum_eq_zero fun value hvalue ↦ ?_
    obtain ⟨key', -, rfl⟩ := List.mem_map.mp hvalue
    rfl
  | cons x l ih =>
    have hsplit : ∀ key', ((List.filter (fun x ↦ key x = key') (x :: l)).map f).sum
        = (if key x = key' then f x else 0) + ((l.filter fun x ↦ key x = key').map f).sum := by
      intro key'
      rw [List.filter_cons]
      by_cases heq : key x = key'
      · rw [if_pos (decide_eq_true heq), if_pos heq, List.map_cons, List.sum_cons]
      · rw [if_neg (by simpa using heq), if_neg heq, zero_add]
    simp only [hsplit]
    rw [List.sum_map_add, sum_map_ite_eq hnodup (hmem x List.mem_cons_self),
      ih fun y hy ↦ hmem y (List.mem_cons_of_mem x hy), List.map_cons, List.sum_cons]

end Classes

/-! ## Groups -/

section Group

variable [DecidableEq κ]

/-- `groups[key(x)].append(x)` for the members in order, where `groups` is a `defaultdict(list)`. -/
def group (key : α → κ) (l : List α) : Dict κ (List α) :=
  l.foldl (fun groups x ↦ groups.set (key x) ((groups.get (key x)).getD [] ++ [x])) Dict.empty

theorem group_concat (key : α → κ) (l : List α) (x : α) : group key (l ++ [x])
    = (group key l).set (key x) (((group key l).get (key x)).getD [] ++ [x]) := by
  rw [group, List.foldl_append]
  rfl

/-- **A group has the members with its key**, in their order. -/
theorem get_group (key : α → κ) (l : List α) (key' : κ) : (group key l).get key'
    = if key' ∈ l.map key then some (l.filter fun x ↦ key x = key') else none := by
  induction l using List.reverseRecOn generalizing key' with
  | nil => rfl
  | append_singleton l x ih =>
    have hgetD : ((group key l).get (key x)).getD [] = l.filter fun y ↦ key y = key x := by
      rw [ih]
      split_ifs with hmem
      · rfl
      · refine (List.filter_eq_nil_iff.mpr fun y hy heq ↦ hmem ?_).symm
        exact List.mem_map.mpr ⟨y, hy, of_decide_eq_true heq⟩
    rw [group_concat, Dict.get_set, hgetD, List.map_append, List.map_singleton, List.filter_append,
      List.filter_singleton]
    by_cases heq : key' = key x
    · subst heq
      rw [if_pos rfl, if_pos (List.mem_append_right _ (List.mem_singleton_self _)),
        decide_eq_true rfl, Bool.cond_true]
    · have hmem : key' ∈ l.map key ++ [key x] ↔ key' ∈ l.map key := by
        rw [List.mem_append, List.mem_singleton, or_iff_left heq]
      rw [if_neg heq, decide_eq_false (Ne.symm heq), Bool.cond_false, List.append_nil, ih]
      simp only [hmem]

theorem mem_keys_group {key : α → κ} {l : List α} {key' : κ} :
    key' ∈ (group key l).keys ↔ key' ∈ l.map key :=
  Dict.mem_keys_of_get_eq (get_group key l key')

theorem mem_items_group {key : α → κ} {l : List α} {item : κ × List α} :
    item ∈ (group key l).items ↔
      item.1 ∈ l.map key ∧ item.2 = l.filter fun x ↦ key x = item.1 := by
  rw [← Prod.mk.eta (p := item), ← Dict.get_eq_some, get_group]
  split_ifs with hmem
  · rw [Option.some_inj, eq_comm, and_iff_right hmem]
  · exact iff_of_false (fun h ↦ by cases h) fun h ↦ hmem h.1

theorem ne_nil_of_mem_items_group {key : α → κ} {l : List α} {item : κ × List α}
    (h : item ∈ (group key l).items) : item.2 ≠ [] := by
  obtain ⟨hmem, hitem⟩ := mem_items_group.mp h
  obtain ⟨x, hx, hkey⟩ := List.mem_map.mp hmem
  rw [hitem]
  exact List.ne_nil_of_mem (List.mem_filter.mpr ⟨hx, decide_eq_true hkey⟩)

/-- **Groups lose and repeat nothing**, whatever is summed over them. -/
theorem sum_items_group [AddCommMonoid M] (key : α → κ) (f : α → M) (l : List α) :
    ((group key l).items.map fun item ↦ (item.2.map f).sum).sum = (l.map f).sum := by
  have hitems : (group key l).items.map (fun item ↦ (item.2.map f).sum)
      = (group key l).keys.map fun key' ↦ ((l.filter fun x ↦ key x = key').map f).sum := by
    rw [Dict.keys, List.map_map]
    apply List.map_congr_left
    intro item hitem
    rw [(mem_items_group.mp hitem).2]
    rfl
  rw [hitems, sum_map_sum_filter key f (group key l).nodup_keys fun x hx ↦
    mem_keys_group.mpr (List.mem_map.mpr ⟨x, hx, rfl⟩)]

end Group

namespace Dict

/-! ## Overwriting -/

/-- **The last writer writes what the first one wrote**, where the value is a function of the
key. -/
theorem get_foldl_set [DecidableEq κ] (key : α → κ) (value : κ → β) (l : List α) (key' : κ) :
    (l.foldl (fun d x ↦ d.set (key x) (value (key x))) empty).get key'
      = if key' ∈ l.map key then some (value key') else none := by
  induction l using List.reverseRecOn with
  | nil => rfl
  | append_singleton l x ih =>
    rw [List.foldl_append, List.foldl_cons, List.foldl_nil, get_set, ih, List.map_append,
      List.map_singleton]
    by_cases heq : key' = key x
    · rw [if_pos heq, ← heq, if_pos (List.mem_append_right _ (List.mem_singleton_self _))]
    · have hmem : key' ∈ l.map key ++ [key x] ↔ key' ∈ l.map key := by
        rw [List.mem_append, List.mem_singleton, or_iff_left heq]
      rw [if_neg heq]
      simp only [hmem]

def keepMax [DecidableEq κ] [LinearOrder β] (floor : β) (d : Dict κ β) (item : κ × β) : Dict κ β :=
  d.set item.1 (max ((d.get item.1).getD floor) item.2)

theorem foldl_keepMax_cases [DecidableEq κ] [LinearOrder β] {floor : β} {items : List (κ × β)}
    (h : ∀ item ∈ items, floor ≤ item.2) (key : κ) :
    (items.foldl (keepMax floor) empty).get key = none ∧ {v | (key, v) ∈ items} = ∅ ∨
      ∃ value, (items.foldl (keepMax floor) empty).get key = some value ∧
        IsGreatest {v | (key, v) ∈ items} value := by
  induction items using List.reverseRecOn with
  | nil => exact .inl ⟨rfl, Set.eq_empty_of_forall_notMem fun _ ↦ List.not_mem_nil⟩
  | append_singleton items item ih =>
    have hitems := ih fun other hother ↦ h other (List.mem_append_left _ hother)
    have hfloor : floor ≤ item.2 := h item (List.mem_append_right _ List.mem_cons_self)
    rw [List.foldl_append, List.foldl_cons, List.foldl_nil, keepMax, get_set]
    obtain ⟨key', new⟩ := item
    by_cases hkey : key = key'
    · subst hkey
      have hvalues : {v | (key, v) ∈ items ++ [(key, new)]}
          = Insert.insert new {v | (key, v) ∈ items} := by
        ext v
        simp [or_comm]
      rw [if_pos rfl, hvalues]
      refine .inr ⟨_, rfl, ?_⟩
      rcases hitems with ⟨hnone, hempty⟩ | ⟨old, hold, hgreatest⟩
      · rw [hnone, hempty, Option.getD_none, max_eq_right hfloor, insert_empty_eq]
        exact isGreatest_singleton
      · rw [hold, Option.getD_some, max_comm]
        exact hgreatest.insert new
    · have hvalues : {v | (key, v) ∈ items ++ [(key', new)]} = {v | (key, v) ∈ items} := by
        ext v
        simp [hkey]
      rw [if_neg hkey, hvalues]
      exact hitems

/-- **The greatest value of each key is kept**, where none lies under the value that is taken for a
key without one. -/
theorem get_foldl_keepMax [DecidableEq κ] [LinearOrder β] {floor : β} {items : List (κ × β)}
    (h : ∀ item ∈ items, floor ≤ item.2) {key : κ} {value : β} :
    (items.foldl (keepMax floor) empty).get key = some value
      ↔ IsGreatest {v | (key, v) ∈ items} value := by
  rcases foldl_keepMax_cases h key with ⟨hnone, hempty⟩ | ⟨greatest, hget, hgreatest⟩
  · rw [hnone, hempty]
    exact iff_of_false nofun fun hvalue ↦ hvalue.1
  · rw [hget, Option.some_inj]
    exact ⟨fun heq ↦ heq ▸ hgreatest, hgreatest.unique⟩

/-- `{key: value for key, value in items}`. -/
def ofItems [DecidableEq κ] (items : List (κ × β)) : Dict κ β :=
  items.foldl (fun d item ↦ d.set item.1 item.2) empty

theorem ofItems_concat [DecidableEq κ] (items : List (κ × β)) (item : κ × β) :
    ofItems (items ++ [item]) = (ofItems items).set item.1 item.2 := by
  rw [ofItems, ofItems, List.foldl_append]
  rfl

/-- **The last item of a key counts.** -/
theorem get_ofItems [DecidableEq κ] (items : List (κ × β)) (key : κ) :
    (ofItems items).get key = lookup key items.reverse := by
  induction items using List.reverseRecOn with
  | nil => rfl
  | append_singleton items item ih =>
    rw [ofItems_concat, get_set, List.reverse_append, List.reverse_singleton,
      List.singleton_append, lookup, ih]
    simp only [eq_comm]

theorem items_ofItems [DecidableEq κ] {items : List (κ × β)}
    (h : (items.map Prod.fst).Nodup) : (ofItems items).items = items := by
  induction items using List.reverseRecOn with
  | nil => rfl
  | append_singleton items item ih =>
    rw [List.map_append, List.nodup_append] at h
    obtain ⟨hitems, -, hdisjoint⟩ := h
    have hnew : item.1 ∉ items.map Prod.fst := fun hmem ↦
      hdisjoint _ hmem _ (List.mem_singleton_self _) rfl
    have hstep : (ofItems (items ++ [item])).items
        = insert item.1 item.2 (ofItems items).items := by
      rw [ofItems, List.foldl_append]
      rfl
    rw [hstep, ih hitems, insert_of_not_mem hnew]

variable [LinearOrder κ]

/-- `sorted(d)`. -/
def sortedKeys (d : Dict κ β) : List κ := d.keys.insertionSort (· ≤ ·)

/-- `sorted(d.items())`. -/
def sortedItems (d : Dict κ β) : List (κ × β) :=
  d.items.insertionSort fun item item' ↦ item.1 ≤ item'.1

theorem mem_sortedKeys {d : Dict κ β} {key : κ} : key ∈ d.sortedKeys ↔ key ∈ d.keys :=
  List.mem_insertionSort _

theorem sortedLT_sortedKeys (d : Dict κ β) : d.sortedKeys.SortedLT :=
  d.keys.sortedLE_insertionSort.sortedLT_of_nodup
    ((List.perm_insertionSort _ d.keys).nodup_iff.mpr d.nodup_keys)

/-- The order is one of the keys alone. -/
theorem sortedKeys_congr {d : Dict κ β} {e : Dict κ γ} (h : ∀ key, key ∈ d.keys ↔ key ∈ e.keys) :
    d.sortedKeys = e.sortedKeys :=
  d.sortedLT_sortedKeys.eq_of_mem_iff e.sortedLT_sortedKeys fun key ↦ by
    rw [mem_sortedKeys, mem_sortedKeys, h]

theorem sortedItems_perm (d : Dict κ β) : d.sortedItems.Perm d.items := List.perm_insertionSort _ _

theorem nodup_sortedItems (d : Dict κ β) : (d.sortedItems.map Prod.fst).Nodup :=
  (d.sortedItems_perm.map Prod.fst).nodup_iff.mpr d.nodup

end Dict

end Collections
