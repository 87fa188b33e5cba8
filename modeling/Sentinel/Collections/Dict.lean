import Mathlib.Data.List.Nodup
import Mathlib.Tactic.SplitIfs

/-!
# Insertion-ordered dictionaries

The dictionaries of Python: a new key goes to the end, and a key that is there already keeps its
place when its value is replaced. The order is part of the value, because iteration shows it. Two
dictionaries that answer every lookup alike may therefore still differ, and equality of
dictionaries in this file is the finer one.
-/

namespace Collections

/-- A dictionary: its items in order of first insertion, no key twice. -/
structure Dict (κ β : Type*) where
  items : List (κ × β)
  nodup : (items.map Prod.fst).Nodup

namespace Dict

variable {κ β : Type*} [DecidableEq κ]

instance [DecidableEq β] : DecidableEq (Dict κ β) := fun d e ↦
  decidable_of_iff (d.items = e.items) (by cases d; cases e; simp)

def empty : Dict κ β := ⟨[], List.nodup_nil⟩

/-- The value of the first item with the key. -/
def lookup (key : κ) : List (κ × β) → Option β
  | [] => none
  | item :: items => if item.1 = key then some item.2 else lookup key items

def insert (key : κ) (value : β) : List (κ × β) → List (κ × β)
  | [] => [(key, value)]
  | item :: items =>
    if item.1 = key then (key, value) :: items else item :: insert key value items

theorem map_fst_insert (key : κ) (value : β) (items : List (κ × β)) :
    (insert key value items).map Prod.fst
      = if key ∈ items.map Prod.fst then items.map Prod.fst
        else items.map Prod.fst ++ [key] := by
  induction items with
  | nil => rfl
  | cons item items ih =>
    rw [insert]
    by_cases hkey : item.1 = key
    · rw [if_pos hkey, List.map_cons, List.map_cons, hkey, if_pos List.mem_cons_self]
    · have hmem : key ∈ (item :: items).map Prod.fst ↔ key ∈ items.map Prod.fst := by
        rw [List.map_cons, List.mem_cons, or_iff_right (Ne.symm hkey)]
      rw [if_neg hkey, List.map_cons, ih]
      simp only [hmem]
      split_ifs
      · rw [List.map_cons]
      · rw [List.map_cons, List.cons_append]

theorem insert_of_not_mem {key : κ} {items : List (κ × β)} (h : key ∉ items.map Prod.fst)
    (value : β) : insert key value items = items ++ [(key, value)] := by
  induction items with
  | nil => rfl
  | cons item items ih =>
    rw [List.map_cons, List.mem_cons, not_or] at h
    rw [insert, if_neg (Ne.symm h.1), ih h.2, List.cons_append]

theorem nodup_insert {key : κ} {value : β} {items : List (κ × β)}
    (h : (items.map Prod.fst).Nodup) : ((insert key value items).map Prod.fst).Nodup := by
  rw [map_fst_insert]
  split_ifs with hmem
  · exact h
  · refine List.nodup_append.mpr ⟨h, List.nodup_singleton key, ?_⟩
    intro key' hmem' key'' hmem'' heq
    rw [List.mem_singleton] at hmem''
    exact hmem (hmem'' ▸ heq ▸ hmem')

theorem lookup_insert (key key' : κ) (value : β) (items : List (κ × β)) :
    lookup key' (insert key value items)
      = if key' = key then some value else lookup key' items := by
  induction items with
  | nil =>
    simp only [insert, lookup]
    by_cases h : key = key'
    · rw [if_pos h, if_pos h.symm]
    · rw [if_neg h, if_neg (Ne.symm h)]
  | cons item items ih =>
    rw [insert]
    by_cases hkey : item.1 = key
    · rw [if_pos hkey, lookup, lookup]
      by_cases h : key = key'
      · rw [if_pos h, if_pos h.symm]
      · rw [if_neg h, if_neg (Ne.symm h), if_neg (hkey ▸ h)]
    · rw [if_neg hkey, lookup, lookup, ih]
      by_cases h : item.1 = key'
      · rw [if_pos h, if_pos h, if_neg (h ▸ hkey)]
      · rw [if_neg h, if_neg h]

/-- `d.get(key)`. -/
def get (d : Dict κ β) (key : κ) : Option β := lookup key d.items

/-- `d[key] = value`. -/
def set (d : Dict κ β) (key : κ) (value : β) : Dict κ β :=
  ⟨insert key value d.items, nodup_insert d.nodup⟩

/-- `d.keys()`. -/
def keys (d : Dict κ β) : List κ := d.items.map Prod.fst

/-- `d.values()`. -/
def values (d : Dict κ β) : List β := d.items.map Prod.snd

theorem get_set (d : Dict κ β) (key key' : κ) (value : β) :
    (d.set key value).get key' = if key' = key then some value else d.get key' :=
  lookup_insert key key' value d.items

@[simp] theorem get_set_self (d : Dict κ β) (key : κ) (value : β) :
    (d.set key value).get key = some value := by
  rw [get_set, if_pos rfl]

theorem get_set_of_ne {key key' : κ} (h : key' ≠ key) (d : Dict κ β) (value : β) :
    (d.set key value).get key' = d.get key' := by
  rw [get_set, if_neg h]

/-- The dictionary after `del d[key]` for the items that fail the test. -/
def filter (p : κ × β → Bool) (d : Dict κ β) : Dict κ β :=
  ⟨d.items.filter p, d.nodup.sublist (List.filter_sublist.map _)⟩

/-! ## The items -/

theorem lookup_eq_some {items : List (κ × β)} (h : (items.map Prod.fst).Nodup) {key : κ}
    {value : β} : lookup key items = some value ↔ (key, value) ∈ items := by
  induction items with
  | nil => simp [lookup]
  | cons item items ih =>
    rw [List.map_cons, List.nodup_cons] at h
    rw [lookup, List.mem_cons]
    by_cases hkey : item.1 = key
    · rw [if_pos hkey]
      constructor
      · intro hvalue
        exact .inl (Prod.ext hkey.symm (Option.some_inj.mp hvalue).symm)
      · rintro (rfl | hmem)
        · rfl
        · exact absurd (List.mem_map.mpr ⟨_, hmem, hkey.symm⟩) h.1
    · have hne : (key, value) ≠ item := fun heq ↦ hkey (heq ▸ rfl)
      rw [if_neg hkey, ih h.2, or_iff_right hne]

theorem get_eq_some {d : Dict κ β} {key : κ} {value : β} :
    d.get key = some value ↔ (key, value) ∈ d.items :=
  lookup_eq_some d.nodup

theorem find?_items (d : Dict κ β) (key : κ) :
    d.items.find? (fun item ↦ key = item.1) = (d.get key).map fun value ↦ (key, value) := by
  obtain ⟨items, hnodup⟩ := d
  rw [get]
  induction items with
  | nil => rfl
  | cons item items ih =>
    rw [List.map_cons, List.nodup_cons] at hnodup
    rw [List.find?_cons, lookup]
    by_cases hkey : item.1 = key
    · rw [decide_eq_true hkey.symm, if_pos hkey, Option.map_some, ← hkey]
    · rw [decide_eq_false (Ne.symm hkey), if_neg hkey]
      exact ih hnodup.2

theorem get_filter {p : κ × β → Bool} {d : Dict κ β} {key : κ} :
    (d.filter p).get key = (d.get key).filter fun value ↦ p (key, value) := by
  ext value
  rw [get_eq_some, Option.filter_eq_some_iff, get_eq_some, filter, List.mem_filter]

theorem filter_items_of_get {d : Dict κ β} {key : κ} {value : β} (h : d.get key = some value) :
    d.items.filter (fun item ↦ item.1 = key) = [(key, value)] := by
  obtain ⟨items, hnodup⟩ := d
  rw [get_eq_some] at h
  induction items with
  | nil => cases h
  | cons item items ih =>
    rw [List.map_cons, List.nodup_cons] at hnodup
    rcases List.mem_cons.mp h with rfl | h
    · have hrest : items.filter (fun item ↦ item.1 = key) = [] :=
        List.filter_eq_nil_iff.mpr fun item hitem hkey ↦
          hnodup.1 (List.mem_map.mpr ⟨item, hitem, of_decide_eq_true hkey⟩)
      rw [List.filter_cons, if_pos (decide_eq_true rfl), hrest]
    · have hne : ¬item.1 = key := fun hkey ↦
        hnodup.1 (List.mem_map.mpr ⟨(key, value), h, hkey.symm⟩)
      rw [List.filter_cons, if_neg (by simpa using hne)]
      exact ih hnodup.2 h

omit [DecidableEq κ] in
theorem nodup_keys (d : Dict κ β) : d.keys.Nodup := d.nodup

omit [DecidableEq κ] in
@[simp] theorem length_keys (d : Dict κ β) : d.keys.length = d.items.length := List.length_map _

theorem mem_keys {d : Dict κ β} {key : κ} : key ∈ d.keys ↔ ∃ value, d.get key = some value := by
  simp only [get_eq_some, keys, List.mem_map, Prod.exists, exists_and_right, exists_eq_right]

theorem mem_keys_of_get_eq {d : Dict κ β} {key : κ} {value : β} {p : Prop} [Decidable p]
    (h : d.get key = if p then some value else none) : key ∈ d.keys ↔ p := by
  rw [mem_keys, h]
  split_ifs with hp
  · exact iff_of_true ⟨_, rfl⟩ hp
  · exact iff_of_false (fun ⟨_, hnone⟩ ↦ by cases hnone) hp

theorem keys_set (d : Dict κ β) (key : κ) (value : β) :
    (d.set key value).keys = if key ∈ d.keys then d.keys else d.keys ++ [key] :=
  map_fst_insert key value d.items

omit [DecidableEq κ] in
theorem keys_filter_sublist (p : κ × β → Bool) (d : Dict κ β) : (d.filter p).keys.Sublist d.keys :=
  List.filter_sublist.map Prod.fst

theorem mem_values {d : Dict κ β} {value : β} :
    value ∈ d.values ↔ ∃ key, d.get key = some value := by
  simp only [get_eq_some, values, List.mem_map, Prod.exists, exists_eq_right]

end Dict

end Collections
