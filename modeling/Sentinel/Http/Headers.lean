import Mathlib.Data.List.Basic
import Mathlib.Tactic.SplitIfs

/-!
# Header fields

What a server does with the header fields of a message: it reads a field and it sets one. The case
of a name does not matter. `HeaderStore` is an interface with the one law that a server relies on,
and `fieldList` is the representation by a list, where a field that is set takes the place of the
first one with the name and the others with it are dropped.

A server that sets several fields decides about them and about no other one: `get_setAll`.
-/

namespace Http

/-- A name as it is compared. -/
def folded (name : String) : List Char := name.toList.map Char.toLower

/-- A representation of header fields. -/
structure HeaderStore (H : Type*) where
  get : H → String → Option String
  set : H → String → String → H
  get_set : ∀ fields name value name', get (set fields name value) name'
    = if folded name' = folded name then some value else get fields name'

namespace HeaderStore

variable {H : Type*} (store : HeaderStore H)

def setAll (fields : H) (updates : List (String × String)) : H :=
  updates.foldl (fun fields update ↦ store.set fields update.1 update.2) fields

/-- The value that the last update of a name gives to it. -/
def lastValue (name : String) : List (String × String) → Option String
  | [] => none
  | update :: updates =>
    (lastValue name updates).or (if folded name = folded update.1 then some update.2 else none)

/-- **What is read after some updates** is the last of them, or what was there. -/
theorem get_setAll (fields : H) (updates : List (String × String)) (name : String) :
    store.get (store.setAll fields updates) name
      = (lastValue name updates).or (store.get fields name) := by
  induction updates generalizing fields with
  | nil => rfl
  | cons update updates ih =>
    rw [setAll, List.foldl_cons, ← setAll, ih, store.get_set, lastValue, Option.or_assoc]
    split_ifs <;> rfl

theorem get_setAll_of_some {fields : H} {updates : List (String × String)} {name value : String}
    (h : lastValue name updates = some value) :
    store.get (store.setAll fields updates) name = some value := by
  rw [get_setAll, h, Option.some_or]

theorem lastValue_eq_none {updates : List (String × String)} {name : String}
    (h : folded name ∉ updates.map fun update ↦ folded update.1) :
    lastValue name updates = none := by
  induction updates with
  | nil => rfl
  | cons update updates ih =>
    rw [List.map_cons, List.mem_cons, not_or] at h
    rw [lastValue, ih h.2, if_neg h.1, Option.or_none]

/-- Where no name is set twice, every update is the last of its name. -/
theorem lastValue_of_mem {updates : List (String × String)} {name value : String}
    (hnodup : (updates.map fun update ↦ folded update.1).Nodup) (h : (name, value) ∈ updates) :
    lastValue name updates = some value := by
  induction updates with
  | nil => cases h
  | cons update updates ih =>
    rw [List.map_cons, List.nodup_cons] at hnodup
    rw [lastValue]
    rcases List.mem_cons.mp h with rfl | h
    · rw [lastValue_eq_none hnodup.1, if_pos rfl, Option.none_or]
    · rw [ih hnodup.2 h, Option.some_or]

end HeaderStore

/-! ## Fields in a list -/

/-- The value of the first field with the name. -/
def getField (name : String) : List (String × String) → Option String
  | [] => none
  | field :: fields => if folded field.1 = folded name then some field.2 else getField name fields

/-- The fields after one of them has been set. -/
def setField (name value : String) : List (String × String) → List (String × String)
  | [] => [(name, value)]
  | field :: fields =>
    if folded field.1 = folded name then
      (name, value) :: fields.filter fun other ↦ folded other.1 ≠ folded name
    else field :: setField name value fields

theorem getField_filter_of_ne {name name' : String} (h : folded name' ≠ folded name)
    (fields : List (String × String)) :
    getField name' (fields.filter fun field ↦ folded field.1 ≠ folded name)
      = getField name' fields := by
  induction fields with
  | nil => rfl
  | cons field fields ih =>
    rw [List.filter_cons, getField]
    by_cases hfield : folded field.1 = folded name
    · rw [if_neg (by simpa using hfield), ih, if_neg fun heq ↦ h (heq.symm.trans hfield)]
    · rw [if_pos (by simpa using hfield), getField, ih]

def fieldList : HeaderStore (List (String × String)) where
  get fields name := getField name fields
  set fields name value := setField name value fields
  get_set fields name value name' := by
    induction fields with
    | nil => simp only [setField, getField, eq_comm]
    | cons field fields ih =>
      rw [setField]
      by_cases hfield : folded field.1 = folded name
      · rw [if_pos hfield, getField, getField]
        by_cases h : folded name' = folded name
        · rw [if_pos h.symm, if_pos h]
        · rw [if_neg (Ne.symm h), if_neg h, getField_filter_of_ne h,
            if_neg fun heq ↦ h (heq.symm.trans hfield)]
      · rw [if_neg hfield, getField, ih, getField]
        by_cases h : folded field.1 = folded name'
        · rw [if_pos h, if_pos h, if_neg fun heq ↦ hfield (h.trans heq)]
        · rw [if_neg h, if_neg h]

end Http
