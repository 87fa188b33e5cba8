import Mathlib.Data.Finset.Basic
import Mathlib.Data.List.Infix
import Mathlib.Data.String.Basic
import Sentinel.Collections.Dict

/-!
# The phrase trie

`PhraseTrie`, which finds all phrases of a catalogue in a text in one walk from each position. A
node keeps the phrases that end at it, so what a trie knows is the function `outputsAt` from paths
to phrases; insertion changes it at one path, and a walk collects it along the prefixes of the
text.
-/

namespace Sentinel

open Collections

/-- `TrieNode`. -/
inductive TrieNode
  | node (children : List (Char × TrieNode)) (outputs : List String)

namespace TrieNode

/-- `TrieNode()`. -/
def empty : TrieNode := ⟨[], []⟩

def children : TrieNode → List (Char × TrieNode)
  | ⟨children, _⟩ => children

def outputs : TrieNode → List String
  | ⟨_, outputs⟩ => outputs

/-- `_insert`, along the rest of the phrase. -/
def insert (phrase : String) : List Char → TrieNode → TrieNode
  | [], ⟨children, outputs⟩ => ⟨children, outputs ++ [phrase]⟩
  | c :: path, ⟨children, outputs⟩ =>
    ⟨Dict.insert c (insert phrase path ((Dict.lookup c children).getD empty)) children, outputs⟩

/-- The walk from one position: the outputs of the nodes that it comes to. -/
def walk : TrieNode → List Char → Finset String
  | _, [] => ∅
  | ⟨children, _⟩, c :: s =>
    match Dict.lookup c children with
    | none => ∅
    | some child => child.outputs.toFinset ∪ child.walk s

/-- The phrases that end at the node with the path. -/
def outputsAt : TrieNode → List Char → List String
  | ⟨_, outputs⟩, [] => outputs
  | ⟨children, _⟩, c :: path =>
    match Dict.lookup c children with
    | none => []
    | some child => child.outputsAt path

theorem outputsAt_empty (path : List Char) : empty.outputsAt path = [] := by
  cases path <;> rfl

theorem outputs_eq (node : TrieNode) : node.outputs = node.outputsAt [] := by
  cases node
  rfl

theorem outputsAt_cons (children : List (Char × TrieNode)) (outputs : List String) (c : Char)
    (path : List Char) : outputsAt ⟨children, outputs⟩ (c :: path)
      = ((Dict.lookup c children).getD empty).outputsAt path := by
  rw [outputsAt]
  cases Dict.lookup c children with
  | none => exact (outputsAt_empty path).symm
  | some child => rfl

theorem outputsAt_insert (phrase : String) (path path' : List Char) (node : TrieNode) :
    (insert phrase path node).outputsAt path'
      = node.outputsAt path' ++ if path' = path then [phrase] else [] := by
  induction path generalizing node path' with
  | nil =>
    obtain ⟨children, outputs⟩ := node
    cases path' with
    | nil => rw [insert, outputsAt, outputsAt, if_pos rfl]
    | cons c path' =>
      rw [insert, outputsAt_cons, outputsAt_cons, if_neg (List.cons_ne_nil c path'),
        List.append_nil]
  | cons c path ih =>
    obtain ⟨children, outputs⟩ := node
    cases path' with
    | nil =>
      rw [insert, outputsAt, outputsAt, if_neg (List.cons_ne_nil c path).symm, List.append_nil]
    | cons c' path' =>
      rw [insert, outputsAt_cons, outputsAt_cons, Dict.lookup_insert]
      by_cases hc : c' = c
      · subst hc
        rw [if_pos rfl, Option.getD_some, ih]
        simp only [List.cons.injEq, true_and]
      · rw [if_neg hc, if_neg (fun h ↦ hc (List.cons.inj h).1), List.append_nil]

/-- A walk finds the phrases at the paths that the text begins with. -/
theorem mem_walk {phrase : String} {node : TrieNode} {s : List Char} :
    phrase ∈ node.walk s ↔ ∃ path, path ≠ [] ∧ path <+: s ∧ phrase ∈ node.outputsAt path := by
  induction s generalizing node with
  | nil =>
    constructor
    · intro h
      exact absurd h (Finset.notMem_empty phrase)
    · rintro ⟨path, hne, hpath, -⟩
      exact absurd (List.prefix_nil.mp hpath) hne
  | cons c s ih =>
    obtain ⟨children, outputs⟩ := node
    rw [walk]
    constructor
    · intro h
      cases hchild : Dict.lookup c children with
      | none =>
        rw [hchild] at h
        exact absurd h (Finset.notMem_empty phrase)
      | some child =>
        have hat : ∀ path, outputsAt ⟨children, outputs⟩ (c :: path) = child.outputsAt path := by
          intro path
          rw [outputsAt_cons, hchild, Option.getD_some]
        rw [hchild] at h
        -- The phrase ends at this child, or further down.
        rcases Finset.mem_union.mp h with h | h
        · refine ⟨[c], List.cons_ne_nil c [], ⟨s, rfl⟩, ?_⟩
          rw [hat, ← outputs_eq]
          exact List.mem_toFinset.mp h
        · obtain ⟨path, -, hpath, hmem⟩ := ih.mp h
          exact ⟨c :: path, List.cons_ne_nil c path, List.cons_prefix_cons.mpr ⟨rfl, hpath⟩,
            by rw [hat]; exact hmem⟩
    · rintro ⟨path, hne, hpath, hmem⟩
      cases path with
      | nil => exact absurd rfl hne
      | cons d path =>
        obtain ⟨rfl, hrest⟩ := List.cons_prefix_cons.mp hpath
        cases hchild : Dict.lookup d children with
        | none =>
          rw [outputsAt_cons, hchild, Option.getD_none, outputsAt_empty] at hmem
          exact absurd hmem List.not_mem_nil
        | some child =>
          rw [outputsAt_cons, hchild, Option.getD_some] at hmem
          cases path with
          | nil =>
            rw [← outputs_eq] at hmem
            exact Finset.mem_union_left _ (List.mem_toFinset.mpr hmem)
          | cons e path =>
            exact Finset.mem_union_right _
              (ih.mpr ⟨e :: path, List.cons_ne_nil e path, hrest, hmem⟩)

end TrieNode

/-- `PhraseTrie`. -/
structure PhraseTrie where
  root : TrieNode

namespace PhraseTrie

/-- `PhraseTrie(phrases)`. -/
def ofPhrases (phrases : List String) : PhraseTrie :=
  ⟨phrases.foldl (fun root phrase ↦ root.insert phrase phrase.toList) TrieNode.empty⟩

/-- `find`, on the positions of `s`. -/
def findFrom (trie : PhraseTrie) : List Char → Finset String
  | [] => ∅
  | c :: s => trie.root.walk (c :: s) ∪ findFrom trie s

/-- `find`. -/
def find (trie : PhraseTrie) (text : String) : Finset String := trie.findFrom text.toList

theorem mem_outputsAt_ofPhrases {phrases : List String} {phrase : String} {path : List Char} :
    phrase ∈ (ofPhrases phrases).root.outputsAt path ↔ phrase ∈ phrases ∧ phrase.toList = path := by
  have hfold : ∀ root : TrieNode,
      phrase ∈ (phrases.foldl (fun root phrase ↦ root.insert phrase phrase.toList) root).outputsAt
        path ↔ phrase ∈ root.outputsAt path ∨ phrase ∈ phrases ∧ phrase.toList = path := by
    induction phrases with
    | nil => simp
    | cons phrase' phrases ih =>
      intro root
      rw [List.foldl_cons, ih, TrieNode.outputsAt_insert, List.mem_append, List.mem_cons, or_assoc,
        or_and_right]
      have hhere : phrase ∈ (if path = phrase'.toList then [phrase'] else [])
          ↔ phrase = phrase' ∧ phrase.toList = path := by
        split_ifs with h
        · rw [List.mem_singleton]
          exact ⟨fun heq ↦ ⟨heq, heq ▸ h.symm⟩, And.left⟩
        · refine ⟨fun hmem ↦ absurd hmem List.not_mem_nil, ?_⟩
          rintro ⟨rfl, heq⟩
          exact absurd heq.symm h
      rw [hhere]
  rw [ofPhrases, hfold, TrieNode.outputsAt_empty]
  exact or_iff_right List.not_mem_nil

theorem mem_findFrom {trie : PhraseTrie} {phrase : String} {s : List Char} :
    phrase ∈ trie.findFrom s
      ↔ ∃ path, path ≠ [] ∧ path <:+: s ∧ phrase ∈ trie.root.outputsAt path := by
  induction s with
  | nil =>
    constructor
    · intro h
      exact absurd h (Finset.notMem_empty phrase)
    · rintro ⟨path, hne, hpath, -⟩
      exact absurd (List.infix_nil.mp hpath) hne
  | cons c s ih =>
    rw [findFrom, Finset.mem_union, TrieNode.mem_walk, ih, ← exists_or]
    refine exists_congr fun path ↦ ?_
    rw [List.infix_cons_iff]
    tauto

/-- **The trie finds the phrases that occur**, the empty one excepted. -/
theorem mem_find {phrases : List String} {phrase text : String} :
    phrase ∈ (ofPhrases phrases).find text
      ↔ phrase ∈ phrases ∧ phrase.toList ≠ [] ∧ phrase.toList <:+: text.toList := by
  rw [find, mem_findFrom]
  constructor
  · rintro ⟨path, hne, hpath, hmem⟩
    obtain ⟨hphrase, rfl⟩ := mem_outputsAt_ofPhrases.mp hmem
    exact ⟨hphrase, hne, hpath⟩
  · rintro ⟨hphrase, hne, hpath⟩
    exact ⟨phrase.toList, hne, hpath, mem_outputsAt_ofPhrases.mpr ⟨hphrase, rfl⟩⟩

end PhraseTrie

end Sentinel
