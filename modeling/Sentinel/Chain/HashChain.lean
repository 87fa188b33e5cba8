import Mathlib.Data.List.Induction
import Mathlib.Data.Nat.Notation
import Mathlib.Logic.Function.Defs

/-!
# Hash-chained logs

A log that is only ever appended to is described by what an append looks at: the relation `R l a`
says that the entry `a` may follow the log `l`. `Built R l` says that the log has come about in this
way. Nothing else is needed to speak about the entries of a log one by one, each against the log as
it was when the entry came.

In a hash chain an entry may follow a log if it carries the hash of the last entry, its own digest
and the next number. The same condition serves two parties, the writer who brings it about and the
reader who checks it, so a log that was written is a log that is accepted. With a digest that has no
collisions, an entry whose digest still fits has not been altered, and no entry fits in two places
unless the logs before them end in the same entry.
-/

namespace Chain

variable {α δ : Type*}

/-! ## Logs -/

/-- A log each of whose entries was allowed to follow the entries before it. -/
inductive Built (R : List α → α → Prop) : List α → Prop
  | nil : Built R []
  | snoc {l : List α} {a : α} (hl : Built R l) (ha : R l a) : Built R (l ++ [a])

variable {R S : List α → α → Prop} {l : List α} {a : α}

theorem built_snoc : Built R (l ++ [a]) ↔ Built R l ∧ R l a := by
  constructor
  · intro h
    generalize hl : l ++ [a] = l' at h
    cases h with
    | nil => exact absurd hl (by simp)
    | snoc h ha =>
      obtain ⟨rfl, hsingle⟩ := List.append_inj' hl rfl
      cases hsingle
      exact ⟨h, ha⟩
  · rintro ⟨h, ha⟩
    exact h.snoc ha

theorem Built.rel_take (h : Built R l) {i : ℕ} (hi : i < l.length) : R (l.take i) l[i] := by
  induction h with
  | nil => cases hi
  | @snoc l a hl ha ih =>
    rw [List.length_append, List.length_singleton] at hi
    rcases Nat.lt_succ_iff_lt_or_eq.mp hi with hlt | rfl
    · rw [List.take_append_of_le_length (Nat.le_of_lt hlt), List.getElem_append_left hlt]
      exact ih hlt
    · rw [List.take_left, List.getElem_append_right (Nat.le_refl _)]
      simpa using ha

theorem Built.rel_succ (h : Built R l) {i : ℕ} (hi : i + 1 < l.length) :
    R (l.take i ++ [l[i]]) l[i + 1] := by
  have hrel := h.rel_take hi
  rwa [List.take_succ_eq_append_getElem (Nat.lt_of_succ_lt hi)] at hrel

theorem Built.rel_append {m : List α} (h : Built R (l ++ a :: m)) : R l a := by
  have hrel := h.rel_take (i := l.length) (by simp)
  rw [List.take_left, List.getElem_append_right (Nat.le_refl _)] at hrel
  simpa using hrel

theorem Built.front {m : List α} (h : Built R (l ++ m)) : Built R l := by
  induction m using List.reverseRecOn with
  | nil => rwa [List.append_nil] at h
  | append_singleton m a ih =>
    rw [← List.append_assoc] at h
    exact ih (built_snoc.mp h).1

theorem Built.exists_last (h : Built R l) (hne : l ≠ []) : ∃ l' a, l = l' ++ [a] ∧ R l' a := by
  cases h with
  | nil => exact absurd rfl hne
  | @snoc l' a hl ha => exact ⟨l', a, rfl, ha⟩

theorem Built.mono (hRS : ∀ {l a}, R l a → S l a) (h : Built R l) : Built S l := by
  induction h with
  | nil => exact .nil
  | snoc _ ha ih => exact ih.snoc (hRS ha)

/-! ## Hash chains -/

/-- How the entries of a chain carry their numbers and hashes. -/
structure HashChain (α δ : Type*) where
  sequence : α → ℕ
  previousHash : α → δ
  hash : α → δ
  /-- The digest of everything but the hash. -/
  digest : α → δ
  /-- What the first entry carries in place of a previous hash. -/
  genesis : δ

namespace HashChain

variable (C : HashChain α δ)

/-- The hash that the next entry has to carry. -/
def tip (l : List α) : δ := (l.getLast?.map C.hash).getD C.genesis

structure Follows (l : List α) (a : α) : Prop where
  previousHash_eq : C.previousHash a = C.tip l
  hash_eq : C.hash a = C.digest a
  sequence_eq : C.sequence a = l.length + 1

variable {C}

@[simp] theorem tip_append_singleton (l : List α) (a : α) : C.tip (l ++ [a]) = C.hash a := by
  rw [tip, List.getLast?_concat, Option.map_some, Option.getD_some]

/-! ## The entries one by one -/

theorem sequence_getElem (h : Built C.Follows l) {i : ℕ} (hi : i < l.length) :
    C.sequence l[i] = i + 1 := by
  rw [(h.rel_take hi).sequence_eq, List.length_take_of_le (Nat.le_of_lt hi)]

theorem previousHash_zero (h : Built C.Follows l) (hi : 0 < l.length) :
    C.previousHash l[0] = C.genesis :=
  (h.rel_take hi).previousHash_eq

theorem previousHash_succ (h : Built C.Follows l) {i : ℕ} (hi : i + 1 < l.length) :
    C.previousHash l[i + 1] = C.hash l[i] := by
  rw [(h.rel_succ hi).previousHash_eq, tip_append_singleton]

/-- No entry can be left out but the last. -/
theorem eq_nil_of_left_out {m : List α} (h : Built C.Follows (l ++ a :: m))
    (hout : Built C.Follows (l ++ m)) : m = [] := by
  cases m with
  | nil => rfl
  | cons b m =>
    rw [← List.singleton_append, ← List.append_assoc] at h
    have hsequence := h.rel_append.sequence_eq
    rw [hout.rel_append.sequence_eq, List.length_append, List.length_singleton] at hsequence
    omega

theorem hash_eq_digest (h : Built C.Follows l) (ha : a ∈ l) : C.hash a = C.digest a := by
  obtain ⟨i, hi, rfl⟩ := List.getElem_of_mem ha
  exact (h.rel_take hi).hash_eq

theorem Follows.digest_last (h : Built C.Follows l) {l' : List α} (h' : Built C.Follows l')
    (ha : C.Follows l a) (ha' : C.Follows l' a) :
    (l = [] ∧ l' = []) ∨ ∃ b ∈ l, ∃ b' ∈ l', C.digest b = C.digest b' := by
  have hlength : l.length = l'.length :=
    Nat.succ_inj.mp (ha.sequence_eq.symm.trans ha'.sequence_eq)
  rcases List.eq_nil_or_concat l with rfl | ⟨front, b, rfl⟩
  · exact .inl ⟨rfl, List.eq_nil_of_length_eq_zero hlength.symm⟩
  · rcases List.eq_nil_or_concat l' with rfl | ⟨front', b', rfl⟩
    · simp at hlength
    · have htip := ha.previousHash_eq.symm.trans ha'.previousHash_eq
      rw [List.concat_eq_append, List.concat_eq_append, tip_append_singleton,
        tip_append_singleton] at htip
      refine .inr ⟨b, by simp, b', by simp, ?_⟩
      rw [← hash_eq_digest h (by simp), ← hash_eq_digest h' (by simp), htip]

/-- The digest and the hash of an entry determine it. -/
def Pinned (C : HashChain α δ) : Prop :=
  ∀ {a b : α}, C.digest a = C.digest b → C.hash a = C.hash b → a = b

/-- Entries of two chains that carry one hash are one entry, in one place. -/
theorem Pinned.getElem_eq (hpinned : C.Pinned) (h : Built C.Follows l) {l' : List α}
    (h' : Built C.Follows l') {i j : ℕ} (hi : i < l.length) (hj : j < l'.length)
    (hhash : C.hash l[i] = C.hash l'[j]) : l[i] = l'[j] ∧ i = j := by
  have hdigest : C.digest l[i] = C.digest l'[j] := by
    rw [← hash_eq_digest h (List.getElem_mem hi), ← hash_eq_digest h' (List.getElem_mem hj), hhash]
  have hsame := hpinned hdigest hhash
  have hsequence := congrArg C.sequence hsame
  rw [sequence_getElem h hi, sequence_getElem h' hj] at hsequence
  exact ⟨hsame, Nat.succ_inj.mp hsequence⟩

/-- **The hash of an entry pins everything before it.** -/
theorem Pinned.take_eq (hpinned : C.Pinned) (h : Built C.Follows l) {l' : List α}
    (h' : Built C.Follows l') {i j : ℕ} (hi : i < l.length) (hj : j < l'.length)
    (hhash : C.hash l[i] = C.hash l'[j]) : i = j ∧ l.take (i + 1) = l'.take (i + 1) := by
  obtain ⟨hsame, rfl⟩ := hpinned.getElem_eq h h' hi hj hhash
  refine ⟨rfl, ?_⟩
  -- backwards along both chains, from one previous hash to the one before
  induction i with
  | zero =>
    rw [List.take_succ_eq_append_getElem hi, List.take_succ_eq_append_getElem hj, hsame,
      List.take_zero, List.take_zero]
  | succ i ih =>
    have hprevious : C.hash l[i] = C.hash l'[i] := by
      rw [← previousHash_succ h hi, ← previousHash_succ h' hj, hsame]
    have hbefore := (hpinned.getElem_eq h h' (Nat.lt_of_succ_lt hi) (Nat.lt_of_succ_lt hj)
      hprevious).1
    rw [List.take_succ_eq_append_getElem hi, List.take_succ_eq_append_getElem hj, hsame,
      ih (Nat.lt_of_succ_lt hi) (Nat.lt_of_succ_lt hj) hprevious hbefore]

end HashChain

end Chain
