import Mathlib.Data.List.DropRight
import Sentinel.Text.JsonReader

/-!
# Lines

Python's `str.splitlines` and `str.strip`, which know more line breaks and more blanks than the
characters that writers of line-oriented files have in mind. A file of JSON texts, one on each line
and each line ended by `\n`, is read back line by line all the same, since the texts consist of
printable ASCII characters. What follows the last line break is a line as well unless it is empty;
this is where a text that has been cut off shows up.
-/

namespace Text

/-- The characters at which `str.splitlines` ends a line; `\r\n` counts once. -/
def isLineBreak (c : Char) : Bool :=
  c == '\n' || c == '\r' || c == '\x0b' || c == '\x0c' || c == '\x1c' || c == '\x1d' ||
    c == '\x1e' || c == '\u0085' || c == '\u2028' || c == '\u2029'

/-- `str.isspace` of a character. -/
def isSpace (c : Char) : Bool :=
  let n := c.toNat
  (0x09 ≤ n && n ≤ 0x0d) || (0x1c ≤ n && n ≤ 0x20) || n == 0x85 || n == 0xa0 || n == 0x1680 ||
    (0x2000 ≤ n && n ≤ 0x200a) || n == 0x2028 || n == 0x2029 || n == 0x202f || n == 0x205f ||
    n == 0x3000

/-- `str.strip()`. -/
def strip (s : List Char) : List Char := (s.dropWhile isSpace).rdropWhile isSpace

/-- `not line.strip()`. -/
def isBlank (line : List Char) : Bool := line.all isSpace

def consLine (c : Char) : List (List Char) → List (List Char)
  | [] => [[c]]
  | line :: lines => (c :: line) :: lines

/-- `str.splitlines()`. -/
def splitlines : List Char → List (List Char)
  | [] => []
  | [c] => if isLineBreak c then [[]] else [[c]]
  | c :: d :: s =>
    if c = '\r' ∧ d = '\n' then [] :: splitlines s
    else if isLineBreak c then [] :: splitlines (d :: s)
    else consLine c (splitlines (d :: s))

def unlines (lines : List (List Char)) : List Char := lines.flatMap fun line ↦ line ++ ['\n']

/-- A text within one line. -/
def Unbroken (line : List Char) : Prop := ∀ c ∈ line, isLineBreak c = false

theorem splitlines_cons {c : Char} (hc : isLineBreak c = false) (s : List Char) :
    splitlines (c :: s) = consLine c (splitlines s) := by
  have hne : ¬isLineBreak c = true := by rw [hc]; exact Bool.false_ne_true
  cases s with
  | nil => rw [splitlines, splitlines, if_neg hne, consLine]
  | cons d s =>
    have hreturn : ¬(c = '\r' ∧ d = '\n') := by
      rintro ⟨rfl, -⟩
      cases hc
    rw [splitlines, if_neg hreturn, if_neg hne]

theorem splitlines_break (s : List Char) : splitlines ('\n' :: s) = [] :: splitlines s := by
  cases s with
  | nil => rfl
  | cons d s =>
    have hreturn : ¬('\n' = '\r' ∧ d = '\n') := by
      rintro ⟨h, -⟩
      cases h
    rw [splitlines, if_neg hreturn, if_pos (by decide)]

theorem splitlines_line {line : List Char} (h : Unbroken line) (s : List Char) :
    splitlines (line ++ '\n' :: s) = line :: splitlines s := by
  induction line with
  | nil => exact splitlines_break s
  | cons c line ih =>
    have hc : isLineBreak c = false := h c List.mem_cons_self
    rw [List.cons_append, splitlines_cons hc, ih fun d hd ↦ h d (List.mem_cons_of_mem c hd),
      consLine]

theorem splitlines_last {line : List Char} (h : Unbroken line) (hne : line ≠ []) :
    splitlines line = [line] := by
  induction line with
  | nil => exact absurd rfl hne
  | cons c line ih =>
    have hc : isLineBreak c = false := h c List.mem_cons_self
    rw [splitlines_cons hc]
    by_cases hline : line = []
    · rw [hline]
      rfl
    · rw [ih (fun d hd ↦ h d (List.mem_cons_of_mem c hd)) hline, consLine]

theorem unlines_append (lines lines' : List (List Char)) :
    unlines (lines ++ lines') = unlines lines ++ unlines lines' :=
  List.flatMap_append

theorem unlines_singleton (line : List Char) : unlines [line] = line ++ ['\n'] := by
  rw [unlines, List.flatMap_cons, List.flatMap_nil, List.append_nil]

/-- **Lines are read back**, whatever follows them. -/
theorem splitlines_unlines {lines : List (List Char)} (h : ∀ line ∈ lines, Unbroken line)
    (rest : List Char) : splitlines (unlines lines ++ rest) = lines ++ splitlines rest := by
  induction lines with
  | nil => rfl
  | cons line lines ih =>
    rw [unlines, List.flatMap_cons, List.append_assoc, List.append_assoc, List.singleton_append,
      splitlines_line (h line List.mem_cons_self), List.cons_append]
    exact congrArg _ (ih fun line' hline' ↦ h line' (List.mem_cons_of_mem line hline'))

theorem Printable.unbroken {line : List Char} (h : Printable line) : Unbroken line := by
  intro c hc
  have hprint := h c hc
  rw [← Bool.not_eq_true]
  intro hbreak
  simp only [isLineBreak, Bool.or_eq_true, beq_iff_eq] at hbreak
  rcases hbreak with ((((((((rfl | rfl) | rfl) | rfl) | rfl) | rfl) | rfl) | rfl) | rfl) | rfl
  all_goals exact absurd hprint (by decide)

theorem isSpace_of_visible {c : Char} (h : Visible c) : isSpace c = false := by
  obtain ⟨hlow, hhigh⟩ := h
  rw [← Bool.not_eq_true]
  intro hspace
  simp only [isSpace, Bool.or_eq_true, Bool.and_eq_true, decide_eq_true_eq, beq_iff_eq] at hspace
  omega

theorem isBlank_of_loads {line : List Char} {document : Json}
    (h : Json.loads line = some document) : isBlank line = false := by
  obtain ⟨c, rest, hrest, hhead⟩ := Json.exists_head_of_loads h
  have hmem : c ∈ line := (List.dropWhile_sublist _).subset (hrest ▸ List.mem_cons_self)
  rw [isBlank, List.all_eq_false]
  exact ⟨c, hmem, by rw [isSpace_of_visible (Json.headIs_visible hhead).1]; decide⟩

/-! ## Stripping -/

/-- What begins outside a class is not reached by dropping it. -/
theorem infix_dropWhile {p : Char → Bool} {c : Char} (hc : p c = false) {s t : List Char} :
    c :: s <:+: t.dropWhile p ↔ c :: s <:+: t := by
  refine ⟨fun h ↦ h.trans (List.dropWhile_suffix p).isInfix, ?_⟩
  rintro ⟨before, after, rfl⟩
  induction before with
  | nil =>
    rw [List.nil_append, List.cons_append, List.dropWhile_cons_of_neg (Bool.eq_false_iff.mp hc)]
    exact ⟨[], after, rfl⟩
  | cons d before ih =>
    cases hd : p d with
    | true =>
      rw [List.cons_append, List.cons_append, List.dropWhile_cons_of_pos hd]
      exact ih
    | false =>
      rw [List.cons_append, List.cons_append,
        List.dropWhile_cons_of_neg (Bool.eq_false_iff.mp hd)]
      exact ⟨d :: before, after, rfl⟩

theorem infix_strip {c d : Char} (hc : isSpace c = false) (hd : isSpace d = false)
    {s t : List Char} : c :: (s ++ [d]) <:+: strip t ↔ c :: (s ++ [d]) <:+: t := by
  have hreverse : (c :: (s ++ [d])).reverse = d :: (c :: s).reverse := by
    rw [← List.cons_append, List.reverse_append, List.reverse_singleton, List.singleton_append]
  rw [strip, List.rdropWhile, ← List.reverse_infix, List.reverse_reverse, hreverse,
    infix_dropWhile hd, ← hreverse, List.reverse_infix, infix_dropWhile hc]

theorem strip_isInfix (s : List Char) : strip s <:+: s :=
  (List.rdropWhile_prefix isSpace _).isInfix.trans (List.dropWhile_suffix isSpace).isInfix

theorem strip_ends {s : List Char} {c : Char}
    (h : (strip s).head? = some c ∨ (strip s).getLast? = some c) : isSpace c = false := by
  rcases h with hhead | hlast
  · have hdrop : (s.dropWhile isSpace).head? = some c := by
      obtain ⟨rest, hrest⟩ := List.head?_eq_some_iff.mp hhead
      obtain ⟨tail, htail⟩ := List.rdropWhile_prefix isSpace (s.dropWhile isSpace)
      rw [← htail, ← strip, hrest, List.cons_append, List.head?_cons]
    have hnot := List.head?_dropWhile_not isSpace s
    rw [hdrop] at hnot
    exact hnot
  · have hne : strip s ≠ [] := by
      intro hnil
      rw [hnil] at hlast
      cases hlast
    have hnot := List.rdropWhile_last_not isSpace (s.dropWhile isSpace) hne
    rw [List.getLast?_eq_some_getLast hne, Option.some_inj] at hlast
    rw [← Bool.not_eq_true, ← hlast]
    exact hnot

theorem strip_eq_self {s : List Char}
    (h : ∀ c, s.head? = some c ∨ s.getLast? = some c → isSpace c = false) : strip s = s := by
  have hdrop : s.dropWhile isSpace = s := by
    rw [List.dropWhile_eq_self_iff]
    intro hpos
    rw [Bool.not_eq_true]
    exact h _ (.inl (by rw [List.head?_eq_getElem?, List.getElem?_eq_getElem hpos]))
  rw [strip, hdrop, List.rdropWhile_eq_self_iff]
  intro hne
  rw [Bool.not_eq_true]
  exact h _ (.inr (List.getLast?_eq_some_getLast hne))

theorem dropWhile_rdropWhile {α : Type*} (p : α → Bool) {l : List α}
    (h : ∀ c ∈ l.head?, p c = false) : (l.rdropWhile p).dropWhile p = l.rdropWhile p := by
  obtain ⟨rest, hrest⟩ := List.rdropWhile_prefix p l
  cases hl : l.rdropWhile p with
  | nil => rfl
  | cons c tail =>
    have hhead : l.head? = some c := by
      rw [← hrest, hl]
      rfl
    rw [List.dropWhile_cons_of_neg (Bool.eq_false_iff.mp (h c hhead))]

theorem strip_strip (s : List Char) : strip (strip s) = strip s := by
  rw [strip, strip, dropWhile_rdropWhile, List.rdropWhile_idempotent]
  intro c hc
  have hnot := List.head?_dropWhile_not isSpace s
  rw [hc] at hnot
  exact hnot

/-! ## Separators -/

/-- A text can be read off up to a separator that does not occur in it. -/
theorem append_separator_inj {c : Char} : ∀ {s s' t t' : List Char}, c ∉ s → c ∉ s' →
    s ++ c :: t = s' ++ c :: t' → s = s' ∧ t = t'
  | [], [], _, _, _, _, h => ⟨rfl, (List.cons.inj h).2⟩
  | [], _ :: _, _, _, _, hs', h => absurd ((List.cons.inj h).1 ▸ List.mem_cons_self) hs'
  | _ :: _, [], _, _, hs, _, h => absurd ((List.cons.inj h).1 ▸ List.mem_cons_self) hs
  | d :: s, d' :: s', t, t', hs, hs', h => by
    obtain ⟨rfl, hrest⟩ := List.cons.inj h
    obtain ⟨rfl, ht⟩ := append_separator_inj (fun hc ↦ hs (List.mem_cons_of_mem d hc))
      (fun hc ↦ hs' (List.mem_cons_of_mem d hc)) hrest
    exact ⟨rfl, ht⟩

theorem append_last_separator_inj {c : Char} {s s' t t' : List Char} (ht : c ∉ t) (ht' : c ∉ t')
    (h : s ++ c :: t = s' ++ c :: t') : s = s' ∧ t = t' := by
  have hreverse : t.reverse ++ c :: s.reverse = t'.reverse ++ c :: s'.reverse := by
    simpa using congrArg List.reverse h
  obtain ⟨hts, hss⟩ := append_separator_inj (by simpa using ht) (by simpa using ht') hreverse
  exact ⟨List.reverse_inj.mp hss, List.reverse_inj.mp hts⟩

example : splitlines "a\r\n\nb".toList = ["a".toList, [], "b".toList] := by decide

end Text
