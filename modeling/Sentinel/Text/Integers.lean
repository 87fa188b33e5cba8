import Mathlib.Data.Int.Notation
import Mathlib.Data.List.DropRight
import Sentinel.Text.Lines

/-!
# Reading integers

Python's `int(text)`: blanks around, a sign, and decimal digits with single underscores between
them. Digits and blanks of other scripts are turned into those of ASCII first. A text of more than
4300 digits is refused, whatever number it is.
-/

namespace Text

/-- The ASCII character that a character counts as. Which characters are decimal digits is a
parameter. -/
def asciiOf (decimal : Char → Option ℕ) (c : Char) : Char :=
  if c.toNat < 127 then c
  else if isSpace c then ' '
  else
    match decimal c with
    | some digit => Nat.digitChar digit
    | none => '?'

/-- The blanks that may stand around a number. -/
def isNumberSpace (c : Char) : Bool := (0x09 ≤ c.toNat && c.toNat ≤ 0x0d) || c == ' '

/-- The number behind another digit. -/
def pushDigit (value : ℕ) (c : Char) : ℕ := 10 * value + (c.toNat - '0'.toNat)

/-- The rest of a number of which a digit has been read. -/
def readUnderscored (value : ℕ) : List Char → Option ℕ
  | [] => some value
  | '_' :: c :: s => if c.isDigit then readUnderscored (pushDigit value c) s else none
  | c :: s => if c.isDigit then readUnderscored (pushDigit value c) s else none

/-- A number without its sign. -/
def readUnsigned : List Char → Option ℕ
  | [] => none
  | c :: s => if c.isDigit then readUnderscored (pushDigit 0 c) s else none

/-- The sign of a number, and what is behind it. -/
def splitSign : List Char → Bool × List Char
  | '-' :: s => (true, s)
  | '+' :: s => (false, s)
  | s => (false, s)

/-- The number of digits that are read at most. -/
def maxStrDigits : ℕ := 4300

/-- `int(text)`, where a `ValueError` is none. -/
def readInt (decimal : Char → Option ℕ) (text : List Char) : Option ℤ :=
  let ascii := text.map (asciiOf decimal)
  let (negative, magnitude) :=
    splitSign ((ascii.dropWhile isNumberSpace).rdropWhile isNumberSpace)
  if maxStrDigits < magnitude.countP Char.isDigit then none
  else (readUnsigned magnitude).map fun n ↦ if negative then -n else n

example : [" 42\n", "-1_000", "+0", "1__0", "0x1", ""].map (fun text ↦
    readInt (fun _ ↦ none) text.toList) = [some 42, some (-1000), some 0, none, none, none] := by
  decide

/-! ## Numbers that were written by `str` -/

theorem asciiOf_of_isDigit (decimal : Char → Option ℕ) {c : Char} (h : c.isDigit = true) :
    asciiOf decimal c = c := by
  refine if_pos ?_
  rw [Char.isDigit, Bool.and_eq_true, decide_eq_true_eq, decide_eq_true_eq] at h
  exact (UInt32.le_iff_toNat_le.mp h.2).trans_lt (by decide)

theorem isNumberSpace_of_isDigit {c : Char} (h : c.isDigit = true) : isNumberSpace c = false := by
  rw [Char.isDigit, Bool.and_eq_true, decide_eq_true_eq, decide_eq_true_eq] at h
  have hlow : 48 ≤ c.toNat := UInt32.le_iff_toNat_le.mp h.1
  have hspace : c ≠ ' ' := by
    rintro rfl
    exact absurd hlow (by decide)
  rw [isNumberSpace, beq_false_of_ne hspace, Bool.or_false,
    decide_eq_false (by omega : ¬c.toNat ≤ 13),
    Bool.and_false]

theorem readUnderscored_eq {s : List Char} (h : ∀ c ∈ s, c.isDigit = true) (value : ℕ) :
    readUnderscored value s = some (s.foldl pushDigit value) := by
  induction s generalizing value with
  | nil => rfl
  | cons c s ih =>
    obtain ⟨hc, hs⟩ := List.forall_mem_cons.mp h
    have hne : c ≠ '_' := by
      rintro rfl
      cases hc
    rw [readUnderscored, if_pos hc, ih hs, List.foldl_cons]
    intro d r heq
    exact absurd heq hne

theorem splitSign_of_isDigit {c : Char} {s : List Char} (h : c.isDigit = true) :
    splitSign (c :: s) = (false, c :: s) := by
  rw [splitSign]
  · rintro rest heq
    cases heq
    cases h
  · rintro rest heq
    cases heq
    cases h

theorem strip_of_isDigit {s : List Char} (h : ∀ c ∈ s, c.isDigit = true) :
    (s.dropWhile isNumberSpace).rdropWhile isNumberSpace = s := by
  have hdrop : s.dropWhile isNumberSpace = s := by
    cases s with
    | nil => rfl
    | cons c s =>
      exact List.dropWhile_cons_of_neg
        (by rw [isNumberSpace_of_isDigit (h c List.mem_cons_self)]; exact Bool.false_ne_true)
  rw [hdrop, List.rdropWhile_eq_self_iff]
  intro hne
  rw [isNumberSpace_of_isDigit (h _ (List.getLast_mem hne))]
  exact Bool.false_ne_true

/-- **Digits are read as their number**, unless there are too many of them. -/
theorem readInt_of_digits (decimal : Char → Option ℕ) {s : List Char} (hne : s ≠ [])
    (h : ∀ c ∈ s, c.isDigit = true) (hlength : s.length ≤ maxStrDigits) :
    readInt decimal s = some ((s.foldl pushDigit 0 : ℕ) : ℤ) := by
  have hascii : s.map (asciiOf decimal) = s := by
    refine (List.map_congr_left fun c hc ↦ ?_).trans (List.map_id s)
    exact asciiOf_of_isDigit decimal (h c hc)
  have hcount : s.countP Char.isDigit = s.length := List.countP_eq_length.mpr h
  obtain ⟨c, rest, rfl⟩ := List.exists_cons_of_ne_nil hne
  obtain ⟨hc, hrest⟩ := List.forall_mem_cons.mp h
  rw [readInt, hascii, strip_of_isDigit h, splitSign_of_isDigit hc]
  simp only
  rw [hcount, if_neg (not_lt.mpr hlength), readUnsigned, if_pos hc, readUnderscored_eq hrest]
  rfl

/-- **What `str` writes is read back.** -/
theorem readInt_toDigits (decimal : Char → Option ℕ) {n : ℕ}
    (h : (Nat.toDigits 10 n).length ≤ maxStrDigits) :
    readInt decimal (Nat.toDigits 10 n) = some (n : ℤ) := by
  have hdigits : ∀ c ∈ Nat.toDigits 10 n, c.isDigit = true :=
    fun c hc ↦ Nat.isDigit_of_mem_toDigits (by decide) (by decide) hc
  rw [readInt_of_digits decimal (Nat.toDigits_ne_nil) hdigits h]
  have hfold : (Nat.toDigits 10 n).foldl pushDigit 0 = n :=
    (Nat.ofDigitChars_eq_foldl).symm.trans Nat.ofDigitChars_ten_toDigits
  rw [hfold]

end Text
