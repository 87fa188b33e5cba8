import Mathlib.Data.List.TakeWhile
import Mathlib.Tactic.SplitIfs
import Sentinel.Text.Digits

/-!
# JSON texts

The compact JSON writer: `,` and `:` without blanks, and every character of a string that is not a
printable ASCII character escaped, by a short escape where there is one and otherwise by the
hexadecimal UTF-16 code units. The texts consist of printable characters only, so that they contain
no line break of any kind.

A number is kept as the text it is written in, since what it stands for is the business of whoever
reads the document. The values without digits that Python's writer knows are constants here,
including the three that are not JSON.
-/

namespace Text

/-! ## Values -/

def isNumeric (c : Char) : Bool :=
  c.isDigit || c == '-' || c == '+' || c == '.' || c == 'e' || c == 'E'

/-- The digits before the point: no zero in front of others. -/
def isIntegerText (s : List Char) : Bool := s == ['0'] || (s != [] && s.head? != some '0')

def isExponentText : List Char → Bool
  | [] => true
  | c :: s =>
    let magnitude := if s.head? = some '+' ∨ s.head? = some '-' then s.tail else s
    (c == 'e' || c == 'E') && magnitude != [] && magnitude.all Char.isDigit

/-- Nothing, or a fraction or an exponent or both. -/
def isFractionText : List Char → Bool
  | [] => true
  | c :: s =>
    if c = '.' then s.takeWhile Char.isDigit != [] && isExponentText (s.dropWhile Char.isDigit)
    else isExponentText (c :: s)

def isNumberText (s : List Char) : Bool :=
  let magnitude := if s.head? = some '-' then s.tail else s
  isIntegerText (magnitude.takeWhile Char.isDigit) &&
    isFractionText (magnitude.dropWhile Char.isDigit)

/-- A number, as it is written. -/
structure NumberLiteral where
  chars : List Char
  isNumeric : ∀ c ∈ chars, isNumeric c = true
  isNumberText : isNumberText chars = true
deriving DecidableEq

theorem NumberLiteral.ne_nil (literal : NumberLiteral) : literal.chars ≠ [] := by
  intro h
  have hnil := literal.isNumberText
  rw [h] at hnil
  exact absurd hnil (by decide)

theorem head_toDigits : ∀ n : ℕ, 0 < n → (Nat.toDigits 10 n).head? ≠ some '0' := by
  intro n
  induction n using Nat.strongRecOn with
  | ind n ih =>
    intro hn
    by_cases hlt : n < 10
    · rw [Nat.toDigits_of_lt_base hlt]
      interval_cases n <;> decide
    · have hdiv : n / 10 < n ∧ 0 < n / 10 := by omega
      obtain ⟨c, rest, hhigh⟩ := List.exists_cons_of_ne_nil
        (Nat.toDigits_ne_nil : Nat.toDigits 10 (n / 10) ≠ [])
      have hhead := ih (n / 10) hdiv.1 hdiv.2
      rw [Nat.toDigits_of_base_le (by decide) (by omega), hhigh]
      rwa [hhigh] at hhead

theorem isNumberText_toDigits (n : ℕ) : isNumberText (Nat.toDigits 10 n) = true := by
  have hdigits : ∀ c ∈ Nat.toDigits 10 n, c.isDigit = true := fun c hc ↦
    Nat.isDigit_of_mem_toDigits (by decide) (by decide) hc
  have hminus : (Nat.toDigits 10 n).head? ≠ some '-' := by
    intro h
    exact absurd (hdigits _ (List.mem_of_head? h)) (by decide)
  have hinteger : isIntegerText (Nat.toDigits 10 n) = true := by
    rcases Nat.eq_zero_or_pos n with rfl | hpos
    · rfl
    · have hne : Nat.toDigits 10 n ≠ [] := Nat.toDigits_ne_nil
      simp [isIntegerText, hne, head_toDigits n hpos]
  rw [isNumberText]
  simp only [if_neg hminus, List.takeWhile_eq_self_iff.mpr hdigits,
    List.dropWhile_eq_nil_iff.mpr hdigits, hinteger, isFractionText, Bool.and_self]

/-- The decimal digits of a natural number. -/
def NumberLiteral.nat (n : ℕ) : NumberLiteral where
  chars := Nat.toDigits 10 n
  isNumeric c hc := by
    simp only [Text.isNumeric, Nat.isDigit_of_mem_toDigits (by decide) (by decide) hc,
      Bool.true_or]
  isNumberText := isNumberText_toDigits n

theorem NumberLiteral.nat_injective : Function.Injective NumberLiteral.nat := by
  intro m n h
  have hchars : Nat.toDigits 10 m = Nat.toDigits 10 n := congrArg NumberLiteral.chars h
  rw [← Nat.ofDigitChars_ten_toDigits (n := m), hchars, Nat.ofDigitChars_ten_toDigits]

/-- A value that is written as a word. -/
inductive Constant
  | null
  | true
  | false
  | nan
  | infinity
  | negativeInfinity
deriving DecidableEq

def Constant.chars : Constant → List Char
  | .null => ['n', 'u', 'l', 'l']
  | .true => ['t', 'r', 'u', 'e']
  | .false => ['f', 'a', 'l', 's', 'e']
  | .nan => ['N', 'a', 'N']
  | .infinity => ['I', 'n', 'f', 'i', 'n', 'i', 't', 'y']
  | .negativeInfinity => ['-', 'I', 'n', 'f', 'i', 'n', 'i', 't', 'y']

def Constant.all : List Constant := [.null, .true, .false, .nan, .infinity, .negativeInfinity]

inductive Json
  | constant (value : Constant)
  | number (literal : NumberLiteral)
  | string (value : String)
  | array (items : List Json)
  | object (members : List (String × Json))

def Json.isNumber : Json → Bool
  | .number _ => true
  | .constant _ | .string _ | .array _ | .object _ => false

/-! ## Strings -/

def shortEscape (c : Char) : Option Char :=
  if c = '"' then some '"'
  else if c = '\\' then some '\\'
  else if c = '\n' then some 'n'
  else if c = '\r' then some 'r'
  else if c = '\t' then some 't'
  else if c = '\x0c' then some 'f'
  else if c = '\x08' then some 'b'
  else none

def utf16 (c : Char) : List ℕ :=
  if c.toNat < 0x10000 then [c.toNat]
  else [0xd800 + (c.toNat - 0x10000) / 0x400, 0xdc00 + (c.toNat - 0x10000) % 0x400]

def unitEscape (codeUnit : ℕ) : List Char := '\\' :: 'u' :: digits 16 4 codeUnit

def escape (c : Char) : List Char :=
  match shortEscape c with
  | some letter => ['\\', letter]
  | none => if isPrintable c then [c] else (utf16 c).flatMap unitEscape

/-- The characters of a string up to the closing quotation mark, inclusive. -/
def closeQuote : List Char → List Char
  | [] => ['"']
  | c :: cs => escape c ++ closeQuote cs

def quote (value : String) : List Char := '"' :: closeQuote value.toList

/-! ### The characters of a string -/

/-- Every character of the text is a printable ASCII character. -/
def Printable (s : List Char) : Prop := ∀ c ∈ s, isPrintable c = true

theorem printable_of_all {s : List Char} (h : s.all isPrintable = true) : Printable s :=
  List.all_eq_true.mp h

theorem Printable.append {s t : List Char} (hs : Printable s) (ht : Printable t) :
    Printable (s ++ t) := fun c hc ↦ (List.mem_append.mp hc).elim (hs c) (ht c)

theorem printable_cons {c : Char} {s : List Char} (hc : isPrintable c = true) (hs : Printable s) :
    Printable (c :: s) := by
  intro d hd
  rcases List.mem_cons.mp hd with rfl | hd
  · exact hc
  · exact hs d hd

theorem printable_shortEscape {c letter : Char} (h : shortEscape c = some letter) :
    isPrintable letter = true := by
  unfold shortEscape at h
  split_ifs at h <;> (cases h; decide)

theorem printable_escape (c : Char) : Printable (escape c) := by
  unfold escape
  cases hc : shortEscape c with
  | some letter =>
    refine printable_cons (by decide) (printable_cons (printable_shortEscape hc) ?_)
    simp [Printable]
  | none =>
    simp only
    split_ifs with hprint
    · exact printable_cons hprint (by simp [Printable])
    · intro d hd
      obtain ⟨u, -, hu⟩ := List.mem_flatMap.mp hd
      exact printable_cons (by decide) (printable_cons (by decide) fun _ ↦
        isPrintable_of_mem_digits) d hu

theorem printable_closeQuote : ∀ cs : List Char, Printable (closeQuote cs)
  | [] => by rw [closeQuote]; exact printable_of_all rfl
  | c :: cs => by rw [closeQuote]; exact (printable_escape c).append (printable_closeQuote cs)

theorem printable_quote (value : String) : Printable (quote value) :=
  printable_cons (by decide) (printable_closeQuote _)

/-! ### The characters of a number -/

/-- The character is printable and not a blank. -/
def Visible (c : Char) : Prop := 0x20 < c.toNat ∧ c.toNat ≤ 0x7e

instance : DecidablePred Visible := fun c ↦
  inferInstanceAs (Decidable (0x20 < c.toNat ∧ c.toNat ≤ 0x7e))

theorem Visible.isPrintable {c : Char} (h : Visible c) : isPrintable c = true := by
  rw [Text.isPrintable, Bool.and_eq_true, decide_eq_true_eq, decide_eq_true_eq]
  exact ⟨Nat.le_of_lt h.1, h.2⟩

theorem isNumeric_visible {c : Char} (h : isNumeric c = true) : Visible c := by
  simp only [isNumeric, Bool.or_eq_true, beq_iff_eq] at h
  rcases h with ((((h | rfl) | rfl) | rfl) | rfl) | rfl
  · rw [Char.isDigit, Bool.and_eq_true, decide_eq_true_eq, decide_eq_true_eq] at h
    have hlow : 48 ≤ c.toNat := UInt32.le_iff_toNat_le.mp h.1
    have hhigh : c.toNat ≤ 57 := UInt32.le_iff_toNat_le.mp h.2
    exact ⟨by omega, by omega⟩
  all_goals decide

theorem printable_number (literal : NumberLiteral) : Printable literal.chars := by
  intro c hc
  exact (isNumeric_visible (literal.isNumeric c hc)).isPrintable

/-! ## Documents -/

namespace Json

mutual

def dumps : Json → List Char
  | constant value => value.chars
  | number literal => literal.chars
  | string value => quote value
  | array [] => ['[', ']']
  | array (item :: items) => '[' :: (dumps item ++ dumpsItems items)
  | object [] => ['{', '}']
  | object ((name, value) :: members) =>
    '{' :: (quote name ++ ':' :: (dumps value ++ dumpsMembers members))

/-- The rest of an array after one of its items. -/
def dumpsItems : List Json → List Char
  | [] => [']']
  | item :: items => ',' :: (dumps item ++ dumpsItems items)

/-- The rest of an object after one of its members. -/
def dumpsMembers : List (String × Json) → List Char
  | [] => ['}']
  | (name, value) :: members =>
    ',' :: (quote name ++ ':' :: (dumps value ++ dumpsMembers members))

end

/-! ### The characters of a document -/

mutual

theorem printable_dumps : ∀ x : Json, Printable (dumps x)
  | constant value => by cases value <;> (rw [dumps]; exact printable_of_all rfl)
  | number literal => by rw [dumps]; exact printable_number literal
  | string value => by rw [dumps]; exact printable_quote value
  | array [] => by rw [dumps]; exact printable_of_all rfl
  | array (item :: items) => by
    rw [dumps]
    exact printable_cons (by decide) ((printable_dumps item).append (printable_dumpsItems items))
  | object [] => by rw [dumps]; exact printable_of_all rfl
  | object ((name, value) :: members) => by
    rw [dumps]
    exact printable_cons (by decide) ((printable_quote name).append (printable_cons (by decide)
      ((printable_dumps value).append (printable_dumpsMembers members))))

theorem printable_dumpsItems : ∀ xs : List Json, Printable (dumpsItems xs)
  | [] => by rw [dumpsItems]; exact printable_of_all rfl
  | item :: items => by
    rw [dumpsItems]
    exact printable_cons (by decide) ((printable_dumps item).append (printable_dumpsItems items))

theorem printable_dumpsMembers : ∀ xs : List (String × Json), Printable (dumpsMembers xs)
  | [] => by rw [dumpsMembers]; exact printable_of_all rfl
  | (name, value) :: members => by
    rw [dumpsMembers]
    exact printable_cons (by decide) ((printable_quote name).append (printable_cons (by decide)
      ((printable_dumps value).append (printable_dumpsMembers members))))

end

end Json

end Text
