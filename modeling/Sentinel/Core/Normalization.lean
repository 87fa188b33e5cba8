import Sentinel.Text.Lines
import Sentinel.Text.Regex

/-!
# Canonical text

`normalize_text`, which both engines, the vector encoder and the evaluation apply before anything
else looks at a text. Its passes fall into two groups. The first ones look at one character at a
time: compatibility normalization, case folding, the deletion of zero-width characters and the
table of look-alikes. The last three substitute a regular expression whose matches depend on what
is around them; they are the three deleting scanners of `Text.Scanner`.

What Python takes from the Unicode tables is a parameter. The ASCII part of the character classes
is not: it is spelled out, so that the passes compute on ASCII texts.
-/

namespace Sentinel

open Text

/-- What `unicodedata` and the string methods know of the characters. The two classes are consulted
outside ASCII only. -/
structure Unicode where
  /-- `unicodedata.normalize("NFKC", text)`. -/
  nfkc : List Char → List Char
  /-- `c.casefold()`. -/
  casefold : Char → List Char
  /-- `c.upper()`. -/
  upper : Char → List Char
  wideAlnum : Char → Bool
  wideDecimal : Char → Bool
  /-- No blank is alphanumeric. -/
  isSpace_of_wideAlnum : ∀ c, wideAlnum c = true → isSpace c = false

/-- `c.isascii()`. -/
def isAscii (c : Char) : Bool := c.toNat < 128

/-- `_ZERO_WIDTH`, as a class. -/
def isZeroWidth (c : Char) : Bool :=
  let n := c.toNat
  (0x200b ≤ n && n ≤ 0x200f) || n == 0x2060 || n == 0xfeff

namespace Unicode

variable (u : Unicode)

/-- `c.isalnum()`. -/
def isAlnum (c : Char) : Bool := if isAscii c then c.isAlphanum else u.wideAlnum c

/-- `c.isdecimal()`. -/
def isDecimal (c : Char) : Bool := if isAscii c then c.isDigit else u.wideDecimal c

/-- `[^\W\d_]`. -/
def isLetter (c : Char) : Bool := u.isAlnum c && !u.isDecimal c && c != '_'

/-- `[^\w\s]|_`. -/
def isPunctuation (c : Char) : Bool := !(u.isAlnum c || c == '_') && !isSpace c || c == '_'

end Unicode

/-- The tables as they are on ASCII texts. -/
def Unicode.sample : Unicode where
  nfkc := id
  casefold c := [c.toLower]
  upper c := [c.toUpper]
  wideAlnum _ := false
  wideDecimal _ := false
  isSpace_of_wideAlnum := by
    intro c h
    cases h

/-! ## The passes -/

/-- `_ZERO_WIDTH`. -/
def zeroWidth : Regex Char := .char isZeroWidth fun _ ↦ .done

/-- `_WHITESPACE`. -/
def whitespace : Regex Char := .many 1 isSpace .done

/-- `_REPEATED_CHARACTERS`; the dot does not match a line feed. -/
def repeatedCharacters : Regex Char := .char (· != '\n') fun c ↦ .many 2 (· == c) .done

/-- `_INTRA_WORD_PUNCTUATION`. -/
def Unicode.intraWordPunctuation (u : Unicode) : Regex Char :=
  .behind u.isLetter (.many 1 u.isPunctuation (.ahead u.isLetter .done))

/-- `_LEETSPEAK`. -/
def leetspeakTable : Char → Char
  | '0' => 'o'
  | '1' => 'i'
  | '3' => 'e'
  | '4' => 'a'
  | '5' => 's'
  | '7' => 't'
  | '@' => 'a'
  | '$' => 's'
  | c => c

/-- `normalize_text`, on the characters. -/
def normalizeChars (u : Unicode) (text : List Char) : List Char :=
  let normalized := (u.nfkc text).flatMap u.casefold
  let normalized := zeroWidth.sub (fun _ ↦ []) normalized
  let normalized := normalized.map leetspeakTable
  let normalized := u.intraWordPunctuation.sub (fun _ ↦ []) normalized
  -- The first character of what is matched is the group `\1`.
  let normalized := repeatedCharacters.sub (List.take 1) normalized
  strip (whitespace.sub (fun _ ↦ [' ']) normalized)

/-- `normalize_text`. -/
def normalizeText (u : Unicode) (text : String) : String :=
  String.ofList (normalizeChars u text.toList)

/-- `NORMALIZATION_VERSION`. -/
def normalizationVersion : String := "sentinel-normalization-v2"

/-! ## The two groups -/

/-- The passes that look at one character at a time. -/
def unmask (u : Unicode) (text : List Char) : List Char :=
  (((u.nfkc text).flatMap u.casefold).filter fun c ↦ !isZeroWidth c).map leetspeakTable

/-- The passes that look around, short of the blanks at the ends. -/
def squeeze (u : Unicode) (s : List Char) : List Char :=
  collapse isSpace ' ' false
    (unflood (· != '\n') none (unpunctuate u.isLetter u.isPunctuation false s))

variable {u : Unicode}

/-- A statement about ASCII characters is a statement about 128 numbers. -/
theorem ascii_induction {p : Char → Prop} (h : ∀ n < 128, p (Char.ofNat n)) {c : Char}
    (hc : isAscii c = true) : p c := by
  have hlt : c.toNat < 128 := of_decide_eq_true hc
  rw [← Char.ofNat_toNat c]
  exact h c.toNat hlt

theorem Unicode.isPunctuation_of_isLetter (c : Char) (h : u.isLetter c = true) :
    u.isPunctuation c = false := by
  simp only [isLetter, Bool.and_eq_true, bne_iff_ne] at h
  simp [isPunctuation, h.1.1, h.2]

theorem Unicode.isPunctuation_of_isSpace {c : Char} (h : isSpace c = true) :
    u.isPunctuation c = false := by
  have hne : c ≠ '_' := by
    rintro rfl
    cases h
  simp [isPunctuation, h, hne]

theorem Unicode.isSpace_of_isLetter {c : Char} (h : u.isLetter c = true) : isSpace c = false := by
  simp only [isLetter, Bool.and_eq_true, isAlnum] at h
  obtain ⟨⟨halnum, -⟩, -⟩ := h
  split_ifs at halnum with hascii
  · refine ascii_induction (p := fun c ↦ c.isAlphanum = true → isSpace c = false) ?_ hascii halnum
    decide +kernel
  · exact u.isSpace_of_wideAlnum c halnum

theorem Unicode.isLetter_of_isSpace {c : Char} (h : isSpace c = true) : u.isLetter c = false := by
  rw [← Bool.not_eq_true]
  intro hletter
  rw [isSpace_of_isLetter hletter] at h
  cases h

theorem normalizeChars_eq (text : List Char) :
    normalizeChars u text = strip (squeeze u (unmask u text)) := by
  have hzero : ∀ s : List Char, zeroWidth.sub (fun _ ↦ []) s = s.filter fun c ↦ !isZeroWidth c := by
    intro s
    rw [zeroWidth, Regex.sub_char]
    induction s with
    | nil => rfl
    | cons c s ih =>
      rw [List.flatMap_cons, ih, List.filter_cons]
      cases isZeroWidth c <;> rfl
  rw [normalizeChars, hzero, Unicode.intraWordPunctuation,
    Regex.sub_between Unicode.isPunctuation_of_isLetter, repeatedCharacters, Regex.sub_repeated,
    whitespace, Regex.sub_many]
  rfl

/-! ## Plain characters -/

/-- On an alphabet the tables do what they do to ASCII texts: compatibility normalization changes
nothing, and case folding is lowercasing. -/
structure Unicode.Plain (u : Unicode) (alphabet : Char → Prop) : Prop where
  nfkc : ∀ text : List Char, (∀ c ∈ text, alphabet c) → u.nfkc text = text
  casefold : ∀ c, alphabet c → u.casefold c = [c.toLower]

theorem Unicode.sample_plain (alphabet : Char → Prop) : Unicode.sample.Plain alphabet where
  nfkc _ _ := rfl
  casefold _ _ := rfl

/-- What the passes that look at one character make of a plain one. -/
def unmaskChar (c : Char) : List Char :=
  if isZeroWidth c.toLower then [] else [leetspeakTable c.toLower]

theorem unmask_of_plain {alphabet : Char → Prop} (hu : u.Plain alphabet) {text : List Char}
    (htext : ∀ c ∈ text, alphabet c) : unmask u text = text.flatMap unmaskChar := by
  rw [unmask, hu.nfkc text htext]
  induction text with
  | nil => rfl
  | cons c text ih =>
    have hrest : ∀ d ∈ text, alphabet d := fun d hd ↦ htext d (List.mem_cons_of_mem c hd)
    rw [List.flatMap_cons, List.flatMap_cons, hu.casefold c (htext c List.mem_cons_self),
      List.filter_append, List.map_append, ih hrest, unmaskChar, List.filter_cons]
    cases isZeroWidth c.toLower <;> rfl

/-! ## ASCII -/

theorem Unicode.isLetter_of_isAscii {c : Char} (hc : isAscii c = true) :
    u.isLetter c = c.isAlpha := by
  rw [isLetter, isAlnum, isDecimal, if_pos hc, if_pos hc]
  refine ascii_induction (p := fun c ↦ (c.isAlphanum && !c.isDigit && c != '_') = c.isAlpha) ?_ hc
  decide +kernel

theorem Unicode.isPunctuation_of_isAscii {c : Char} (hc : isAscii c = true) :
    u.isPunctuation c = (!c.isAlphanum && !isSpace c) := by
  rw [isPunctuation, isAlnum, if_pos hc]
  refine ascii_induction (p := fun c ↦ (!(c.isAlphanum || c == '_') && !isSpace c || c == '_')
    = (!c.isAlphanum && !isSpace c)) ?_ hc
  decide +kernel

end Sentinel
