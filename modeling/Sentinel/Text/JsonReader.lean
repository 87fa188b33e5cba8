import Sentinel.Text.Json

/-!
# Reading JSON

The reader of Python's `json` module, over the front of a text: a value, and the text behind it. It
takes a number to be the longest run of characters that numbers are made of. Python takes the
longest run that is a number, but what is left of the run then begins with a character that no
document goes on with, so that either both read the document or neither does. A code unit of half a
surrogate pair stands for no character and is rejected here; Python leaves it to whoever uses the
string. Python's limit on the digits of an integer is not applied here but by those who read a
document that may exceed it.

Nested values are read with less fuel. The length of the text is enough for every document that the
writer has written.

The reader reads back what the writer has written, whatever follows, so that the writer is
injective.
-/

namespace Text

/-! ## Strings -/

def unescape (letter : Char) : Option Char :=
  if letter = '"' ∨ letter = '\\' ∨ letter = '/' then some letter
  else if letter = 'n' then some '\n'
  else if letter = 'r' then some '\r'
  else if letter = 't' then some '\t'
  else if letter = 'f' then some '\x0c'
  else if letter = 'b' then some '\x08'
  else none

/-- The second half of a surrogate pair, with its escape, behind the first. -/
def readLowSurrogate (high : ℕ) : List Char → Option (Char × List Char)
  | c :: d :: s =>
    if c = '\\' ∧ d = 'u' then
      (readDigits 16 4 0 s).bind fun low ↦
        if 0xdc00 ≤ low.1 ∧ low.1 ≤ 0xdfff then
          some (Char.ofNat (0x10000 + (high - 0xd800) * 0x400 + (low.1 - 0xdc00)), low.2)
        else none
    else none
  | _ => none

/-- The character of an escape by code units, behind `\u`. -/
def readUnicode (s : List Char) : Option (Char × List Char) :=
  (readDigits 16 4 0 s).bind fun codeUnit ↦
    if 0xd800 ≤ codeUnit.1 ∧ codeUnit.1 ≤ 0xdbff then readLowSurrogate codeUnit.1 codeUnit.2
    else if 0xdc00 ≤ codeUnit.1 ∧ codeUnit.1 ≤ 0xdfff then none
    else some (Char.ofNat codeUnit.1, codeUnit.2)

/-- The character of an escape, behind the backslash. -/
def readEscape : List Char → Option (Char × List Char)
  | [] => none
  | letter :: s =>
    if letter = 'u' then readUnicode s else (unescape letter).map fun c ↦ (c, s)

/-- A character of a string. Control characters have to be escaped. -/
def readChar (c : Char) (s : List Char) : Option (Char × List Char) :=
  if c = '\\' then readEscape s else if c.toNat < 0x20 then none else some (c, s)

/-- The characters of a string up to the closing quotation mark, which is read as well. -/
def readChars : ℕ → List Char → Option (List Char × List Char)
  | 0, _ => none
  | _ + 1, [] => none
  | fuel + 1, c :: s =>
    if c = '"' then some ([], s)
    else (readChar c s).bind fun d ↦ (readChars fuel d.2).map fun ds ↦ (d.1 :: ds.1, ds.2)

theorem unescape_of_shortEscape {c letter : Char} (h : shortEscape c = some letter) :
    unescape letter = some c := by
  unfold shortEscape at h
  split_ifs at h <;> (cases h; subst c; rfl)

theorem shortEscape_ne_u {c letter : Char} (h : shortEscape c = some letter) : letter ≠ 'u' := by
  unfold shortEscape at h
  split_ifs at h <;> (cases h; decide)

theorem ne_of_shortEscape_eq_none {c : Char} (h : shortEscape c = none) : c ≠ '"' ∧ c ≠ '\\' := by
  constructor <;> rintro rfl <;> exact absurd h (by decide)

private theorem toNat_lt (c : Char) : c.toNat < 0x110000 := by
  rcases c.valid with h | ⟨_, h⟩
  · exact Nat.lt_trans h (by decide)
  · exact h

private theorem not_surrogate (c : Char) : c.toNat < 0xd800 ∨ 0xdfff < c.toNat := by
  rcases c.valid with h | ⟨h, _⟩
  · exact .inl h
  · exact .inr h

private theorem readDigits_unit {codeUnit : ℕ} (h : codeUnit < 0x10000) (s : List Char) :
    readDigits 16 4 0 (digits 16 4 codeUnit ++ s) = some (codeUnit, s) := by
  rw [readDigits_digits (by decide) (by decide) 0 s h, Nat.mul_zero, Nat.zero_add]

theorem readEscape_utf16 (c : Char) (s : List Char) :
    ∃ rest, (utf16 c).flatMap unitEscape ++ s = '\\' :: rest ∧ readEscape rest = some (c, s) := by
  have hlt := toNat_lt c
  have hne := not_surrogate c
  rw [utf16]
  split_ifs with hbasic
  · refine ⟨'u' :: (digits 16 4 c.toNat ++ s), by simp [unitEscape], ?_⟩
    rw [readEscape, if_pos rfl, readUnicode, readDigits_unit hbasic, Option.bind_some,
      if_neg (by omega), if_neg (by omega), Char.ofNat_toNat]
  · refine ⟨'u' :: (digits 16 4 (0xd800 + (c.toNat - 0x10000) / 0x400) ++ '\\' :: 'u' ::
      (digits 16 4 (0xdc00 + (c.toNat - 0x10000) % 0x400) ++ s)), by simp [unitEscape], ?_⟩
    rw [readEscape, if_pos rfl, readUnicode, readDigits_unit (by omega), Option.bind_some,
      if_pos (by omega), readLowSurrogate, if_pos ⟨rfl, rfl⟩, readDigits_unit (by omega),
      Option.bind_some, if_pos (by omega)]
    have hsum : 0x10000 + (0xd800 + (c.toNat - 0x10000) / 0x400 - 0xd800) * 0x400
        + (0xdc00 + (c.toNat - 0x10000) % 0x400 - 0xdc00) = c.toNat := by omega
    rw [hsum, Char.ofNat_toNat]

theorem readChar_escape (c : Char) (s : List Char) :
    ∃ d rest, escape c ++ s = d :: rest ∧ d ≠ '"' ∧ readChar d rest = some (c, s) := by
  rw [escape]
  cases hshort : shortEscape c with
  | some letter =>
    refine ⟨'\\', letter :: s, rfl, by decide, ?_⟩
    rw [readChar, if_pos rfl, readEscape, if_neg (shortEscape_ne_u hshort),
      unescape_of_shortEscape hshort, Option.map_some]
  | none =>
    obtain ⟨hquote, hbackslash⟩ := ne_of_shortEscape_eq_none hshort
    simp only
    split_ifs with hprint
    · rw [isPrintable, Bool.and_eq_true, decide_eq_true_eq, decide_eq_true_eq] at hprint
      refine ⟨c, s, rfl, hquote, ?_⟩
      rw [readChar, if_neg hbackslash, if_neg (Nat.not_lt.mpr hprint.1)]
    · obtain ⟨rest, htext, hread⟩ := readEscape_utf16 c s
      exact ⟨'\\', rest, htext, by decide, by rw [readChar, if_pos rfl, hread]⟩

theorem readChars_closeQuote : ∀ {cs s : List Char} {fuel : ℕ}, (closeQuote cs).length ≤ fuel →
    readChars fuel (closeQuote cs ++ s) = some (cs, s) := by
  intro cs
  induction cs with
  | nil =>
    intro s fuel hfuel
    obtain ⟨fuel, rfl⟩ := Nat.exists_eq_succ_of_ne_zero (Nat.one_le_iff_ne_zero.mp hfuel)
    rw [closeQuote, List.singleton_append, readChars, if_pos rfl]
  | cons c cs ih =>
    intro s fuel hfuel
    obtain ⟨d, rest, htext, hquote, hread⟩ := readChar_escape c (closeQuote cs ++ s)
    have hlength : 0 < (escape c).length := by
      obtain ⟨d', rest', htext', -⟩ := readChar_escape c []
      rw [List.append_nil] at htext'
      rw [htext', List.length_cons]
      exact Nat.succ_pos _
    rw [closeQuote, List.length_append] at hfuel
    obtain ⟨fuel, rfl⟩ := Nat.exists_eq_succ_of_ne_zero (n := fuel) (by omega)
    rw [closeQuote, List.append_assoc, htext, readChars, if_neg hquote, hread, Option.bind_some,
      ih (by omega), Option.map_some]

/-! ## Numbers and constants -/

/-- The text does not continue a number. -/
def Stops (s : List Char) : Prop := ∀ c ∈ s.head?, isNumeric c = false

theorem stops_nil : Stops [] := by simp [Stops]

theorem stops_cons {c : Char} {s : List Char} (h : isNumeric c = false) : Stops (c :: s) := by
  rintro d ⟨⟩
  exact h

/-- The run of numeric characters in front of a text. -/
def numericRun (s : List Char) : List Char := s.takeWhile isNumeric

theorem numericRun_append {l s : List Char} (hl : ∀ c ∈ l, isNumeric c = true) (hs : Stops s) :
    numericRun (l ++ s) = l := by
  rw [numericRun, List.takeWhile_append_of_pos hl]
  cases s with
  | nil => rw [List.takeWhile_nil, List.append_nil]
  | cons c s => rw [List.takeWhile_cons_of_neg (by rw [hs c rfl]; decide), List.append_nil]

def readAtom (s : List Char) : Option (Json × List Char) :=
  if h : isNumberText (numericRun s) = true then
    some (.number ⟨numericRun s, fun _ hc ↦ List.mem_takeWhile_imp hc, h⟩,
      s.dropWhile isNumeric)
  else
    (Constant.all.find? fun constant ↦ constant.chars.isPrefixOf s).map fun constant ↦
      (.constant constant, s.drop constant.chars.length)

theorem readAtom_number (literal : NumberLiteral) {s : List Char} (hs : Stops s) :
    readAtom (literal.chars ++ s) = some (.number literal, s) := by
  have hrun := numericRun_append literal.isNumeric hs
  have hrest : (literal.chars ++ s).dropWhile isNumeric = s := by
    have hsplit := List.takeWhile_append_dropWhile (p := isNumeric) (l := literal.chars ++ s)
    rw [← numericRun, hrun] at hsplit
    exact List.append_cancel_left hsplit
  rw [readAtom, dif_pos (by rw [hrun]; exact literal.isNumberText)]
  simp only [hrun, hrest]

theorem readAtom_constant (constant : Constant) (s : List Char) :
    readAtom (constant.chars ++ s) = some (.constant constant, s) := by
  cases constant <;> rfl

theorem eq_append_of_readAtom {x : Json} {s r : List Char} (h : readAtom s = some (x, r)) :
    (∃ literal, x = .number literal ∧ s = literal.chars ++ r ∧ Stops r) ∨
      ∃ constant, x = .constant constant ∧ s = constant.chars ++ r := by
  rw [readAtom] at h
  split_ifs at h with hnumber
  · cases h
    refine .inl ⟨_, rfl, List.takeWhile_append_dropWhile.symm, ?_⟩
    intro c hc
    have hhead := List.head?_dropWhile_not isNumeric s
    rwa [Option.mem_def.mp hc] at hhead
  · obtain ⟨constant, hfind, hpair⟩ := Option.map_eq_some_iff.mp h
    cases hpair
    refine .inr ⟨constant, rfl, ?_⟩
    have hprefix : constant.chars.isPrefixOf s = true :=
      List.find?_some (p := fun value : Constant ↦ value.chars.isPrefixOf s) hfind
    exact (List.prefix_iff_eq_append.mp (List.isPrefixOf_iff_prefix.mp hprefix)).symm

theorem readAtom_append {x : Json} {s r : List Char} (t : List Char)
    (h : readAtom s = some (x, r)) (hx : x.isNumber = true → r ≠ []) :
    readAtom (s ++ t) = some (x, r ++ t) := by
  rcases eq_append_of_readAtom h with ⟨literal, rfl, rfl, hstops⟩ | ⟨constant, rfl, rfl⟩
  · obtain ⟨c, rest, rfl⟩ := List.exists_cons_of_ne_nil (hx rfl)
    rw [List.append_assoc]
    exact readAtom_number literal (stops_cons (hstops c rfl))
  · rw [List.append_assoc]
    exact readAtom_constant constant _

/-! ## Documents -/

def isJsonSpace (c : Char) : Bool := c == ' ' || c == '\t' || c == '\n' || c == '\r'

/-- The text behind the blanks in front of it. -/
def skipSpace (s : List Char) : List Char := s.dropWhile isJsonSpace

/-- The text behind a punctuation character, with blanks in front of it. -/
def token (c : Char) (s : List Char) : Option (List Char) :=
  match skipSpace s with
  | [] => none
  | d :: r => if d = c then some r else none

mutual

def readValue : ℕ → List Char → Option (Json × List Char)
  | 0, _ => none
  | _ + 1, [] => none
  | fuel + 1, c :: s =>
    if c = '"' then
      (readChars fuel s).map fun chars ↦ (.string (String.ofList chars.1), chars.2)
    else if c = '[' then
      match token ']' s with
      | some r => some (.array [], r)
      | none => (readItems fuel s).map fun items ↦ (.array items.1, items.2)
    else if c = '{' then
      match token '}' s with
      | some r => some (.object [], r)
      | none => (readMembers fuel s).map fun members ↦ (.object members.1, members.2)
    else readAtom (c :: s)

/-- The items of an array, of which there is at least one, and the closing bracket. -/
def readItems : ℕ → List Char → Option (List Json × List Char)
  | 0, _ => none
  | fuel + 1, s =>
    (readValue fuel (skipSpace s)).bind fun item ↦
      match token ',' item.2 with
      | some r => (readItems fuel r).map fun items ↦ (item.1 :: items.1, items.2)
      | none => (token ']' item.2).map fun r ↦ ([item.1], r)

/-- The members of an object, of which there is at least one, and the closing brace. -/
def readMembers : ℕ → List Char → Option (List (String × Json) × List Char)
  | 0, _ => none
  | fuel + 1, s =>
    (token '"' s).bind fun s ↦ (readChars fuel s).bind fun name ↦
      (token ':' name.2).bind fun s ↦ (readValue fuel (skipSpace s)).bind fun value ↦
        match token ',' value.2 with
        | some r => (readMembers fuel r).map fun members ↦
            ((String.ofList name.1, value.1) :: members.1, members.2)
        | none => (token '}' value.2).map fun r ↦ ([(String.ofList name.1, value.1)], r)

end

/-- `json.loads`. -/
def Json.loads (s : List Char) : Option Json :=
  (readValue (s.length + 1) (skipSpace s)).bind fun document ↦
    if skipSpace document.2 = [] then some document.1 else none

/-! ### The beginning of a text -/

/-- The kind of a document, as its first character tells it. -/
def Json.headIs (document : Json) (c : Char) : Prop :=
  match document with
  | .constant value => value.chars.head? = some c
  | .number _ => isNumeric c = true
  | .string _ => c = '"'
  | .array _ => c = '['
  | .object _ => c = '{'

theorem Json.exists_dumps_eq_cons (document : Json) :
    ∃ c rest, document.dumps = c :: rest ∧ document.headIs c := by
  cases document with
  | constant value => cases value <;> exact ⟨_, _, by rw [dumps, Constant.chars], rfl⟩
  | number literal =>
    obtain ⟨c, rest, hchars⟩ := List.exists_cons_of_ne_nil literal.ne_nil
    exact ⟨c, rest, by rw [dumps, hchars], literal.isNumeric c (hchars ▸ List.mem_cons_self)⟩
  | string value => exact ⟨_, _, by rw [dumps, quote], rfl⟩
  | array items => cases items <;> exact ⟨_, _, by rw [dumps], rfl⟩
  | object members =>
    rcases members with _ | ⟨⟨name, value⟩, members⟩ <;> exact ⟨_, _, by rw [dumps], rfl⟩

theorem Json.headIs_visible {document : Json} {c : Char} (h : document.headIs c) :
    Visible c ∧ c ≠ ']' := by
  cases document with
  | constant value => cases value <;> (cases h; decide)
  | number literal =>
    rw [headIs] at h
    refine ⟨isNumeric_visible h, ?_⟩
    rintro rfl
    exact absurd h (by decide)
  | string value => cases h; decide
  | array items => cases h; decide
  | object members => cases h; decide

theorem isJsonSpace_of_visible {c : Char} (h : Visible c) : isJsonSpace c = false := by
  rw [← Bool.not_eq_true]
  intro hspace
  simp only [isJsonSpace, Bool.or_eq_true, beq_iff_eq] at hspace
  rcases hspace with ((rfl | rfl) | rfl) | rfl <;> exact absurd h (by decide)

theorem skipSpace_cons {c : Char} (hc : isJsonSpace c = false) (s : List Char) :
    skipSpace (c :: s) = c :: s := by
  rw [skipSpace, List.dropWhile_cons_of_neg (by rw [hc]; decide)]

theorem Json.skipSpace_dumps (document : Json) (s : List Char) :
    skipSpace (document.dumps ++ s) = document.dumps ++ s := by
  obtain ⟨c, rest, hdumps, hhead⟩ := document.exists_dumps_eq_cons
  rw [hdumps, List.cons_append, skipSpace_cons (isJsonSpace_of_visible (headIs_visible hhead).1)]

theorem token_cons {c : Char} (hc : isJsonSpace c = false) (s : List Char) :
    token c (c :: s) = some s := by
  rw [token, skipSpace_cons hc]
  exact if_pos rfl

theorem token_cons_of_ne {c d : Char} (hd : isJsonSpace d = false) (hne : d ≠ c) (s : List Char) :
    token c (d :: s) = none := by
  rw [token, skipSpace_cons hd]
  exact if_neg hne

theorem token_eq_some {c : Char} {s r : List Char} (h : token c s = some r) :
    skipSpace s = c :: r := by
  rw [token] at h
  cases hs : skipSpace s with
  | nil => rw [hs] at h; cases h
  | cons d r' =>
    rw [hs] at h
    simp only at h
    split_ifs at h with hd
    cases h
    rw [hd]

theorem token_of_ne {c d : Char} {s r : List Char} (h : token c s = some r) (hne : c ≠ d) :
    token d s = none := by
  rw [token, token_eq_some h]
  exact if_neg hne

theorem skipSpace_append {c : Char} {s r : List Char} (t : List Char)
    (h : skipSpace s = c :: r) : skipSpace (s ++ t) = c :: r ++ t := by
  rw [skipSpace] at h ⊢
  induction s with
  | nil => cases h
  | cons d s ih =>
    rw [List.cons_append, List.dropWhile_cons] at *
    split_ifs at h ⊢
    · exact ih h
    · rw [← h]
      rfl

theorem token_append {c : Char} {s r : List Char} (t : List Char) (h : token c s = some r) :
    token c (s ++ t) = some (r ++ t) := by
  rw [token, skipSpace_append t (token_eq_some h)]
  exact if_pos rfl

/-! ### What has been written -/

theorem stops_dumpsItems (items : List Json) (s : List Char) :
    Stops (Json.dumpsItems items ++ s) := by
  cases items <;> (rw [Json.dumpsItems]; exact stops_cons (by decide))

theorem stops_dumpsMembers (members : List (String × Json)) (s : List Char) :
    Stops (Json.dumpsMembers members ++ s) := by
  cases members <;> (rw [Json.dumpsMembers]; exact stops_cons (by decide))

theorem readValue_atom {c : Char} (hc : c ≠ '"' ∧ c ≠ '[' ∧ c ≠ '{') (fuel : ℕ) (s : List Char) :
    readValue (fuel + 1) (c :: s) = readAtom (c :: s) := by
  rw [readValue, if_neg hc.1, if_neg hc.2.1, if_neg hc.2.2]

/-- Blanks and closing brackets aside, the first item of an array is what comes first. -/
theorem token_dumps (document : Json) (s : List Char) : token ']' (document.dumps ++ s) = none := by
  obtain ⟨c, rest, hdumps, hhead⟩ := document.exists_dumps_eq_cons
  obtain ⟨hvisible, hne⟩ := Json.headIs_visible hhead
  rw [hdumps, List.cons_append]
  exact token_cons_of_ne (isJsonSpace_of_visible hvisible) hne _

mutual

/-- **Documents are read back**, whatever follows them. -/
theorem readValue_dumps : ∀ (x : Json) {s : List Char} {fuel : ℕ}, (x.isNumber = true → Stops s) →
    x.dumps.length ≤ fuel → readValue fuel (x.dumps ++ s) = some (x, s)
  | .constant value, s, fuel, _, hfuel => by
    rw [Json.dumps] at hfuel ⊢
    obtain ⟨c, rest, hchars, hc⟩ : ∃ c rest, value.chars = c :: rest ∧
        (c ≠ '"' ∧ c ≠ '[' ∧ c ≠ '{') := by
      cases value <;> exact ⟨_, _, rfl, by decide⟩
    rw [hchars, List.length_cons] at hfuel
    obtain ⟨fuel, rfl⟩ := Nat.exists_eq_succ_of_ne_zero (n := fuel) (by omega)
    have hread := readAtom_constant value s
    rw [hchars, List.cons_append] at hread ⊢
    rw [readValue_atom hc, hread]
  | .number literal, s, fuel, hs, hfuel => by
    rw [Json.dumps] at hfuel ⊢
    obtain ⟨c, rest, hchars⟩ := List.exists_cons_of_ne_nil literal.ne_nil
    have hnumeric : isNumeric c = true := literal.isNumeric c (hchars ▸ List.mem_cons_self)
    have hc : c ≠ '"' ∧ c ≠ '[' ∧ c ≠ '{' := by
      refine ⟨?_, ?_, ?_⟩ <;> rintro rfl <;> exact absurd hnumeric (by decide)
    rw [hchars, List.length_cons] at hfuel
    obtain ⟨fuel, rfl⟩ := Nat.exists_eq_succ_of_ne_zero (n := fuel) (by omega)
    have hread := readAtom_number literal (hs rfl)
    rw [hchars, List.cons_append] at hread ⊢
    rw [readValue_atom hc, hread]
  | .string value, s, fuel, _, hfuel => by
    rw [Json.dumps, quote] at hfuel ⊢
    rw [List.length_cons] at hfuel
    obtain ⟨fuel, rfl⟩ := Nat.exists_eq_succ_of_ne_zero (n := fuel) (by omega)
    rw [List.cons_append, readValue, if_pos rfl, readChars_closeQuote (by omega), Option.map_some,
      String.ofList_toList]
  | .array [], s, fuel, _, hfuel => by
    rw [Json.dumps] at hfuel ⊢
    obtain ⟨fuel, rfl⟩ := Nat.exists_eq_succ_of_ne_zero (n := fuel) (by rintro rfl; cases hfuel)
    rw [List.cons_append, readValue, if_neg (by decide), if_pos rfl, List.singleton_append,
      token_cons (by decide)]
  | .array (item :: items), s, fuel, _, hfuel => by
    rw [Json.dumps] at hfuel ⊢
    rw [List.length_cons, List.length_append] at hfuel
    obtain ⟨fuel, rfl⟩ := Nat.exists_eq_succ_of_ne_zero (n := fuel) (by omega)
    rw [List.cons_append, readValue, if_neg (by decide), if_pos rfl, List.append_assoc,
      token_dumps]
    simp only
    rw [readItems_dumps (item :: items) (by rw [Json.dumpsItems, List.cons_append,
      List.append_assoc]) (by rw [Json.dumpsItems, List.length_cons, List.length_append]; omega),
      Option.map_some]
  | .object [], s, fuel, _, hfuel => by
    rw [Json.dumps] at hfuel ⊢
    obtain ⟨fuel, rfl⟩ := Nat.exists_eq_succ_of_ne_zero (n := fuel) (by rintro rfl; cases hfuel)
    rw [List.cons_append, readValue, if_neg (by decide), if_neg (by decide), if_pos rfl,
      List.singleton_append, token_cons (by decide)]
  | .object ((name, value) :: members), s, fuel, _, hfuel => by
    rw [Json.dumps] at hfuel ⊢
    simp only [List.length_cons, List.length_append] at hfuel
    obtain ⟨fuel, rfl⟩ := Nat.exists_eq_succ_of_ne_zero (n := fuel) (by omega)
    rw [List.cons_append, readValue, if_neg (by decide), if_neg (by decide), if_pos rfl]
    have hopen : token '}' (quote name ++ ':' :: (value.dumps ++ Json.dumpsMembers members) ++ s)
        = none := by
      rw [quote]
      exact token_cons_of_ne (by decide) (by decide) _
    rw [hopen]
    simp only
    rw [readMembers_dumps ((name, value) :: members) (by rw [Json.dumpsMembers, List.cons_append])
      (by rw [Json.dumpsMembers]; simp only [List.length_cons, List.length_append]; omega),
      Option.map_some]

theorem readItems_dumps : ∀ (items : List Json) {s t : List Char} {fuel : ℕ},
    Json.dumpsItems items ++ s = ',' :: t → (Json.dumpsItems items).length ≤ fuel + 1 →
      readItems fuel t = some (items, s)
  | [], s, t, fuel, h, _ => by
    rw [Json.dumpsItems] at h
    exact absurd (List.cons.inj h).1 (by decide)
  | item :: items, s, t, fuel, h, hfuel => by
    rw [Json.dumpsItems] at h hfuel
    rw [List.length_cons, List.length_append] at hfuel
    rw [List.cons_append, List.append_assoc] at h
    obtain rfl := (List.cons.inj h).2
    have hlength : 0 < (Json.dumpsItems items).length := by
      cases items <;> (rw [Json.dumpsItems]; exact Nat.succ_pos _)
    obtain ⟨fuel, rfl⟩ := Nat.exists_eq_succ_of_ne_zero (n := fuel) (by omega)
    rw [readItems, Json.skipSpace_dumps, readValue_dumps item (fun _ ↦ stops_dumpsItems items s)
      (by omega), Option.bind_some]
    simp only
    cases items with
    | nil =>
      rw [Json.dumpsItems, List.singleton_append, token_cons_of_ne (by decide) (by decide)]
      simp only
      rw [token_cons (by decide), Option.map_some]
    | cons item' items =>
      have htext : Json.dumpsItems (item' :: items) ++ s
          = ',' :: (item'.dumps ++ Json.dumpsItems items ++ s) := by
        rw [Json.dumpsItems, List.cons_append]
      rw [htext, token_cons (by decide)]
      simp only
      rw [readItems_dumps (item' :: items) htext (by omega), Option.map_some]

theorem readMembers_dumps : ∀ (members : List (String × Json)) {s t : List Char} {fuel : ℕ},
    Json.dumpsMembers members ++ s = ',' :: t → (Json.dumpsMembers members).length ≤ fuel + 1 →
      readMembers fuel t = some (members, s)
  | [], s, t, fuel, h, _ => by
    rw [Json.dumpsMembers] at h
    exact absurd (List.cons.inj h).1 (by decide)
  | (name, value) :: members, s, t, fuel, h, hfuel => by
    rw [Json.dumpsMembers] at h hfuel
    simp only [List.length_cons, List.length_append, quote] at hfuel
    rw [List.cons_append, List.append_assoc, List.cons_append, List.append_assoc] at h
    obtain rfl := (List.cons.inj h).2
    obtain ⟨fuel, rfl⟩ := Nat.exists_eq_succ_of_ne_zero (n := fuel) (by omega)
    rw [readMembers, quote, List.cons_append, token_cons (by decide), Option.bind_some,
      readChars_closeQuote (by omega), Option.bind_some]
    simp only
    rw [token_cons (by decide), Option.bind_some, Json.skipSpace_dumps,
      readValue_dumps value (fun _ ↦ stops_dumpsMembers members s) (by omega), Option.bind_some,
      String.ofList_toList]
    simp only
    cases members with
    | nil =>
      rw [Json.dumpsMembers, List.singleton_append, token_cons_of_ne (by decide) (by decide)]
      simp only
      rw [token_cons (by decide), Option.map_some]
    | cons member members =>
      obtain ⟨name', value'⟩ := member
      have htext : Json.dumpsMembers ((name', value') :: members) ++ s
          = ',' :: (quote name' ++ ':' :: (value'.dumps ++ Json.dumpsMembers members) ++ s) := by
        rw [Json.dumpsMembers, List.cons_append]
      rw [htext, token_cons (by decide)]
      simp only
      rw [readMembers_dumps ((name', value') :: members) htext (by omega), Option.map_some]

end

/-! ## Texts of documents -/

namespace Json

/-- `document[name]`, where Python finds one. Of several members with a name the last one counts. -/
def member (name : String) : Json → Option Json
  | object members => members.reverse.lookup name
  | constant _ | number _ | string _ | array _ => none

/-- **A document can be read off the front of a text.** -/
theorem dumps_append_inj {x y : Json} {s t : List Char} (hx : x.isNumber = true → Stops s)
    (hy : y.isNumber = true → Stops t) (h : x.dumps ++ s = y.dumps ++ t) : x = y ∧ s = t := by
  have hread := readValue_dumps x hx (Nat.le_max_left x.dumps.length y.dumps.length)
  rw [h, readValue_dumps y hy (Nat.le_max_right _ _), Option.some_inj, Prod.mk.injEq] at hread
  exact ⟨hread.1.symm, hread.2.symm⟩

theorem dumps_injective : Function.Injective dumps := by
  intro x y h
  exact (dumps_append_inj (fun _ ↦ stops_nil) (fun _ ↦ stops_nil) (congrArg (· ++ []) h)).1

/-- **`json.loads` reads what `json.dumps` has written.** -/
theorem loads_dumps (x : Json) : loads x.dumps = some x := by
  have hread := readValue_dumps x (fun _ ↦ stops_nil) (Nat.le_succ x.dumps.length)
  have hspace := x.skipSpace_dumps []
  rw [List.append_nil] at hread hspace
  rw [loads, hspace, hread, Option.bind_some]
  exact if_pos rfl

/-- What is read is of the kind that the first character tells. -/
theorem headIs_of_readValue {fuel : ℕ} {x : Json} {c : Char} {s r : List Char}
    (h : readValue fuel (c :: s) = some (x, r)) : x.headIs c := by
  cases fuel with
  | zero => cases h
  | succ fuel =>
    rw [readValue] at h
    split_ifs at h with hquote hbracket hbrace
    · obtain ⟨chars, -, hpair⟩ := Option.map_eq_some_iff.mp h
      cases hpair
      exact hquote
    · split at h
      · cases h
        exact hbracket
      · obtain ⟨items, -, hpair⟩ := Option.map_eq_some_iff.mp h
        cases hpair
        exact hbracket
    · split at h
      · cases h
        exact hbrace
      · obtain ⟨members, -, hpair⟩ := Option.map_eq_some_iff.mp h
        cases hpair
        exact hbrace
    · rcases eq_append_of_readAtom h with ⟨literal, rfl, htext, -⟩ | ⟨constant, rfl, htext⟩
      · obtain ⟨d, rest, hchars⟩ := List.exists_cons_of_ne_nil literal.ne_nil
        rw [hchars, List.cons_append] at htext
        rw [(List.cons.inj htext).1]
        exact literal.isNumeric d (hchars ▸ List.mem_cons_self)
      · rw [headIs]
        cases constant <;> (rw [(List.cons.inj htext).1]; rfl)

theorem exists_head_of_loads {x : Json} {s : List Char} (h : loads s = some x) :
    ∃ c rest, skipSpace s = c :: rest ∧ x.headIs c := by
  obtain ⟨⟨y, r⟩, hread, hend⟩ := Option.bind_eq_some_iff.mp h
  have hxy : y = x := by
    split_ifs at hend
    exact Option.some_inj.mp hend
  cases hs : skipSpace s with
  | nil =>
    rw [hs] at hread
    cases hread
  | cons c rest =>
    rw [hs] at hread
    exact ⟨c, rest, rfl, hxy ▸ headIs_of_readValue hread⟩

end Json

example : Json.loads ['[', '"', 'a', '"', ' ', ',', '0', ']']
    = some (.array [.string "a", .number (.nat 0)]) := rfl

end Text
