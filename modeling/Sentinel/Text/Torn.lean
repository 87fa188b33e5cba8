import Sentinel.Text.JsonGrowth

/-!
# Torn texts

When appends to a file of JSON texts break off, what is appended next stands right behind a
beginning of a text. So the lines of such a file are put together from beginnings of texts. If the
texts are those of objects, the reader is not taken in: of these lines only those are documents that
consist of one whole text.

A reader that runs over the end of a beginning finds the brace of the next text. No number and no
escape goes on with it, and it is none of the punctuation behind a value. A string does go on with
it, up to the quotation mark behind the brace; but then the first name of the next text stands where
punctuation has to be, which is why the names must not begin with any.
-/

namespace Text

/-! ## Behind a beginning -/

/-- The text is empty or begins with a brace. -/
def Braced (s : List Char) : Prop := ∀ c ∈ s.head?, c = '{'

variable {s t r : List Char}

theorem braced_nil : Braced [] := by simp [Braced]

theorem braced_cons (s : List Char) : Braced ('{' :: s) := by
  rintro c ⟨⟩
  rfl

theorem Braced.eq_nil_or (h : Braced s) : s = [] ∨ ∃ rest, s = '{' :: rest := by
  cases s with
  | nil => exact .inl rfl
  | cons c s =>
    obtain rfl : c = '{' := h c rfl
    exact .inr ⟨s, rfl⟩

theorem Braced.split (h : Braced s) {l : List Char} (hl : '{' ∉ l) (heq : t ++ s = l ++ r) :
    ∃ r', t = l ++ r' ∧ r = r' ++ s := by
  rcases List.append_eq_append_iff.mp heq with ⟨a, rfl, rfl⟩ | ⟨r', rfl, rfl⟩
  · rcases h.eq_nil_or with hnil | ⟨rest, hcons⟩
    · obtain ⟨rfl, rfl⟩ := List.append_eq_nil_iff.mp hnil
      exact ⟨[], by simp, rfl⟩
    · cases a with
      | nil => exact ⟨[], by simp, rfl⟩
      | cons c a =>
        rw [(List.cons.inj hcons).1] at hl
        exact absurd (List.mem_append_right t List.mem_cons_self) hl
  · exact ⟨r', rfl, rfl⟩

theorem Braced.skipSpace (h : Braced s) (t : List Char) :
    skipSpace (t ++ s) = Text.skipSpace t ++ s := by
  induction t with
  | nil =>
    rcases h.eq_nil_or with rfl | ⟨rest, rfl⟩
    · rfl
    · exact skipSpace_cons (by decide) rest
  | cons c t ih =>
    rw [List.cons_append, Text.skipSpace, Text.skipSpace, List.dropWhile_cons, List.dropWhile_cons]
    split_ifs
    · exact ih
    · rfl

theorem Braced.token_eq_none (h : Braced s) {c : Char} (hc : c ≠ '{') : token c s = none := by
  rcases h.eq_nil_or with rfl | ⟨rest, rfl⟩
  · rfl
  · exact token_cons_of_ne (by decide) hc.symm rest

theorem Braced.token (h : Braced s) {c : Char} (hc : c ≠ '{')
    (htoken : token c (t ++ s) = some r) : ∃ r', r = r' ++ s ∧ Text.token c t = some r' := by
  have hskip := token_eq_some htoken
  rw [h.skipSpace] at hskip
  cases ht : Text.skipSpace t with
  | nil =>
    rw [ht, List.nil_append] at hskip
    exact absurd (h c (by rw [hskip]; rfl)) hc
  | cons d rest =>
    rw [ht, List.cons_append] at hskip
    obtain ⟨rfl, rfl⟩ := List.cons.inj hskip
    exact ⟨rest, rfl, by rw [Text.token, ht]; exact if_pos rfl⟩

theorem token_of_append {c : Char} (h : token c (t ++ s) = none) : token c t = none := by
  rw [Option.eq_none_iff_forall_ne_some]
  intro r htoken
  rw [token_append s htoken] at h
  cases h

/-! ### Escapes, numbers and constants -/

theorem Braced.readDigits (h : Braced s) {base : ℕ} : ∀ {width n m : ℕ} {t r : List Char},
    readDigits base width n (t ++ s) = some (m, r) →
      ∃ r', r = r' ++ s ∧ Text.readDigits base width n t = some (m, r') := by
  intro width
  induction width with
  | zero =>
    intro n m t r hread
    rw [Text.readDigits] at hread
    cases hread
    exact ⟨t, rfl, rfl⟩
  | succ width ih =>
    intro n m t r hread
    cases t with
    | nil =>
      rcases h.eq_nil_or with rfl | ⟨rest, rfl⟩ <;> cases hread
    | cons c t =>
      rw [List.cons_append, Text.readDigits] at hread
      rw [Text.readDigits]
      cases hd : digitValue c with
      | none =>
        simp only [hd] at hread
        cases hread
      | some d =>
        simp only [hd] at hread ⊢
        split_ifs at hread ⊢
        exact ih hread

theorem Braced.readLowSurrogate (h : Braced s) {high : ℕ} {c : Char}
    (hread : readLowSurrogate high (t ++ s) = some (c, r)) :
    ∃ r', r = r' ++ s ∧ Text.readLowSurrogate high t = some (c, r') := by
  match t, hread with
  | [], hread =>
    rcases h.eq_nil_or with rfl | ⟨_ | ⟨d, rest⟩, rfl⟩
    · cases hread
    · cases hread
    · rw [List.nil_append, Text.readLowSurrogate, if_neg (by simp)] at hread
      cases hread
  | [a], hread =>
    rcases h.eq_nil_or with rfl | ⟨rest, rfl⟩
    · cases hread
    · rw [List.singleton_append, Text.readLowSurrogate, if_neg (by simp)] at hread
      cases hread
  | a :: b :: t, hread =>
    rw [List.cons_append, List.cons_append, Text.readLowSurrogate] at hread
    rw [Text.readLowSurrogate]
    split_ifs at hread ⊢
    obtain ⟨⟨low, r₁⟩, hlow, hread⟩ := Option.bind_eq_some_iff.mp hread
    obtain ⟨r₂, rfl, hlow'⟩ := h.readDigits hlow
    rw [hlow', Option.bind_some]
    split_ifs at hread ⊢
    obtain ⟨rfl, rfl⟩ := Prod.mk.inj (Option.some.inj hread)
    exact ⟨r₂, rfl, rfl⟩

theorem Braced.readUnicode (h : Braced s) {c : Char} (hread : readUnicode (t ++ s) = some (c, r)) :
    ∃ r', r = r' ++ s ∧ Text.readUnicode t = some (c, r') := by
  rw [Text.readUnicode] at hread ⊢
  obtain ⟨⟨codeUnit, r₁⟩, hunit, hread⟩ := Option.bind_eq_some_iff.mp hread
  obtain ⟨r₂, rfl, hunit'⟩ := h.readDigits hunit
  rw [hunit', Option.bind_some]
  split_ifs at hread ⊢
  · exact h.readLowSurrogate hread
  · obtain ⟨rfl, rfl⟩ := Prod.mk.inj (Option.some.inj hread)
    exact ⟨r₂, rfl, rfl⟩

theorem Braced.readChar (h : Braced s) {c d : Char} (hread : readChar c (t ++ s) = some (d, r)) :
    ∃ r', r = r' ++ s ∧ Text.readChar c t = some (d, r') := by
  rw [Text.readChar] at hread ⊢
  split_ifs at hread ⊢
  · cases t with
    | nil =>
      rcases h.eq_nil_or with rfl | ⟨rest, rfl⟩ <;> cases hread
    | cons letter t =>
      rw [List.cons_append, readEscape] at hread
      rw [readEscape]
      split_ifs at hread ⊢
      · exact h.readUnicode hread
      · obtain ⟨e, he, hpair⟩ := Option.map_eq_some_iff.mp hread
        obtain ⟨rfl, rfl⟩ := Prod.mk.inj hpair
        exact ⟨t, rfl, by rw [he, Option.map_some]⟩
  · obtain ⟨rfl, rfl⟩ := Prod.mk.inj (Option.some.inj hread)
    exact ⟨t, rfl, rfl⟩

theorem Braced.readAtom (h : Braced s) {x : Json} (hread : readAtom (t ++ s) = some (x, r)) :
    ∃ r', r = r' ++ s ∧ Text.readAtom t = some (x, r') := by
  rcases eq_append_of_readAtom hread with ⟨literal, rfl, heq, hstops⟩ | ⟨constant, rfl, heq⟩
  · have hbrace : '{' ∉ literal.chars := fun hmem ↦
      absurd (literal.isNumeric _ hmem) (by decide)
    obtain ⟨r', rfl, rfl⟩ := h.split hbrace heq
    have hstops' : Stops r' := by
      cases r' with
      | nil => exact stops_nil
      | cons c r' => exact stops_cons (hstops c rfl)
    exact ⟨r', rfl, readAtom_number literal hstops'⟩
  · have hbrace : '{' ∉ constant.chars := by cases constant <;> decide
    obtain ⟨r', rfl, rfl⟩ := h.split hbrace heq
    exact ⟨r', rfl, readAtom_constant constant r'⟩

/-! ## Torn texts -/

/-- No value goes on with the text: no punctuation that may stand behind a value comes first. -/
def Dead (s : List Char) : Prop := ∀ c ∈ [',', ':', ']', '}'], token c s = none

theorem Braced.dead (h : Braced s) : Dead s := by
  intro c hc
  apply h.token_eq_none
  rintro rfl
  exact absurd hc (by decide)

theorem dead_cons {c : Char} (hspace : isJsonSpace c = false) (hc : c ∉ [',', ':', ']', '}'])
    (s : List Char) : Dead (c :: s) := by
  intro d hd
  refine token_cons_of_ne hspace ?_ s
  rintro rfl
  exact hc hd

/-- An object whose first name does not begin with punctuation. -/
def Marked (members : List (String × Json)) : Prop :=
  ∃ c rest, (Json.object members).dumps = '{' :: '"' :: c :: rest ∧
    isJsonSpace c = false ∧ c ∉ [',', ':', ']', '}']

/-- Beginnings of the texts of objects, one behind the other. -/
inductive Torn (P : List (String × Json) → Prop) : List Char → Prop
  | nil : Torn P []
  | piece {members : List (String × Json)} {t s : List Char} : P members →
      t <+: (Json.object members).dumps → t ≠ [] → Torn P s → Torn P (t ++ s)

variable {P : List (String × Json) → Prop}

theorem exists_eq_brace_of_prefix {members : List (String × Json)}
    (ht : t <+: (Json.object members).dumps) (hne : t ≠ []) : ∃ t', t = '{' :: t' := by
  obtain ⟨c, rest, hdumps, hhead⟩ := (Json.object members).exists_dumps_eq_cons
  obtain ⟨d, t', rfl⟩ := List.exists_cons_of_ne_nil hne
  rw [hdumps] at ht
  obtain rfl : d = c := (List.cons_prefix_cons.mp ht).1
  exact ⟨t', by rw [Json.headIs] at hhead; rw [hhead]⟩

theorem Torn.braced (h : Torn P s) : Braced s := by
  cases h with
  | nil => exact braced_nil
  | piece _ ht hne _ =>
    obtain ⟨t', rfl⟩ := exists_eq_brace_of_prefix ht hne
    exact braced_cons _

theorem Torn.printable (h : Torn P s) : Printable s := by
  induction h with
  | nil => simp [Printable]
  | piece _ ht _ _ ih =>
    refine Printable.append (fun c hc ↦ ?_) ih
    exact Json.printable_dumps _ c (ht.subset hc)

theorem Torn.append (h : Torn P s) {members : List (String × Json)} (hmembers : P members)
    (ht : t <+: (Json.object members).dumps) : Torn P (s ++ t) := by
  induction h with
  | nil =>
    by_cases hne : t = []
    · rw [hne]
      exact .nil
    · have hpiece : Torn P (t ++ []) := .piece hmembers ht hne .nil
      rwa [List.append_nil] at hpiece
  | piece hmembers' ht' hne' _ ih =>
    rw [List.append_assoc]
    exact .piece hmembers' ht' hne' ih

/-! ## Reading torn texts -/

/-- A string is read before the torn text, or nothing can be read behind it. -/
theorem Torn.readChars (hP : ∀ members, P members → Marked members) :
    ∀ {fuel : ℕ} {s t cs r : List Char}, Torn P s → readChars fuel (t ++ s) = some (cs, r) →
      Dead r ∨ ∃ r', r = r' ++ s ∧ Text.readChars fuel t = some (cs, r') := by
  intro fuel
  induction fuel with
  | zero =>
    intro s t cs r _ hread
    cases hread
  | succ fuel ih =>
    intro s t cs r h hread
    cases t with
    | cons c t =>
      rw [List.cons_append, Text.readChars] at hread
      rw [Text.readChars]
      split_ifs at hread ⊢
      · obtain ⟨rfl, rfl⟩ := Prod.mk.inj (Option.some.inj hread)
        exact .inr ⟨t, rfl, rfl⟩
      · obtain ⟨⟨d, r₁⟩, hd, hread⟩ := Option.bind_eq_some_iff.mp hread
        obtain ⟨⟨ds, r₂⟩, hds, hpair⟩ := Option.map_eq_some_iff.mp hread
        obtain ⟨rfl, rfl⟩ := Prod.mk.inj hpair
        obtain ⟨r₃, rfl, hd'⟩ := h.braced.readChar hd
        apply (ih h hds).imp_right
        rintro ⟨r', rfl, hds'⟩
        exact ⟨r', rfl, by rw [hd', Option.bind_some, hds', Option.map_some]⟩
    | nil =>
      left
      cases h with
      | nil => cases hread
      | @piece members t s hmembers ht hne hs =>
        obtain ⟨t, rfl⟩ := exists_eq_brace_of_prefix ht hne
        rw [List.nil_append, List.cons_append, Text.readChars, if_neg (by decide), Text.readChar,
          if_neg (by decide), if_neg (by decide), Option.bind_some] at hread
        obtain ⟨⟨ds, r₁⟩, hds, hpair⟩ := Option.map_eq_some_iff.mp hread
        obtain ⟨-, rfl⟩ := Prod.mk.inj hpair
        -- The brace belongs to the string. What follows it is the quotation mark of a name, unless
        -- the piece breaks off in front of it.
        cases t with
        | nil =>
          rcases ih hs hds with hdead | ⟨r', -, hempty⟩
          · exact hdead
          · cases fuel <;> cases hempty
        | cons quotation t =>
          obtain ⟨c, rest, hdumps, hspace, hc⟩ := hP members hmembers
          rw [hdumps, List.cons_prefix_cons, List.cons_prefix_cons] at ht
          obtain ⟨-, rfl, ht⟩ := ht
          cases fuel with
          | zero => cases hds
          | succ fuel =>
            rw [List.cons_append, Text.readChars, if_pos rfl] at hds
            obtain ⟨-, rfl⟩ := Prod.mk.inj (Option.some.inj hds)
            cases t with
            | nil => exact hs.braced.dead
            | cons d t =>
              obtain rfl : d = c := (List.cons_prefix_cons.mp ht).1
              exact dead_cons hspace hc _

/-- A value is read before a torn text that follows, or nothing can be read behind it. The latter
happens to strings, and to what the torn text begins with. -/
def ValueBefore (P : List (String × Json) → Prop) (fuel : ℕ) : Prop :=
  ∀ {s t r : List Char} {x : Json}, Torn P s → readValue fuel (t ++ s) = some (x, r) →
    (Dead r ∧ ∀ c ∈ t.head?, c = '"') ∨ ∃ r', r = r' ++ s ∧ readValue fuel t = some (x, r')

/-- The items of an array are read before a torn text that follows. -/
def ItemsBefore (P : List (String × Json) → Prop) (fuel : ℕ) : Prop :=
  ∀ {s t r : List Char} {items : List Json}, Torn P s →
    readItems fuel (t ++ s) = some (items, r) →
      ∃ r', r = r' ++ s ∧ readItems fuel t = some (items, r')

/-- The members of an object are read before a torn text that follows. -/
def MembersBefore (P : List (String × Json) → Prop) (fuel : ℕ) : Prop :=
  ∀ {s t r : List Char} {members : List (String × Json)}, Torn P s →
    readMembers fuel (t ++ s) = some (members, r) →
      ∃ r', r = r' ++ s ∧ readMembers fuel t = some (members, r')

theorem Torn.readValue_cons (hP : ∀ members, P members → Marked members) {fuel : ℕ}
    (hreadItems : ItemsBefore P fuel) (hreadMembers : MembersBefore P fuel) {c : Char} {x : Json}
    (hs : Torn P s) (h : readValue (fuel + 1) (c :: t ++ s) = some (x, r)) :
    (Dead r ∧ c = '"') ∨ ∃ r', r = r' ++ s ∧ readValue (fuel + 1) (c :: t) = some (x, r') := by
  rw [List.cons_append, readValue] at h
  rw [readValue]
  split_ifs at h ⊢ with hquote
  · obtain ⟨⟨cs, r₁⟩, hchars, hpair⟩ := Option.map_eq_some_iff.mp h
    obtain ⟨rfl, rfl⟩ := Prod.mk.inj hpair
    rcases hs.readChars hP hchars with hdead | ⟨r', rfl, hchars'⟩
    · exact .inl ⟨hdead, hquote⟩
    · exact .inr ⟨r', rfl, by rw [hchars', Option.map_some]⟩
  · right
    cases hclose : token ']' (t ++ s) with
    | some r₁ =>
      simp only [hclose] at h
      obtain ⟨rfl, rfl⟩ := Prod.mk.inj (Option.some.inj h)
      obtain ⟨r', rfl, hclose'⟩ := hs.braced.token (by decide) hclose
      exact ⟨r', rfl, by rw [hclose']⟩
    | none =>
      simp only [hclose] at h
      obtain ⟨⟨items, r₁⟩, hitems, hpair⟩ := Option.map_eq_some_iff.mp h
      obtain ⟨rfl, rfl⟩ := Prod.mk.inj hpair
      obtain ⟨r', rfl, hitems'⟩ := hreadItems hs hitems
      exact ⟨r', rfl, by simp only [token_of_append hclose, hitems', Option.map_some]⟩
  · right
    cases hclose : token '}' (t ++ s) with
    | some r₁ =>
      simp only [hclose] at h
      obtain ⟨rfl, rfl⟩ := Prod.mk.inj (Option.some.inj h)
      obtain ⟨r', rfl, hclose'⟩ := hs.braced.token (by decide) hclose
      exact ⟨r', rfl, by rw [hclose']⟩
    | none =>
      simp only [hclose] at h
      obtain ⟨⟨members, r₁⟩, hmembers, hpair⟩ := Option.map_eq_some_iff.mp h
      obtain ⟨rfl, rfl⟩ := Prod.mk.inj hpair
      obtain ⟨r', rfl, hmembers'⟩ := hreadMembers hs hmembers
      exact ⟨r', rfl, by simp only [token_of_append hclose, hmembers', Option.map_some]⟩
  · exact .inr (hs.braced.readAtom h)

theorem readValue_before (hP : ∀ members, P members → Marked members) {fuel : ℕ}
    (hreadItems : ItemsBefore P fuel) (hreadMembers : MembersBefore P fuel) :
    ValueBefore P (fuel + 1) := by
  intro s t r x hs h
  cases t with
  | cons c t =>
    apply (hs.readValue_cons hP hreadItems hreadMembers h).imp_left
    rintro ⟨hdead, rfl⟩
    exact ⟨hdead, by rintro c ⟨⟩; rfl⟩
  | nil =>
    -- What is read is the first piece, and it is the whole text of an object.
    refine .inl ⟨?_, by simp⟩
    cases hs with
    | nil => cases h
    | @piece members t s hmembers ht hne hs =>
      obtain ⟨t, rfl⟩ := exists_eq_brace_of_prefix ht hne
      rcases hs.readValue_cons hP hreadItems hreadMembers h with ⟨-, hquote⟩ | ⟨r', rfl, hread⟩
      · exact absurd hquote (by decide)
      · rw [(Json.eq_dumps_of_readValue ht hread).2]
        exact hs.braced.dead

theorem readItems_before {fuel : ℕ} (hreadValue : ValueBefore P fuel)
    (hreadItems : ItemsBefore P fuel) : ItemsBefore P (fuel + 1) := by
  intro s t r items hs h
  rw [readItems, hs.braced.skipSpace] at h
  obtain ⟨⟨item, r₁⟩, hitem, h⟩ := Option.bind_eq_some_iff.mp h
  rcases hreadValue hs hitem with ⟨hdead, -⟩ | ⟨r₂, rfl, hitem'⟩
  · simp only [hdead ',' (by decide), hdead ']' (by decide), Option.map_none] at h
    cases h
  rw [readItems, hitem', Option.bind_some]
  simp only at h ⊢
  cases hcomma : token ',' (r₂ ++ s) with
  | some r₃ =>
    simp only [hcomma] at h
    obtain ⟨⟨items', r₄⟩, hitems, hpair⟩ := Option.map_eq_some_iff.mp h
    obtain ⟨rfl, rfl⟩ := Prod.mk.inj hpair
    obtain ⟨r₅, rfl, hcomma'⟩ := hs.braced.token (by decide) hcomma
    obtain ⟨r', rfl, hitems'⟩ := hreadItems hs hitems
    exact ⟨r', rfl, by simp only [hcomma', hitems', Option.map_some]⟩
  | none =>
    simp only [hcomma] at h
    obtain ⟨r₃, hclose, hpair⟩ := Option.map_eq_some_iff.mp h
    obtain ⟨rfl, rfl⟩ := Prod.mk.inj hpair
    obtain ⟨r', rfl, hclose'⟩ := hs.braced.token (by decide) hclose
    exact ⟨r', rfl, by simp only [token_of_append hcomma, hclose', Option.map_some]⟩

theorem readMembers_before (hP : ∀ members, P members → Marked members) {fuel : ℕ}
    (hreadValue : ValueBefore P fuel) (hreadMembers : MembersBefore P fuel) :
    MembersBefore P (fuel + 1) := by
  intro s t r members hs h
  rw [readMembers] at h
  obtain ⟨s₁, hquote, h⟩ := Option.bind_eq_some_iff.mp h
  obtain ⟨t₁, rfl, hquote'⟩ := hs.braced.token (by decide) hquote
  obtain ⟨⟨name, s₂⟩, hname, h⟩ := Option.bind_eq_some_iff.mp h
  obtain ⟨s₃, hcolon, h⟩ := Option.bind_eq_some_iff.mp h
  rcases hs.readChars hP hname with hdead | ⟨t₂, rfl, hname'⟩
  · rw [hdead ':' (by decide)] at hcolon
    cases hcolon
  obtain ⟨t₃, rfl, hcolon'⟩ := hs.braced.token (by decide) hcolon
  rw [hs.braced.skipSpace] at h
  obtain ⟨⟨value, r₁⟩, hvalue, h⟩ := Option.bind_eq_some_iff.mp h
  rcases hreadValue hs hvalue with ⟨hdead, -⟩ | ⟨r₂, rfl, hvalue'⟩
  · simp only [hdead ',' (by decide), hdead '}' (by decide), Option.map_none] at h
    cases h
  rw [readMembers, hquote', Option.bind_some, hname', Option.bind_some]
  simp only at hcolon' h ⊢
  rw [hcolon', Option.bind_some, hvalue', Option.bind_some]
  simp only
  cases hcomma : token ',' (r₂ ++ s) with
  | some r₃ =>
    simp only [hcomma] at h
    obtain ⟨⟨members', r₄⟩, hmembers, hpair⟩ := Option.map_eq_some_iff.mp h
    obtain ⟨rfl, rfl⟩ := Prod.mk.inj hpair
    obtain ⟨r₅, rfl, hcomma'⟩ := hs.braced.token (by decide) hcomma
    obtain ⟨r', rfl, hmembers'⟩ := hreadMembers hs hmembers
    exact ⟨r', rfl, by simp only [hcomma', hmembers', Option.map_some]⟩
  | none =>
    simp only [hcomma] at h
    obtain ⟨r₃, hclose, hpair⟩ := Option.map_eq_some_iff.mp h
    obtain ⟨rfl, rfl⟩ := Prod.mk.inj hpair
    obtain ⟨r', rfl, hclose'⟩ := hs.braced.token (by decide) hclose
    exact ⟨r', rfl, by simp only [token_of_append hcomma, hclose', Option.map_some]⟩

theorem readers_before (hP : ∀ members, P members → Marked members) (fuel : ℕ) :
    ValueBefore P fuel ∧ ItemsBefore P fuel ∧ MembersBefore P fuel := by
  induction fuel with
  | zero =>
    refine ⟨?_, ?_, ?_⟩
    · intro s t r x _ h
      cases h
    · intro s t r items _ h
      cases h
    · intro s t r members _ h
      cases h
  | succ fuel ih =>
    obtain ⟨hvalue, hitems, hmembers⟩ := ih
    exact ⟨readValue_before hP hitems hmembers, readItems_before hvalue hitems,
      readMembers_before hP hvalue hmembers⟩

/-- **A torn text that is a document is the text of one object.** -/
theorem Torn.eq_dumps_of_loads (hP : ∀ members, P members → Marked members) (h : Torn P s)
    {x : Json} (hloads : Json.loads s = some x) :
    ∃ members, P members ∧ s = (Json.object members).dumps := by
  obtain ⟨⟨y, r⟩, hread, hend⟩ := Option.bind_eq_some_iff.mp hloads
  cases h with
  | nil => cases hread
  | @piece members t s hmembers ht hne hs =>
    obtain ⟨t, rfl⟩ := exists_eq_brace_of_prefix ht hne
    rw [hs.braced.skipSpace, skipSpace_cons (by decide)] at hread
    rcases (readers_before hP _).1 hs hread with ⟨-, hquote⟩ | ⟨r', rfl, hread'⟩
    · exact absurd (hquote _ rfl) (by decide)
    · obtain ⟨hwhole, rfl⟩ := Json.eq_dumps_of_readValue ht hread'
      -- Nothing but blanks is behind the value, and the rest of the text would begin with a brace.
      have hrest : skipSpace ([] ++ s) = [] := by
        by_contra hne'
        simp only [if_neg hne'] at hend
        cases hend
      rw [hs.braced.skipSpace] at hrest
      obtain rfl : s = [] := hrest
      exact ⟨members, hmembers, by rw [List.append_nil, hwhole]⟩

end Text
