import Sentinel.Text.JsonReader

/-!
# Reading the beginning of a text

What has been read stays read when the text goes on, unless it is a number; so of an object's text
no beginning can be read. This is what a file of documents needs whose last line has not been
written to its end.
-/

namespace Text

/-! ## Strings -/

theorem readLowSurrogate_append {high : ℕ} {c : Char} {s r : List Char} (t : List Char)
    (h : readLowSurrogate high s = some (c, r)) :
    readLowSurrogate high (s ++ t) = some (c, r ++ t) := by
  match s, h with
  | a :: b :: s, h =>
    rw [List.cons_append, List.cons_append]
    rw [readLowSurrogate] at h ⊢
    split_ifs at h ⊢
    obtain ⟨⟨low, r'⟩, hlow, h⟩ := Option.bind_eq_some_iff.mp h
    rw [readDigits_append t hlow, Option.bind_some]
    split_ifs at h ⊢
    obtain ⟨hc, hr⟩ := Prod.mk.inj (Option.some.inj h)
    rw [hc, ← hr]

theorem readUnicode_append {c : Char} {s r : List Char} (t : List Char)
    (h : readUnicode s = some (c, r)) : readUnicode (s ++ t) = some (c, r ++ t) := by
  rw [readUnicode] at h ⊢
  obtain ⟨⟨codeUnit, r'⟩, hunit, h⟩ := Option.bind_eq_some_iff.mp h
  rw [readDigits_append t hunit, Option.bind_some]
  split_ifs at h ⊢
  · exact readLowSurrogate_append t h
  · cases h
    rfl

theorem readChar_append {c d : Char} {s r : List Char} (t : List Char)
    (h : readChar c s = some (d, r)) : readChar c (s ++ t) = some (d, r ++ t) := by
  rw [readChar] at h ⊢
  split_ifs at h ⊢
  · cases s with
    | nil => cases h
    | cons letter s =>
      rw [List.cons_append]
      rw [readEscape] at h ⊢
      split_ifs at h ⊢
      · exact readUnicode_append t h
      · obtain ⟨c', hc', hpair⟩ := Option.map_eq_some_iff.mp h
        cases hpair
        rw [hc', Option.map_some]
  · cases h
    rfl

theorem readChars_append : ∀ {fuel fuel' : ℕ} {cs s r : List Char} (t : List Char), fuel ≤ fuel' →
    readChars fuel s = some (cs, r) → readChars fuel' (s ++ t) = some (cs, r ++ t) := by
  intro fuel
  induction fuel with
  | zero =>
    intro fuel' cs s r t _ h
    cases h
  | succ fuel ih =>
    intro fuel' cs s r t hfuel h
    obtain ⟨fuel', rfl⟩ := Nat.exists_eq_succ_of_ne_zero (n := fuel') (by omega)
    cases s with
    | nil => cases h
    | cons c s =>
      rw [List.cons_append]
      rw [readChars] at h ⊢
      split_ifs at h ⊢
      · cases h
        rfl
      · obtain ⟨⟨d, s'⟩, hd, h⟩ := Option.bind_eq_some_iff.mp h
        obtain ⟨⟨ds, r'⟩, hds, hpair⟩ := Option.map_eq_some_iff.mp h
        cases hpair
        rw [readChar_append t hd, Option.bind_some, ih t (by omega) hds, Option.map_some]
/-! ## Documents -/

theorem skipSpace_append_of_readValue {fuel : ℕ} {x : Json} {s r : List Char} (t : List Char)
    (h : readValue fuel (skipSpace s) = some (x, r)) :
    skipSpace (s ++ t) = skipSpace s ++ t := by
  cases hs : skipSpace s with
  | nil => cases fuel <;> (rw [hs] at h; cases h)
  | cons c s' => exact skipSpace_append t hs

theorem token_ne_nil {c : Char} {s r : List Char} (h : token c s = some r) : s ≠ [] := by
  rintro rfl
  cases h

theorem readValue_close (fuel : ℕ) (s : List Char) : readValue fuel (']' :: s) = none := by
  cases fuel <;> rfl

theorem token_of_readItems {fuel : ℕ} {s : List Char} {items : List Json × List Char}
    (h : readItems fuel s = some items) : token ']' s = none := by
  cases fuel with
  | zero => cases h
  | succ fuel =>
    rw [Option.eq_none_iff_forall_ne_some]
    intro r hclose
    rw [readItems, token_eq_some hclose, readValue_close] at h
    cases h

theorem token_of_readMembers {fuel : ℕ} {s : List Char} {members : List (String × Json) × List Char}
    (h : readMembers fuel s = some members) : token '}' s = none := by
  cases fuel with
  | zero => cases h
  | succ fuel =>
    rw [readMembers] at h
    obtain ⟨r, hquote, -⟩ := Option.bind_eq_some_iff.mp h
    exact token_of_ne hquote (by decide)

/-- What `readValue` has read with the fuel it reads again, with more, when the text goes on. A
number may go on with it, unless something is behind the number. -/
def ValueGoesOn (fuel : ℕ) : Prop :=
  ∀ {fuel' : ℕ} {x : Json} {s r : List Char} (t : List Char), fuel ≤ fuel' →
    readValue fuel s = some (x, r) → (x.isNumber = true → r ≠ []) →
      readValue fuel' (s ++ t) = some (x, r ++ t)

/-- What `readItems` has read with the fuel it reads again, with more, when the text goes on. -/
def ItemsGoOn (fuel : ℕ) : Prop :=
  ∀ {fuel' : ℕ} {items : List Json} {s r : List Char} (t : List Char), fuel ≤ fuel' →
    readItems fuel s = some (items, r) → readItems fuel' (s ++ t) = some (items, r ++ t)

/-- What `readMembers` has read with the fuel it reads again, with more, when the text goes on. -/
def MembersGoOn (fuel : ℕ) : Prop :=
  ∀ {fuel' : ℕ} {members : List (String × Json)} {s r : List Char} (t : List Char), fuel ≤ fuel' →
    readMembers fuel s = some (members, r) → readMembers fuel' (s ++ t) = some (members, r ++ t)

theorem readValue_goesOn {fuel : ℕ} (hreadItems : ItemsGoOn fuel)
    (hreadMembers : MembersGoOn fuel) : ValueGoesOn (fuel + 1) := by
  intro fuel' x s r t hfuel h hnumber
  obtain ⟨fuel', rfl⟩ := Nat.exists_eq_succ_of_ne_zero (n := fuel') (by omega)
  have hfuel := Nat.le_of_succ_le_succ hfuel
  cases s with
  | nil => cases h
  | cons c s =>
    rw [List.cons_append]
    rw [readValue] at h ⊢
    split_ifs at h ⊢
    · obtain ⟨⟨cs, r'⟩, hchars, hpair⟩ := Option.map_eq_some_iff.mp h
      cases hpair
      rw [readChars_append t hfuel hchars, Option.map_some]
    · cases hclose : token ']' s with
      | some r' =>
        rw [hclose] at h
        cases h
        rw [token_append t hclose]
      | none =>
        rw [hclose] at h
        obtain ⟨⟨items, r'⟩, hitems, hpair⟩ := Option.map_eq_some_iff.mp h
        cases hpair
        have hread := hreadItems t hfuel hitems
        rw [token_of_readItems hread]
        simp only
        rw [hread, Option.map_some]
    · cases hclose : token '}' s with
      | some r' =>
        rw [hclose] at h
        cases h
        rw [token_append t hclose]
      | none =>
        rw [hclose] at h
        obtain ⟨⟨members, r'⟩, hmembers, hpair⟩ := Option.map_eq_some_iff.mp h
        cases hpair
        have hread := hreadMembers t hfuel hmembers
        rw [token_of_readMembers hread]
        simp only
        rw [hread, Option.map_some]
    · exact readAtom_append t h hnumber

theorem readItems_goesOn {fuel : ℕ} (hreadValue : ValueGoesOn fuel)
    (hreadItems : ItemsGoOn fuel) : ItemsGoOn (fuel + 1) := by
  intro fuel' items s r t hfuel h
  obtain ⟨fuel', rfl⟩ := Nat.exists_eq_succ_of_ne_zero (n := fuel') (by omega)
  have hfuel := Nat.le_of_succ_le_succ hfuel
  rw [readItems] at h
  obtain ⟨⟨item, r₁⟩, hitem, h⟩ := Option.bind_eq_some_iff.mp h
  have hspace := skipSpace_append_of_readValue t hitem
  cases hcomma : token ',' r₁ with
  | some r₂ =>
    simp only [hcomma] at h
    obtain ⟨⟨items', r₃⟩, hitems, hpair⟩ := Option.map_eq_some_iff.mp h
    cases hpair
    rw [readItems, hspace, hreadValue t hfuel hitem fun _ ↦ token_ne_nil hcomma, Option.bind_some]
    simp only [token_append t hcomma]
    rw [hreadItems t hfuel hitems, Option.map_some]
  | none =>
    simp only [hcomma] at h
    obtain ⟨r₂, hclose, hpair⟩ := Option.map_eq_some_iff.mp h
    cases hpair
    have hclose' := token_append t hclose
    rw [readItems, hspace, hreadValue t hfuel hitem fun _ ↦ token_ne_nil hclose, Option.bind_some]
    simp only [token_of_ne hclose' (by decide : ']' ≠ ',')]
    rw [hclose', Option.map_some]

theorem readMembers_goesOn {fuel : ℕ} (hreadValue : ValueGoesOn fuel)
    (hreadMembers : MembersGoOn fuel) : MembersGoOn (fuel + 1) := by
  intro fuel' members s r t hfuel h
  obtain ⟨fuel', rfl⟩ := Nat.exists_eq_succ_of_ne_zero (n := fuel') (by omega)
  have hfuel := Nat.le_of_succ_le_succ hfuel
  rw [readMembers] at h
  obtain ⟨s₁, hquote, h⟩ := Option.bind_eq_some_iff.mp h
  obtain ⟨⟨name, s₂⟩, hname, h⟩ := Option.bind_eq_some_iff.mp h
  obtain ⟨s₃, hcolon, h⟩ := Option.bind_eq_some_iff.mp h
  obtain ⟨⟨value, r₁⟩, hvalue, h⟩ := Option.bind_eq_some_iff.mp h
  have hspace := skipSpace_append_of_readValue t hvalue
  rw [readMembers, token_append t hquote, Option.bind_some, readChars_append t hfuel hname,
    Option.bind_some]
  simp only
  rw [token_append t hcolon, Option.bind_some, hspace]
  cases hcomma : token ',' r₁ with
  | some r₂ =>
    simp only [hcomma] at h
    obtain ⟨⟨members', r₃⟩, hmembers, hpair⟩ := Option.map_eq_some_iff.mp h
    cases hpair
    rw [hreadValue t hfuel hvalue fun _ ↦ token_ne_nil hcomma, Option.bind_some]
    simp only [token_append t hcomma]
    rw [hreadMembers t hfuel hmembers, Option.map_some]
  | none =>
    simp only [hcomma] at h
    obtain ⟨r₂, hclose, hpair⟩ := Option.map_eq_some_iff.mp h
    cases hpair
    have hclose' := token_append t hclose
    rw [hreadValue t hfuel hvalue fun _ ↦ token_ne_nil hclose, Option.bind_some]
    simp only [token_of_ne hclose' (by decide : '}' ≠ ',')]
    rw [hclose', Option.map_some]

/-- **What has been read stays read.** -/
theorem readers_goOn (fuel : ℕ) : ValueGoesOn fuel ∧ ItemsGoOn fuel ∧ MembersGoOn fuel := by
  induction fuel with
  | zero =>
    refine ⟨?_, ?_, ?_⟩
    · intro fuel' x s r t _ h
      cases h
    · intro fuel' items s r t _ h
      cases h
    · intro fuel' members s r t _ h
      cases h
  | succ fuel ih =>
    obtain ⟨hvalue, hitems, hmembers⟩ := ih
    exact ⟨readValue_goesOn hitems hmembers, readItems_goesOn hvalue hitems,
      readMembers_goesOn hvalue hmembers⟩
namespace Json

/-- Of the beginnings of an object's text only the whole can be read. -/
theorem eq_dumps_of_readValue {fuel : ℕ} {members : List (String × Json)} {x : Json}
    {s r : List Char} (hs : s <+: (object members).dumps)
    (hread : readValue fuel s = some (x, r)) : s = (object members).dumps ∧ r = [] := by
  obtain ⟨t, hst⟩ := hs
  have hkind : x.isNumber = false := by
    obtain ⟨c, rest, hdumps, hhead⟩ := (object members).exists_dumps_eq_cons
    rw [headIs] at hhead
    subst hhead
    cases s with
    | nil => cases fuel <;> cases hread
    | cons c s =>
      rw [(List.cons.inj (hst.trans hdumps)).1] at hread
      have hbrace := headIs_of_readValue hread
      cases x with
      | number literal => exact absurd hbrace (by rw [headIs]; decide)
      | constant value => rfl
      | string value => rfl
      | array items => rfl
      | object members => rfl
  -- What was read of the beginning is read of the whole text, and leaves the rest of it over.
  have hmore := (readers_goOn fuel).1 t (Nat.le_max_left fuel (object members).dumps.length)
    hread fun hnumber ↦ by
      rw [hkind] at hnumber
      cases hnumber
  have hwhole := readValue_dumps (object members) (fun _ ↦ stops_nil)
    (Nat.le_max_right fuel (object members).dumps.length)
  rw [List.append_nil] at hwhole
  rw [hst, hwhole, Option.some_inj, Prod.mk.injEq] at hmore
  obtain ⟨hr, ht⟩ := List.append_eq_nil_iff.mp hmore.2.symm
  rw [ht, List.append_nil] at hst
  exact ⟨hst, hr⟩
end Json

end Text
