import Mathlib.Data.List.Basic
import Mathlib.Data.Nat.Notation

/-!
# Percent-encoding

Bytes as characters: a safe byte stands for itself, any other one is written as an escape. A byte
is told from the beginning of what it is written as, so nothing but the percent sign has to be
unsafe for the encoding to be injective. What a text may be cut at is then a character that is
neither safe nor part of an escape.
-/

namespace Text

/-- A hexadecimal digit in upper case. -/
def upperDigit (n : ℕ) : Char := (Nat.digitChar n).toUpper

theorem upperDigit_inj : ∀ m < 16, ∀ n < 16, upperDigit m = upperDigit n → m = n := by decide

def byteChar (b : UInt8) : Char := Char.ofNat b.toNat

theorem toNat_byteChar (b : UInt8) : (byteChar b).toNat = b.toNat := by
  have hlt : b.toNat < 256 := b.toNat_lt
  have hvalid : b.toNat.isValidChar := .inl (by omega)
  rw [byteChar, Char.ofNat, dif_pos hvalid]
  rfl

theorem byteChar_injective : Function.Injective byteChar := by
  intro b b' h
  have htoNat := congrArg Char.toNat h
  rw [toNat_byteChar, toNat_byteChar] at htoNat
  exact UInt8.toNat_inj.mp htoNat

def percentByte (safe : UInt8 → Bool) (b : UInt8) : List Char :=
  if safe b then [byteChar b] else ['%', upperDigit (b.toNat / 16), upperDigit (b.toNat % 16)]

def percentEncode (safe : UInt8 → Bool) (bytes : List UInt8) : List Char :=
  bytes.flatMap (percentByte safe)

variable {safe : UInt8 → Bool} {b b' : UInt8} {s s' : List Char}

theorem percentByte_of_safe (h : safe b = true) : percentByte safe b = [byteChar b] := if_pos h

theorem percentByte_of_not (h : safe b = false) :
    percentByte safe b = ['%', upperDigit (b.toNat / 16), upperDigit (b.toNat % 16)] := by
  rw [percentByte, h]
  exact if_neg Bool.false_ne_true

theorem byteChar_ne_percent (hpercent : safe 37 = false) (h : safe b = true) :
    byteChar b ≠ '%' := by
  intro heq
  have hb : b = 37 := byteChar_injective (heq.trans rfl)
  rw [hb, hpercent] at h
  cases h

/-- **A byte is read off the front.** -/
theorem percentByte_append_inj (hpercent : safe 37 = false)
    (h : percentByte safe b ++ s = percentByte safe b' ++ s') : b = b' ∧ s = s' := by
  cases hb : safe b with
  | true =>
    rw [percentByte_of_safe hb, List.singleton_append] at h
    cases hb' : safe b' with
    | true =>
      rw [percentByte_of_safe hb', List.singleton_append] at h
      obtain ⟨hchar, hrest⟩ := List.cons.inj h
      exact ⟨byteChar_injective hchar, hrest⟩
    | false =>
      rw [percentByte_of_not hb'] at h
      exact absurd (List.cons.inj h).1 (byteChar_ne_percent hpercent hb)
  | false =>
    rw [percentByte_of_not hb] at h
    cases hb' : safe b' with
    | true =>
      rw [percentByte_of_safe hb', List.singleton_append] at h
      exact absurd (List.cons.inj h).1.symm (byteChar_ne_percent hpercent hb')
    | false =>
      rw [percentByte_of_not hb'] at h
      have hlt : b.toNat < 256 := b.toNat_lt
      have hlt' : b'.toNat < 256 := b'.toNat_lt
      simp only [List.cons_append, List.nil_append, List.cons.injEq, true_and] at h
      obtain ⟨hhigh, hlow, hrest⟩ := h
      have hdiv := upperDigit_inj _ (by omega) _ (by omega) hhigh
      have hmod := upperDigit_inj _ (by omega) _ (by omega) hlow
      exact ⟨UInt8.toNat_inj.mp (by omega), hrest⟩

theorem percentByte_ne_nil (safe : UInt8 → Bool) (b : UInt8) : percentByte safe b ≠ [] := by
  rw [percentByte]
  split_ifs
  · exact List.cons_ne_nil _ _
  · exact List.cons_ne_nil _ _

/-- **The encoding is injective.** -/
theorem percentEncode_injective (hpercent : safe 37 = false) :
    Function.Injective (percentEncode safe) := by
  intro bytes
  induction bytes with
  | nil =>
    intro bytes' h
    cases bytes' with
    | nil => rfl
    | cons b' bytes' =>
      rw [percentEncode, percentEncode, List.flatMap_nil, List.flatMap_cons] at h
      exact absurd (List.append_eq_nil_iff.mp h.symm).1 (percentByte_ne_nil safe b')
  | cons b bytes ih =>
    intro bytes' h
    cases bytes' with
    | nil =>
      rw [percentEncode, percentEncode, List.flatMap_nil, List.flatMap_cons] at h
      exact absurd (List.append_eq_nil_iff.mp h).1 (percentByte_ne_nil safe b)
    | cons b' bytes' =>
      rw [percentEncode, percentEncode, List.flatMap_cons, List.flatMap_cons] at h
      obtain ⟨rfl, hrest⟩ := percentByte_append_inj hpercent h
      rw [ih hrest]

/-- **The encoding has no characters** but those of safe bytes and of escapes. -/
theorem not_mem_percentEncode {c : Char} (hpercent : c ≠ '%')
    (hdigit : ∀ n < 16, c ≠ upperDigit n) (hsafe : ∀ b, safe b = true → c ≠ byteChar b)
    (bytes : List UInt8) : c ∉ percentEncode safe bytes := by
  intro hmem
  obtain ⟨b, -, hb⟩ := List.mem_flatMap.mp hmem
  cases hsafeb : safe b with
  | true =>
    rw [percentByte_of_safe hsafeb, List.mem_singleton] at hb
    exact hsafe b hsafeb hb
  | false =>
    have hlt : b.toNat < 256 := b.toNat_lt
    rw [percentByte_of_not hsafeb] at hb
    simp only [List.mem_cons, List.not_mem_nil, or_false] at hb
    rcases hb with hb | hb | hb
    · exact hpercent hb
    · exact hdigit _ (by omega) hb
    · exact hdigit _ (by omega) hb

end Text
