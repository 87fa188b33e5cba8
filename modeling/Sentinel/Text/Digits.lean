import Mathlib.Data.Nat.Notation
import Mathlib.Tactic.IntervalCases

/-!
# Fixed-width digits

Zero-padded digits in a base up to sixteen. A fixed width makes the text self-delimiting without a
terminator: the number is read back whatever follows, and two padded numbers in front of any
continuations are told apart by their lengths.
-/

namespace Text

/-- The lowest digits of a number in a base, as many as the width, most significant first. -/
def digits (base : ℕ) : ℕ → ℕ → List Char
  | 0, _ => []
  | width + 1, n => digits base width (n / base) ++ [Nat.digitChar (n % base)]

def isPrintable (c : Char) : Bool := 0x20 ≤ c.toNat && c.toNat ≤ 0x7e

theorem isPrintable_digitChar (n : ℕ) : isPrintable (Nat.digitChar n) = true := by
  by_cases h : n < 16
  · interval_cases n <;> decide
  · rw [Nat.digitChar_eq_star.mpr (Nat.not_lt.mp h)]
    decide

theorem isPrintable_of_mem_digits {base : ℕ} {width n : ℕ} {c : Char}
    (h : c ∈ digits base width n) : isPrintable c = true := by
  induction width generalizing n with
  | zero => cases h
  | succ width ih =>
    rcases List.mem_append.mp h with h | h
    · exact ih h
    · rw [List.mem_singleton.mp h]
      exact isPrintable_digitChar _

/-! ## Reading -/

def digitValue (c : Char) : Option ℕ :=
  if '0'.toNat ≤ c.toNat ∧ c.toNat ≤ '9'.toNat then some (c.toNat - 48)
  else if 'a'.toNat ≤ c.toNat ∧ c.toNat ≤ 'f'.toNat then some (c.toNat - 87)
  else if 'A'.toNat ≤ c.toNat ∧ c.toNat ≤ 'F'.toNat then some (c.toNat - 55)
  else none

/-- Read as many digits as the width, behind a number that has been read. -/
def readDigits (base : ℕ) : ℕ → ℕ → List Char → Option (ℕ × List Char)
  | 0, n, s => some (n, s)
  | _ + 1, _, [] => none
  | width + 1, n, c :: s =>
    match digitValue c with
    | none => none
    | some d => if d < base then readDigits base width (base * n + d) s else none

theorem digitValue_digitChar {n : ℕ} (h : n < 16) : digitValue (Nat.digitChar n) = some n := by
  interval_cases n <;> rfl

theorem readDigits_add (base v w n : ℕ) (s : List Char) : readDigits base (v + w) n s
    = (readDigits base v n s).bind fun p ↦ readDigits base w p.1 p.2 := by
  induction v generalizing n s with
  | zero => rw [Nat.zero_add, readDigits, Option.bind_some]
  | succ v ih =>
    rw [Nat.add_right_comm]
    cases s with
    | nil => rfl
    | cons c s =>
      rw [readDigits, readDigits]
      cases digitValue c with
      | none => rfl
      | some d =>
        simp only
        split_ifs
        · exact ih _ _
        · rfl

/-- **Digits are read back**, whatever follows them. -/
theorem readDigits_digits {base : ℕ} (hbase : 0 < base) (hbase' : base ≤ 16) :
    ∀ {width n : ℕ} (m : ℕ) (s : List Char), n < base ^ width →
      readDigits base width m (digits base width n ++ s) = some (base ^ width * m + n, s) := by
  intro width
  induction width with
  | zero =>
    intro n m s hn
    rw [Nat.pow_zero, Nat.lt_one_iff] at hn
    rw [digits, List.nil_append, readDigits, hn, Nat.pow_zero, Nat.one_mul, Nat.add_zero]
  | succ width ih =>
    intro n m s hn
    have hhigh : n / base < base ^ width := by
      rw [Nat.pow_succ, Nat.mul_comm] at hn
      exact Nat.div_lt_of_lt_mul hn
    have hlow : n % base < base := Nat.mod_lt n hbase
    rw [digits, List.append_assoc, readDigits_add, ih m _ hhigh, Option.bind_some,
      List.singleton_append, readDigits, digitValue_digitChar (hlow.trans_le hbase')]
    simp only [if_pos hlow, readDigits]
    have hsum : base * (base ^ width * m + n / base) + n % base = base ^ (width + 1) * m + n := by
      rw [Nat.mul_add, Nat.add_assoc, Nat.div_add_mod, Nat.pow_succ, Nat.mul_comm _ base,
        Nat.mul_assoc]
    rw [hsum]

theorem readDigits_append {base : ℕ} : ∀ {width n m : ℕ} {s r : List Char} (t : List Char),
    readDigits base width n s = some (m, r) →
      readDigits base width n (s ++ t) = some (m, r ++ t) := by
  intro width
  induction width with
  | zero =>
    intro n m s r t h
    rw [readDigits] at h ⊢
    cases h
    rfl
  | succ width ih =>
    intro n m s r t h
    cases s with
    | nil => cases h
    | cons c s =>
      rw [List.cons_append]
      rw [readDigits] at h ⊢
      cases hd : digitValue c with
      | none =>
        simp only [hd] at h
        cases h
      | some d =>
        simp only [hd] at h ⊢
        split_ifs at h ⊢
        exact ih t h

/-- Padded numbers can be read off the front of a text. -/
theorem digits_append_inj {base : ℕ} (hbase : 0 < base) (hbase' : base ≤ 16) {width m n : ℕ}
    (hm : m < base ^ width) (hn : n < base ^ width) {s t : List Char}
    (h : digits base width m ++ s = digits base width n ++ t) : m = n ∧ s = t := by
  have hread := readDigits_digits hbase hbase' 0 s hm
  rw [h, readDigits_digits hbase hbase' 0 t hn] at hread
  simpa [eq_comm] using hread

theorem digits_inj {base : ℕ} (hbase : 0 < base) (hbase' : base ≤ 16) {width m n : ℕ}
    (hm : m < base ^ width) (hn : n < base ^ width)
    (h : digits base width m = digits base width n) : m = n :=
  (digits_append_inj hbase hbase' (s := []) hm hn (congrArg (· ++ []) h)).1

end Text
