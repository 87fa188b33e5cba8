import Mathlib.Data.List.Basic
import Mathlib.Data.Nat.Basic
import Mathlib.Tactic.Ring

/-!
# Binary layouts

What the formats of binary files are made of: numbers in a fixed number of bytes, the most or the
least significant one first, fields at known places, and one field after another. A search for a
pattern does not know of fields. It finds what stands in one of them and what only two of them
together show, which is what begins in the first and ends short of a pattern's length into the
second.
-/

namespace Bytes

/-- `width` bytes of `n`; what does not fit is cut off at the front. -/
def toBigEndian : ℕ → ℕ → List UInt8
  | 0, _ => []
  | width + 1, n => toBigEndian width (n / 256) ++ [(n % 256).toUInt8]

def ofBigEndian (bytes : List UInt8) : ℕ :=
  bytes.foldl (fun value byte ↦ 256 * value + byte.toNat) 0

@[simp] theorem length_toBigEndian (width n : ℕ) : (toBigEndian width n).length = width := by
  induction width generalizing n with
  | zero => rfl
  | succ width ih => rw [toBigEndian, List.length_append, ih, List.length_singleton]

theorem ofBigEndian_concat (bytes : List UInt8) (byte : UInt8) :
    ofBigEndian (bytes ++ [byte]) = 256 * ofBigEndian bytes + byte.toNat := by
  rw [ofBigEndian, List.foldl_append, List.foldl_cons, List.foldl_nil, ofBigEndian]

theorem ofBigEndian_toBigEndian {width n : ℕ} (h : n < 256 ^ width) :
    ofBigEndian (toBigEndian width n) = n := by
  induction width generalizing n with
  | zero =>
    rw [pow_zero, Nat.lt_one_iff] at h
    rw [h]
    rfl
  | succ width ih =>
    have hlast : (n % 256).toUInt8.toNat = n % 256 := Nat.mod_mod_of_dvd n (dvd_refl 256)
    rw [toBigEndian, ofBigEndian_concat, hlast, ih, Nat.div_add_mod]
    rw [pow_succ] at h
    exact Nat.div_lt_of_lt_mul (by rw [mul_comm]; exact h)

/-- `width` bytes of `n`, the least significant one first; what does not fit is cut off. -/
def toLittleEndian : ℕ → ℕ → List UInt8
  | 0, _ => []
  | width + 1, n => (n % 256).toUInt8 :: toLittleEndian width (n / 256)

def ofLittleEndian (bytes : List UInt8) : ℕ :=
  bytes.foldr (fun byte value ↦ byte.toNat + 256 * value) 0

@[simp] theorem length_toLittleEndian (width n : ℕ) : (toLittleEndian width n).length = width := by
  induction width generalizing n with
  | zero => rfl
  | succ width ih => rw [toLittleEndian, List.length_cons, ih]

theorem ofLittleEndian_cons (byte : UInt8) (bytes : List UInt8) :
    ofLittleEndian (byte :: bytes) = byte.toNat + 256 * ofLittleEndian bytes :=
  List.foldr_cons ..

theorem ofLittleEndian_toLittleEndian {width n : ℕ} (h : n < 256 ^ width) :
    ofLittleEndian (toLittleEndian width n) = n := by
  induction width generalizing n with
  | zero =>
    rw [pow_zero, Nat.lt_one_iff] at h
    rw [h]
    rfl
  | succ width ih =>
    have hfirst : (n % 256).toUInt8.toNat = n % 256 := Nat.mod_mod_of_dvd n (dvd_refl 256)
    rw [toLittleEndian, ofLittleEndian_cons, hfirst, ih, Nat.mod_add_div]
    rw [pow_succ] at h
    exact Nat.div_lt_of_lt_mul (by rw [mul_comm]; exact h)

theorem ofLittleEndian_lt (bytes : List UInt8) : ofLittleEndian bytes < 256 ^ bytes.length := by
  induction bytes with
  | nil => exact Nat.one_pos
  | cons byte bytes ih =>
    have hbyte : byte.toNat < 256 := byte.toNat_lt
    rw [ofLittleEndian_cons, List.length_cons, pow_succ]
    omega

theorem toLittleEndian_ofLittleEndian (bytes : List UInt8) :
    toLittleEndian bytes.length (ofLittleEndian bytes) = bytes := by
  induction bytes with
  | nil => rfl
  | cons byte bytes ih =>
    have hbyte : byte.toNat < 256 := byte.toNat_lt
    have hmod : (byte.toNat + 256 * ofLittleEndian bytes) % 256 = byte.toNat := by omega
    have hdiv : (byte.toNat + 256 * ofLittleEndian bytes) / 256 = ofLittleEndian bytes := by omega
    rw [List.length_cons, toLittleEndian, ofLittleEndian_cons, hmod, hdiv, ih]
    exact congrArg (· :: bytes) (UInt8.ofNat_toNat)

/-! ## Fields -/

variable {α : Type*}

theorem drop_take_append (before field after : List α) {start stop : ℕ}
    (hstart : before.length = start) (hstop : start + field.length = stop) :
    ((before ++ (field ++ after)).take stop).drop start = field := by
  subst hstart hstop
  rw [List.take_append, List.take_of_length_le (Nat.le_add_right _ _), Nat.add_sub_cancel_left,
    List.take_left, List.drop_left]

theorem drop_eq_append (bytes : List α) {start stop : ℕ} (h : start ≤ stop) :
    bytes.drop start = (bytes.take stop).drop start ++ bytes.drop stop := by
  rw [List.drop_take, ← Nat.add_sub_of_le h, Nat.add_sub_cancel_left, ← List.drop_drop,
    List.take_append_drop]

/-! ## Search -/

theorem infix_iff_drop_one {pattern : List α} (bytes : List α) :
    pattern <:+: bytes ↔ pattern <+: bytes ∨ pattern <:+: bytes.drop 1 := by
  cases bytes with
  | nil => exact ⟨.inr, fun h ↦ h.elim List.IsPrefix.isInfix id⟩
  | cons c rest => exact List.infix_cons_iff

theorem infix_append_iff {pattern : List α} (hne : pattern ≠ []) (first second : List α) :
    pattern <:+: first ++ second ↔
      pattern <:+: first ++ second.take (pattern.length - 1) ∨ pattern <:+: second := by
  constructor
  · intro h
    induction first with
    | nil => exact .inr h
    | cons c first ih =>
      rcases List.infix_cons_iff.mp h with hpre | hin
      · refine .inl (List.IsPrefix.isInfix ?_)
        obtain ⟨d, rest, rfl⟩ := List.exists_cons_of_ne_nil hne
        obtain ⟨rfl, hrest⟩ := List.cons_prefix_cons.mp hpre
        rw [List.cons_append, List.cons_prefix_cons, List.length_cons, Nat.add_sub_cancel]
        refine ⟨rfl, ?_⟩
        -- both are prefixes, and what is kept of the second field is long enough
        have hlength := hrest.length_le
        refine List.prefix_of_prefix_length_le hrest
          ((List.prefix_append_right_inj first).mpr (List.take_prefix _ second)) ?_
        simp only [List.append_eq, List.length_append, List.length_take] at hlength ⊢
        omega
      · exact (ih hin).imp_left List.infix_cons
  · rintro (h | h)
    · exact h.trans ((List.prefix_append_right_inj first).mpr (List.take_prefix _ second)).isInfix
    · exact h.trans (List.suffix_append first second).isInfix

theorem infix_append_of_not_mem {c : α} {pattern first second : List α} (hc : c ∉ first) :
    c :: pattern <:+: first ++ second ↔ c :: pattern <:+: second := by
  induction first with
  | nil => rfl
  | cons d first ih =>
    rw [List.mem_cons, not_or] at hc
    rw [List.cons_append, List.infix_cons_iff, List.cons_prefix_cons, ih hc.2]
    exact ⟨fun h ↦ h.resolve_left fun hpre ↦ hc.1 hpre.1, .inr⟩

end Bytes
