import Mathlib.Data.Int.Notation
import Sentinel.Text.Digits

/-!
# Timestamps

A Python `datetime` is a record of calendar fields with an optional offset from UTC, not a point on
a line: two timestamps that denote one instant at different offsets are different values with
different texts. Every timestamp the platform itself produces is a `datetime.now(UTC)`; other
offsets, and naive timestamps, occur only in data that was written by someone else.
-/

namespace Sentinel

def isLeap (year : ℕ) : Bool :=
  year % 4 == 0 && (year % 100 != 0 || year % 400 == 0)

def daysInMonth (year month : ℕ) : ℕ :=
  if month = 2 then if isLeap year then 29 else 28
  else if month = 4 ∨ month = 6 ∨ month = 9 ∨ month = 11 then 30 else 31

/-- The ranges that the `datetime` constructor checks. -/
def DateTime.InRange (year month day hour minute second microsecond : ℕ)
    (utcoffset : Option ℤ) : Prop :=
  (1 ≤ year ∧ year ≤ 9999) ∧ (1 ≤ month ∧ month ≤ 12) ∧ (1 ≤ day ∧ day ≤ daysInMonth year month) ∧
    hour < 24 ∧ minute < 60 ∧ second < 60 ∧ microsecond < 1000000 ∧
    ∀ offset ∈ utcoffset, -1440 < offset ∧ offset < 1440

instance (year month day hour minute second microsecond : ℕ) (utcoffset : Option ℤ) :
    Decidable (DateTime.InRange year month day hour minute second microsecond utcoffset) :=
  inferInstanceAs (Decidable (_ ∧ _))

/-- A timestamp. The offset from UTC is in minutes, which is the resolution of the texts that the
platform reads and writes; a naive timestamp has none. -/
@[ext]
structure DateTime where
  year : ℕ
  month : ℕ
  day : ℕ
  hour : ℕ
  minute : ℕ
  second : ℕ
  microsecond : ℕ
  utcoffset : Option ℤ
  /-- The constructor's range checks. -/
  inRange : DateTime.InRange year month day hour minute second microsecond utcoffset
deriving DecidableEq

/-- A timestamp in UTC, as `datetime.now(UTC)` returns it. -/
def DateTime.utc (year month day hour minute second microsecond : ℕ)
    (inRange : DateTime.InRange year month day hour minute second microsecond (some 0) := by
      decide) : DateTime :=
  ⟨year, month, day, hour, minute, second, microsecond, some 0, inRange⟩

/-! ## Order -/

namespace DateTime

def daysBeforeYear (year : ℕ) : ℕ :=
  (year - 1) * 365 + (year - 1) / 4 - (year - 1) / 100 + (year - 1) / 400

/-- The days of the months before, in the year. -/
def daysBeforeMonth (year month : ℕ) : ℕ :=
  ((List.range (month - 1)).map fun i ↦ daysInMonth year (i + 1)).sum

/-- The instant, in microseconds. Comparisons go by it; a naive timestamp, which Python refuses to
compare with the others, counts as UTC here. -/
def instant (t : DateTime) : ℤ :=
  let days : ℤ := daysBeforeYear t.year + daysBeforeMonth t.year t.month + t.day
  (((days * 24 + t.hour) * 60 + t.minute - t.utcoffset.getD 0) * 60 + t.second) * 1000000
    + t.microsecond

end DateTime

/-! ## Texts

Python and the schema library write a timestamp in the same way, up to the zero offset, for which
the library has a letter. All fields have a fixed width, except that a fraction of zero is left
out; what follows the seconds tells by its first character whether it is a fraction. -/

namespace DateTime

open Text

/-- The offset from UTC, with its sign. -/
def offsetText (offset : ℤ) : List Char :=
  (if offset < 0 then '-' else '+') ::
    (digits 10 2 (offset.natAbs / 60) ++ ':' :: digits 10 2 (offset.natAbs % 60))

/-- The offset as Python writes it. -/
def isoZone : Option ℤ → List Char
  | none => []
  | some offset => offsetText offset

/-- The offset as `model_dump(mode="json")` writes it. -/
def jsonZone : Option ℤ → List Char
  | none => []
  | some offset => if offset = 0 then ['Z'] else offsetText offset

/-- The microseconds, if there are any, and what follows. -/
def fractionText (microsecond : ℕ) (rest : List Char) : List Char :=
  if microsecond = 0 then rest else '.' :: (digits 10 6 microsecond ++ rest)

/-- The text of a timestamp, given how the offset is written. -/
def text (zone : Option ℤ → List Char) (t : DateTime) : List Char :=
  digits 10 4 t.year ++ '-' :: (digits 10 2 t.month ++ '-' :: (digits 10 2 t.day ++ 'T' ::
    (digits 10 2 t.hour ++ ':' :: (digits 10 2 t.minute ++ ':' :: (digits 10 2 t.second ++
      fractionText t.microsecond (zone t.utcoffset))))))

/-- `datetime.isoformat()`. -/
def isoformat (t : DateTime) : String := String.ofList (t.text isoZone)

/-- The text of a timestamp in `model_dump(mode="json")`. -/
def modelDump (t : DateTime) : String := String.ofList (t.text jsonZone)

theorem offsetText_inj {x y : ℤ} (hx : -1440 < x ∧ x < 1440) (hy : -1440 < y ∧ y < 1440)
    (h : offsetText x = offsetText y) : x = y := by
  obtain ⟨hsign, hdigits⟩ := List.cons.inj h
  obtain ⟨hhours, hrest⟩ := digits_append_inj (by decide) (by decide) (by omega) (by omega) hdigits
  have hminutes : x.natAbs % 60 = y.natAbs % 60 :=
    digits_inj (by decide) (by decide) (by omega) (by omega) (List.cons.inj hrest).2
  have hsign' : x < 0 ↔ y < 0 := by
    by_cases hx' : x < 0 <;> by_cases hy' : y < 0 <;> simp [hx', hy'] at hsign ⊢
  omega

theorem fractionText_inj {x y : ℕ} (hx : x < 1000000) (hy : y < 1000000) {s t : List Char}
    (hs : s.head? ≠ some '.') (ht : t.head? ≠ some '.')
    (h : fractionText x s = fractionText y t) : x = y ∧ s = t := by
  rw [fractionText, fractionText] at h
  split_ifs at h with hx' hy' hy'
  · exact ⟨hx'.trans hy'.symm, h⟩
  · exact absurd (h ▸ rfl) hs
  · exact absurd (h ▸ rfl) ht
  · exact digits_append_inj (by decide) (by decide) hx hy (List.cons.inj h).2

theorem text_inj {zone : Option ℤ → List Char} (hdot : ∀ offset, (zone offset).head? ≠ some '.')
    (hzone : ∀ x y : Option ℤ, (∀ offset ∈ x, -1440 < offset ∧ offset < 1440) →
      (∀ offset ∈ y, -1440 < offset ∧ offset < 1440) → zone x = zone y → x = y)
    {t u : DateTime} (h : t.text zone = u.text zone) : t = u := by
  obtain ⟨⟨-, hyear⟩, ⟨-, hmonth⟩, ⟨-, hday⟩, hhour, hminute, hsecond, hmicrosecond, hoffset⟩ :=
    t.inRange
  obtain ⟨⟨-, hyear'⟩, ⟨-, hmonth'⟩, ⟨-, hday'⟩, hhour', hminute', hsecond', hmicrosecond',
    hoffset'⟩ := u.inRange
  have hdays : ∀ year month, daysInMonth year month ≤ 31 := by
    intro year month
    unfold daysInMonth
    split_ifs <;> decide
  have hday31 := hday.trans (hdays t.year t.month)
  have hday31' := hday'.trans (hdays u.year u.month)
  -- the field at the front, and what is left of the texts behind it and its separator
  have read : ∀ {width m n : ℕ} {c : Char} {s s' : List Char}, m < 10 ^ width → n < 10 ^ width →
      digits 10 width m ++ c :: s = digits 10 width n ++ c :: s' → m = n ∧ s = s' := by
    intro width m n c s s' hm hn h
    obtain ⟨hmn, hrest⟩ := digits_append_inj (by decide) (by decide) hm hn h
    exact ⟨hmn, (List.cons.inj hrest).2⟩
  simp only [text] at h
  obtain ⟨hyears, h⟩ := read (by omega) (by omega) h
  obtain ⟨hmonths, h⟩ := read (by omega) (by omega) h
  obtain ⟨hdays, h⟩ := read (by omega) (by omega) h
  obtain ⟨hhours, h⟩ := read (by omega) (by omega) h
  obtain ⟨hminutes, h⟩ := read (by omega) (by omega) h
  obtain ⟨hseconds, h⟩ := digits_append_inj (by decide) (by decide) (by omega) (by omega) h
  obtain ⟨hmicroseconds, h⟩ := fractionText_inj hmicrosecond hmicrosecond' (hdot _) (hdot _) h
  exact DateTime.ext hyears hmonths hdays hhours hminutes hseconds hmicroseconds
    (hzone _ _ hoffset hoffset' h)

theorem head_offsetText (offset : ℤ) :
    (offsetText offset).head? = some '-' ∨ (offsetText offset).head? = some '+' := by
  rw [offsetText, List.head?_cons]
  split_ifs
  · exact Or.inl rfl
  · exact Or.inr rfl

theorem isoformat_injective : Function.Injective isoformat := by
  intro t u h
  refine text_inj ?_ ?_ (String.ofList_injective h)
  · rintro (_ | offset)
    · simp [isoZone]
    · rcases head_offsetText offset with hhead | hhead <;> simp [isoZone, hhead]
  · rintro (_ | x) (_ | y) hx hy heq
    · rfl
    · cases heq
    · cases heq
    · rw [offsetText_inj (hx x rfl) (hy y rfl) heq]

theorem modelDump_injective : Function.Injective modelDump := by
  -- the letter of the zero offset is neither a sign nor a point
  have hzero : ∀ offset, ['Z'] ≠ offsetText offset := by
    intro offset h
    have hhead := head_offsetText offset
    rw [← h] at hhead
    simp at hhead
  intro t u h
  refine text_inj ?_ ?_ (String.ofList_injective h)
  · rintro (_ | offset)
    · simp [jsonZone]
    · rw [jsonZone]
      split_ifs
      · simp
      · rcases head_offsetText offset with hhead | hhead <;> simp [hhead]
  · rintro (_ | x) (_ | y) hx hy heq
    · rfl
    · simp only [jsonZone] at heq
      split_ifs at heq
      · cases heq
    · simp only [jsonZone] at heq
      split_ifs at heq
      · cases heq
    · simp only [jsonZone] at heq
      split_ifs at heq with hx' hy' hy'
      · rw [hx', hy']
      · exact absurd heq (hzero y)
      · exact absurd heq.symm (hzero x)
      · rw [offsetText_inj (hx x rfl) (hy y rfl) heq]

end DateTime

example : (DateTime.utc 2024 3 1 0 0 0 0).instant - (DateTime.utc 2024 2 28 0 0 0 0).instant
    = 2 * 24 * 60 * 60 * 1000000 := by decide

example : (DateTime.utc 2026 8 28 12 0 0 5).isoformat = "2026-08-28T12:00:00.000005+00:00" := by
  decide

end Sentinel
