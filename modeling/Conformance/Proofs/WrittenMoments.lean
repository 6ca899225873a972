import Conformance.Calendar.Text
import Conformance.Proofs.CalendarDays

/-!
# Written moments

The ISO text of a date or of a date and time can be read back: numbers are written with a fixed
width, so that the texts of two dates, or of two points in time, are equal only if what they say
is equal.  A text also tells what it is the text of, by its length alone: 10 characters for a
date, 19 or 26 for a date and time, and 6 more with the offset of universal time.
-/

namespace Conformance

/-! ## Numbers -/

/-- A number that fits is padded to the given width. -/
theorem length_padded {width n : Nat} (hwidth : 0 < width) (h : n < 10 ^ width) :
    (padded width n).length = width := by
  have hdigits : (Nat.toDigits 10 n).length ≤ width :=
    (Nat.length_toDigits_le_iff (by decide) hwidth).mpr h
  unfold padded
  rw [List.length_append, List.length_replicate]
  omega

/-- A padded number is read back by its digits. -/
theorem ofDigitChars_padded (width n : Nat) : Nat.ofDigitChars 10 (padded width n) 0 = n := by
  unfold padded
  rw [Nat.ofDigitChars_append, Nat.ofDigitChars_replicate_zero, Nat.mul_zero,
    Nat.ofDigitChars_toDigits (by decide) (by decide)]

/-- Padding brings no two numbers together. -/
theorem padded_inj {width m n : Nat} : padded width m = padded width n ↔ m = n := by
  refine ⟨fun h => ?_, fun h => by rw [h]⟩
  rw [← ofDigitChars_padded width m, h, ofDigitChars_padded]

/-- Numbers of a width in front of other texts can be told from these. -/
theorem padded_append_inj {width m n : Nat} {cs ds : List Char} (hwidth : 0 < width)
    (hm : m < 10 ^ width) (hn : n < 10 ^ width) :
    padded width m ++ cs = padded width n ++ ds ↔ m = n ∧ cs = ds := by
  have hlength : (padded width m).length = (padded width n).length := by
    rw [length_padded hwidth hm, length_padded hwidth hn]
  constructor
  · intro h
    obtain ⟨hnumber, hrest⟩ := List.append_inj h hlength
    exact ⟨padded_inj.mp hnumber, hrest⟩
  · rintro ⟨rfl, rfl⟩
    rfl

/-! ## Dates -/

namespace Date

/-- The fields of a date fit their digits. -/
theorem Valid.fits {d : Date} (h : d.Valid) :
    d.year < 10 ^ 4 ∧ d.month < 10 ^ 2 ∧ d.day < 10 ^ 2 := by
  have hyear := h.year.2
  have hmonth := h.month.2
  have hday := Nat.le_trans h.day.2 (daysInMonth_le d.year d.month)
  unfold maxYear at hyear
  omega

/-- A date is written with ten characters. -/
theorem length_iso {d : Date} (h : d.Valid) : d.iso.length = 10 := by
  obtain ⟨hyear, hmonth, hday⟩ := h.fits
  simp only [iso, List.length_append, List.length_cons, length_padded (by decide) hyear,
    length_padded (by decide) hmonth, length_padded (by decide) hday]

/-- **The text of a date** is that of no other date. -/
theorem iso_inj {d e : Date} (hd : d.Valid) (he : e.Valid) : d.iso = e.iso ↔ d = e := by
  refine ⟨fun h => ?_, fun h => by rw [h]⟩
  obtain ⟨hyear, hmonth, -⟩ := hd.fits
  obtain ⟨hyear', hmonth', -⟩ := he.fits
  simp only [iso, List.append_assoc, List.cons_append] at h
  obtain ⟨hy, h⟩ := (padded_append_inj (by decide) hyear hyear').mp h
  obtain ⟨hm, h⟩ := (padded_append_inj (by decide) hmonth hmonth').mp (List.cons.inj h).2
  have hd := padded_inj.mp (List.cons.inj h).2
  cases d
  cases e
  simp_all

end Date

/-! ## Times of day -/

namespace Clock

/-- The fraction of a second as it is written: not at all if there is none. -/
def fraction (c : Clock) : List Char := if c.micro = 0 then [] else '.' :: padded 6 c.micro

theorem iso_eq (c : Clock) :
    c.iso = padded 2 c.hour ++
      ':' :: (padded 2 c.minute ++ ':' :: (padded 2 c.second ++ c.fraction)) := by
  simp only [iso, fraction, List.append_assoc, List.cons_append]

/-- The fields of a clock time fit their digits. -/
theorem Valid.fits {c : Clock} (h : c.Valid) :
    c.hour < 10 ^ 2 ∧ c.minute < 10 ^ 2 ∧ c.second < 10 ^ 2 ∧ c.micro < 10 ^ 6 := by
  obtain ⟨hhour, hminute, hsecond, hmicro⟩ := h
  omega

/-- A fraction is left out, or has six digits. -/
theorem length_fraction {c : Clock} (h : c.Valid) :
    c.fraction.length = if c.micro = 0 then 0 else 7 := by
  unfold fraction
  split
  · rfl
  · rw [List.length_cons, length_padded (by decide) h.fits.2.2.2]

/-- The length of a clock time tells whether it has a fraction. -/
theorem length_iso {c : Clock} (h : c.Valid) :
    c.iso.length = if c.micro = 0 then 8 else 15 := by
  obtain ⟨hhour, hminute, hsecond, -⟩ := h.fits
  simp only [iso_eq, List.length_append, List.length_cons, length_padded (by decide) hhour,
    length_padded (by decide) hminute, length_padded (by decide) hsecond, length_fraction h]
  split <;> rfl

/-- A fraction tells the microseconds. -/
theorem fraction_inj {c d : Clock} : c.fraction = d.fraction ↔ c.micro = d.micro := by
  refine ⟨fun h => ?_, fun h => by rw [fraction, fraction, h]⟩
  unfold fraction at h
  split at h
  · next hzero =>
      split at h
      · next hzero' => rw [hzero, hzero']
      · cases h
  · split at h
    · cases h
    · exact padded_inj.mp (List.cons.inj h).2

/-- **The text of a time of day** is that of no other one. -/
theorem iso_inj {c d : Clock} (hc : c.Valid) (hd : d.Valid) : c.iso = d.iso ↔ c = d := by
  refine ⟨fun h => ?_, fun h => by rw [h]⟩
  obtain ⟨hhour, hminute, hsecond, -⟩ := hc.fits
  obtain ⟨hhour', hminute', hsecond', -⟩ := hd.fits
  rw [iso_eq, iso_eq] at h
  obtain ⟨hh, h⟩ := (padded_append_inj (by decide) hhour hhour').mp h
  obtain ⟨hm, h⟩ := (padded_append_inj (by decide) hminute hminute').mp (List.cons.inj h).2
  obtain ⟨hs, h⟩ := (padded_append_inj (by decide) hsecond hsecond').mp (List.cons.inj h).2
  have hmicro := fraction_inj.mp h
  cases c
  cases d
  simp_all

end Clock

/-! ## Points in time -/

namespace DateTime

theorem iso_eq (t : DateTime) :
    t.iso = t.date.iso ++ 'T' :: (t.clock.iso ++ offsetText? t.offset) := by
  simp only [iso, isoWith, List.append_assoc, List.cons_append]

/-- A date and time without an offset, or in universal time. -/
def IsSettled (t : DateTime) : Prop := t.offset = none ∨ t.offset = some 0

/-- The length of a date and time is that of its parts. -/
theorem length_iso {t : DateTime} (h : t.Valid) :
    t.iso.length = 11 + (if t.clock.micro = 0 then 8 else 15) + (offsetText? t.offset).length := by
  simp only [iso_eq, List.length_append, List.length_cons, Date.length_iso h.date,
    Clock.length_iso h.clock]
  omega

/-- With and without the offset of universal time, texts differ in their lengths. -/
theorem offset_eq_of_iso {t u : DateTime} (ht : t.Valid) (hu : u.Valid) (hsettled : t.IsSettled)
    (hsettled' : u.IsSettled) (h : t.iso = u.iso) : t.offset = u.offset := by
  have hlength : t.iso.length = u.iso.length := by rw [h]
  have hnone : (offsetText? none).length = 0 := rfl
  have hzero : (offsetText? (some 0)).length = 6 := rfl
  rw [length_iso ht, length_iso hu] at hlength
  -- The fraction of a second makes a difference of seven characters, the offset one of six.
  rcases hsettled with hoffset | hoffset
  · rcases hsettled' with hoffset' | hoffset'
    · rw [hoffset, hoffset']
    · rw [hoffset, hoffset', hnone, hzero] at hlength
      split at hlength <;> split at hlength <;> omega
  · rcases hsettled' with hoffset' | hoffset'
    · rw [hoffset, hoffset', hnone, hzero] at hlength
      split at hlength <;> split at hlength <;> omega
    · rw [hoffset, hoffset']

/-- **The text of a date and time** without an offset, or in universal time, is that of no
other. -/
theorem iso_inj {t u : DateTime} (ht : t.Valid) (hu : u.Valid) (hsettled : t.IsSettled)
    (hsettled' : u.IsSettled) : t.iso = u.iso ↔ t = u := by
  refine ⟨fun h => ?_, fun h => by rw [h]⟩
  have hoffset := offset_eq_of_iso ht hu hsettled hsettled' h
  rw [iso_eq, iso_eq, hoffset] at h
  have hlength : t.date.iso.length = u.date.iso.length := by
    rw [Date.length_iso ht.date, Date.length_iso hu.date]
  obtain ⟨hdate, hrest⟩ := List.append_inj h hlength
  have hclock := List.append_cancel_right (List.cons.inj hrest).2
  rw [Date.iso_inj ht.date hu.date] at hdate
  rw [Clock.iso_inj ht.clock hu.clock] at hclock
  cases t
  cases u
  simp_all

/-- The text of a date is not that of a date and time. -/
theorem date_iso_ne {d : Date} {t : DateTime} (hd : d.Valid) (ht : t.Valid) : d.iso ≠ t.iso := by
  intro h
  have hlength : d.iso.length = t.iso.length := by rw [h]
  rw [Date.length_iso hd, length_iso ht] at hlength
  omega

end DateTime

end Conformance
