import Conformance.Calendar.DateTime
import Mathlib.Algebra.GroupWithZero.Nat

/-!
# Days of the calendar

The number of a day and the day of a number are inverse to each other: `number_ofNumber`.  Taking
a number apart goes in two steps, first the year and the days into it (`splitYear_spec`), then the
month and the days into that (`splitMonths_spec`), and each step leaves less than what it took.

So a point in time that is written in universal time is the same instant as before
(`instant_universal`), whatever day, month or year its offset moves it to.
-/

namespace Conformance

namespace Date

/-- The rule of leap years. -/
theorem isLeap_iff {year : Nat} :
    isLeap year = true ↔ year % 4 = 0 ∧ (year % 100 ≠ 0 ∨ year % 400 = 0) := by
  simp [isLeap]

/-- Days of a year. -/
def yearLength (year : Nat) : Nat := (monthLengths (isLeap year)).sum

theorem yearLength_eq (year : Nat) : yearLength year = if isLeap year then 366 else 365 := by
  unfold yearLength
  cases isLeap year <;> rfl

/-- Days before a year, from its centuries and the spans of four years in these. -/
theorem daysBeforeYear_split {cycles centuries fours ones : Nat} (hcenturies : centuries ≤ 3)
    (hfours : fours ≤ 24) (hones : ones ≤ 3) :
    daysBeforeYear (400 * cycles + 100 * centuries + 4 * fours + ones + 1) =
      146097 * cycles + 36524 * centuries + 1461 * fours + 365 * ones := by
  unfold daysBeforeYear
  have hyears : (400 * cycles + 100 * centuries + 4 * fours + ones) / 4 =
      100 * cycles + 25 * centuries + fours := by omega
  have hhundreds : (400 * cycles + 100 * centuries + 4 * fours + ones) / 100 =
      4 * cycles + centuries := by omega
  have hcycles : (400 * cycles + 100 * centuries + 4 * fours + ones) / 400 = cycles := by omega
  rw [Nat.add_sub_cancel]
  dsimp only
  rw [hyears, hhundreds, hcycles]
  omega

/-- **The year of a day** starts as many days before it as are left of its number. -/
theorem splitYear_spec (n : Nat) :
    daysBeforeYear (splitYear n).1 + (splitYear n).2 = n ∧ 1 ≤ (splitYear n).1 ∧
      (splitYear n).2 < yearLength (splitYear n).1 := by
  unfold splitYear
  have hcycle : n % 146097 < 146097 := Nat.mod_lt _ (by decide)
  have hn : 146097 * (n / 146097) + n % 146097 = n := Nat.div_add_mod n 146097
  generalize n / 146097 = cycles at *
  generalize n % 146097 = r at *
  subst hn
  -- Only the last century of a cycle has a day more than the others.
  have hcenturies : min (r / 36524) 3 ≤ 3 ∧ 36524 * min (r / 36524) 3 ≤ r ∧
      (r - 36524 * min (r / 36524) 3 < 36524 ∨
        min (r / 36524) 3 = 3 ∧ r - 36524 * min (r / 36524) 3 = 36524) := by omega
  dsimp only
  generalize min (r / 36524) 3 = centuries at *
  obtain ⟨hthree, hle, hcentury⟩ := hcenturies
  obtain ⟨r', rfl⟩ := Nat.exists_eq_add_of_le hle
  rw [Nat.add_sub_cancel_left] at *
  have hfours : r' / 1461 ≤ 24 := by omega
  have hspan : 1461 * (r' / 1461) + r' % 1461 = r' := Nat.div_add_mod r' 1461
  have hday : r' % 1461 < 1461 := Nat.mod_lt _ (by decide)
  generalize r' / 1461 = fours at *
  generalize r' % 1461 = r'' at *
  subst hspan
  -- Only the last year of a span has a day more than the others.
  have hones : min (r'' / 365) 3 ≤ 3 ∧ 365 * min (r'' / 365) 3 ≤ r'' ∧
      (r'' - 365 * min (r'' / 365) 3 < 365 ∨
        min (r'' / 365) 3 = 3 ∧ r'' - 365 * min (r'' / 365) 3 = 365) := by omega
  generalize min (r'' / 365) 3 = ones at *
  obtain ⟨hlast, hle', hyear⟩ := hones
  rw [daysBeforeYear_split hthree hfours hlast]
  refine ⟨by omega, by omega, ?_⟩
  rw [yearLength_eq]
  split
  · omega
  · next hleap =>
      rw [isLeap_iff] at hleap
      omega

/-- **The month of a day** is the one that starts so many days before it. -/
theorem splitMonths_spec {lengths : List Nat} (month : Nat) {rest : Nat} (h : rest < lengths.sum) :
    ∃ i day, splitMonths lengths month rest = (month + i, day + 1) ∧
      (lengths.take i).sum + day = rest ∧ ∃ hi : i < lengths.length, day < lengths[i] := by
  induction lengths generalizing month rest with
  | nil => exact absurd h (Nat.not_lt_zero _)
  | cons length lengths ih =>
      rw [splitMonths]
      split
      · next hhere => exact ⟨0, rest, rfl, by simp, by simp, by simpa using hhere⟩
      · next hlater =>
          rw [List.sum_cons] at h
          have hless : rest - length < lengths.sum := by omega
          obtain ⟨i, day, hsplit, hsum, hi, hday⟩ := ih (month + 1) hless
          refine ⟨i + 1, day, ?_, ?_, by simpa using hi, by simpa using hday⟩
          · rw [hsplit]
            congr 1
            omega
          · rw [List.take_succ_cons, List.sum_cons]
            omega

/-- The days before a month are those of the months before it. -/
theorem daysBeforeMonth_eq (year month : Nat) :
    daysBeforeMonth year month = ((monthLengths (isLeap year)).take (month - 1)).sum := by
  unfold daysBeforeMonth
  exact List.sum_eq_foldl_nat.symm

/-- The year, month and day of a number, with how they come from it. -/
theorem ofNumber_spec (n : Nat) :
    ∃ year i day, ofNumber n = ⟨year, 1 + i, day + 1⟩ ∧ 1 ≤ year ∧
      daysBeforeYear year + ((monthLengths (isLeap year)).take i).sum + day = n ∧
      ∃ hi : i < (monthLengths (isLeap year)).length, day < (monthLengths (isLeap year))[i] := by
  obtain ⟨hyear, hfirst, hrest⟩ := splitYear_spec n
  obtain ⟨i, day, hsplit, hmonth, hi, hday⟩ := splitMonths_spec 1 hrest
  refine ⟨(splitYear n).1, i, day, ?_, hfirst, by omega, hi, hday⟩
  unfold ofNumber
  dsimp only
  rw [hsplit]

/-- **The number of the day of a number** is that number. -/
theorem number_ofNumber (n : Nat) : (ofNumber n).number = n := by
  obtain ⟨year, i, day, hdate, -, hsum, -⟩ := ofNumber_spec n
  rw [hdate, number, daysBeforeMonth_eq, Nat.add_sub_cancel_left, Nat.add_sub_cancel]
  exact hsum

/-- A date of the calendar. -/
structure Valid (d : Date) : Prop where
  year : 1 ≤ d.year ∧ d.year ≤ maxYear
  month : 1 ≤ d.month ∧ d.month ≤ 12
  day : 1 ≤ d.day ∧ d.day ≤ daysInMonth d.year d.month

theorem daysInMonth_le (year month : Nat) : daysInMonth year month ≤ 31 := by
  have hlengths : ∀ length ∈ monthLengths (isLeap year), length ≤ 31 := by
    cases isLeap year <;> decide
  rw [daysInMonth, List.getD_eq_getElem?_getD]
  cases hmonth : (monthLengths (isLeap year))[month - 1]? with
  | none => exact Nat.zero_le _
  | some length => exact hlengths length (List.mem_of_getElem? hmonth)

/-- Years after the last one start after all days of the calendar. -/
theorem dayCount_le_of_late {year : Nat} (h : maxYear < year) : dayCount ≤ daysBeforeYear year := by
  have hcount : dayCount = 3652059 := rfl
  rw [hcount, daysBeforeYear]
  unfold maxYear at h
  omega

/-- The days of a month, by its position in the year. -/
theorem daysInMonth_eq {year i : Nat} (hi : i < (monthLengths (isLeap year)).length) :
    daysInMonth year (1 + i) = (monthLengths (isLeap year))[i] := by
  rw [daysInMonth, Nat.add_sub_cancel_left, List.getD_eq_getElem?_getD,
    List.getElem?_eq_getElem hi, Option.getD_some]

/-- **The day of a number** that the calendar reaches is one of its dates. -/
theorem ofNumber_valid {n : Nat} (h : n < dayCount) : (ofNumber n).Valid := by
  obtain ⟨year, i, day, hdate, hfirst, hsum, hi, hday⟩ := ofNumber_spec n
  have hmonths : i < 12 := hi
  have hlast : year ≤ maxYear := by
    refine Nat.le_of_not_lt fun hlater => ?_
    have hstart := dayCount_le_of_late hlater
    omega
  have hlength := daysInMonth_eq hi
  have hmonth : 1 ≤ 1 + i ∧ 1 + i ≤ 12 := by omega
  have hwithin : 1 ≤ day + 1 ∧ day + 1 ≤ daysInMonth year (1 + i) := by omega
  rw [hdate]
  exact ⟨⟨hfirst, hlast⟩, hmonth, hwithin⟩

end Date

/-! ## Points in time -/

namespace Clock

/-- A time of day. -/
structure Valid (c : Clock) : Prop where
  hour : c.hour < 24
  minute : c.minute < 60
  second : c.second < 60
  micro : c.micro < 1000000

/-- Every microsecond of a day is a clock time. -/
theorem ofMicros_valid {n : Nat} (h : n < DateTime.dayMicros) : (ofMicros n).Valid := by
  unfold DateTime.dayMicros at h
  have hhour : n / 3600000000 < 24 := by omega
  exact ⟨hhour, Nat.mod_lt _ (by decide), Nat.mod_lt _ (by decide), Nat.mod_lt _ (by decide)⟩

/-- It is that microsecond. -/
theorem micros_ofMicros (n : Nat) : (ofMicros n).micros = n := by
  unfold micros seconds ofMicros
  dsimp only
  omega

end Clock

namespace DateTime

/-- A date and time of the calendar. -/
structure Valid (t : DateTime) : Prop where
  date : t.date.Valid
  clock : t.clock.Valid

/-- The calendar reaches the instant of a date and time in universal time. -/
def InCalendar (t : DateTime) : Prop :=
  0 ≤ t.instant ∧ t.instant < (dayMicros * Date.dayCount : Nat)

instance (t : DateTime) : Decidable t.InCalendar :=
  inferInstanceAs (Decidable (0 ≤ t.instant ∧ t.instant < (dayMicros * Date.dayCount : Nat)))

/-- The instant of a date and time with an offset, written with offset zero. -/
def universal (t : DateTime) : DateTime := ofInstant t.instant.toNat (some 0)

/-- A moment within the calendar has a universal time. -/
theorem toUniversal?_eq_some {t : DateTime} (h : t.InCalendar) :
    t.toUniversal? = some t.universal := by
  obtain ⟨hstart, hend⟩ := h
  unfold toUniversal?
  rw [if_neg]
  · rfl
  · simp only [Bool.or_eq_true, decide_eq_true_eq, not_or]
    omega

/-- A number of microseconds after the start of the calendar is a date and time that far from it. -/
theorem localInstant_ofInstant (n : Nat) (offset : Option Int) :
    (ofInstant n offset).localInstant = n := by
  unfold localInstant ofInstant
  rw [Date.number_ofNumber, Clock.micros_ofMicros, Nat.div_add_mod]

theorem universal_valid {t : DateTime} (h : t.InCalendar) : t.universal.Valid := by
  obtain ⟨hstart, hend⟩ := h
  have hday : t.instant.toNat / dayMicros < Date.dayCount := by
    rw [Nat.div_lt_iff_lt_mul (by decide), Nat.mul_comm]
    omega
  have hmicro : t.instant.toNat % dayMicros < dayMicros := Nat.mod_lt _ (by decide)
  exact ⟨Date.ofNumber_valid hday, Clock.ofMicros_valid hmicro⟩

/-- **In universal time** a date and time is the same instant. -/
theorem instant_universal {t : DateTime} (h : t.InCalendar) : t.universal.instant = t.instant := by
  have hstart := h.1
  unfold universal
  rw [instant, localInstant_ofInstant]
  change (t.instant.toNat : Int) - 0 = t.instant
  omega

/-- **Two dates and times are one in universal time** exactly if they are one instant. -/
theorem universal_eq_iff {t u : DateTime} (ht : t.InCalendar) (hu : u.InCalendar) :
    t.universal = u.universal ↔ t.instant = u.instant := by
  constructor
  · intro h
    rw [← instant_universal ht, h, instant_universal hu]
  · intro h
    rw [universal, universal, h]

end DateTime

end Conformance
