/-!
# Calendar dates

Dates of the proleptic Gregorian calendar in the years 1 to 9999, and their numbering by days.
Day number 0 is the first of January of the year 1.
-/

namespace Conformance

/-- A day of the calendar. -/
structure Date where
  year : Nat
  month : Nat
  day : Nat
deriving DecidableEq, Repr, Inhabited

namespace Date

/-- Last year of the calendar. -/
def maxYear : Nat := 9999

/-- A year of 366 days. -/
def isLeap (year : Nat) : Bool :=
  year % 4 == 0 && (year % 100 != 0 || year % 400 == 0)

/-- Lengths of the months of a year. -/
def monthLengths (leap : Bool) : List Nat :=
  [31, if leap then 29 else 28, 31, 30, 31, 30, 31, 31, 30, 31, 30, 31]

/-- Length of a month. -/
def daysInMonth (year month : Nat) : Nat :=
  (monthLengths (isLeap year)).getD (month - 1) 0

/-- Why three numbers do not name a date. -/
inductive Fault
  | year (year : Nat)
  | month
  | day
deriving DecidableEq, Repr

/-- The date that three numbers name. -/
def make (year month day : Nat) : Except Fault Date :=
  if year < 1 || maxYear < year then .error (.year year)
  else if month < 1 || 12 < month then .error .month
  else if day < 1 || daysInMonth year month < day then .error .day
  else .ok ⟨year, month, day⟩

/-- Days before the first day of a year. -/
def daysBeforeYear (year : Nat) : Nat :=
  let y := year - 1
  365 * y + y / 4 - y / 100 + y / 400

/-- Days of a year before the first day of a month. -/
def daysBeforeMonth (year month : Nat) : Nat :=
  ((monthLengths (isLeap year)).take (month - 1)).foldl (fun n length => n + length) 0

/-- Number of a day. -/
def number (d : Date) : Nat :=
  daysBeforeYear d.year + daysBeforeMonth d.year d.month + (d.day - 1)

/-- Days of all years of the calendar. -/
def dayCount : Nat := daysBeforeYear (maxYear + 1)

/-- Month and day of the month of a day counted from the start of a list of months. -/
def splitMonths : List Nat → Nat → Nat → Nat × Nat
  | [], month, rest => (month, rest + 1)
  | length :: lengths, month, rest =>
    if rest < length then (month, rest + 1) else splitMonths lengths (month + 1) (rest - length)

/-- Year of a day number, and the day counted from the start of that year.  The calendar repeats
every 400 years; a century, a span of four years and a year are taken off in turn, where the last
of each keeps the leap day at its end. -/
def splitYear (n : Nat) : Nat × Nat :=
  let r := n % 146097
  let centuries := min (r / 36524) 3
  let r' := r - 36524 * centuries
  let fours := r' / 1461
  let r'' := r' % 1461
  let ones := min (r'' / 365) 3
  (400 * (n / 146097) + 100 * centuries + 4 * fours + ones + 1, r'' - 365 * ones)

/-- The day of a number. -/
def ofNumber (n : Nat) : Date :=
  let (year, rest) := splitYear n
  let (month, day) := splitMonths (monthLengths (isLeap year)) 1 rest
  ⟨year, month, day⟩

end Date

end Conformance
