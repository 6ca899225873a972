import Conformance.Calendar.DateTime

/-!
# Written dates and times

The ISO 8601 text of dates, times and points in time, and the constructor notation that quoted
values use.
-/

namespace Conformance

/-- A number with zeros in front up to a width. -/
def padded (width n : Nat) : List Char :=
  let digits := Nat.toDigits 10 n
  List.replicate (width - digits.length) '0' ++ digits

/-- A number in decimal digits. -/
def numeral (n : Nat) : List Char := Nat.toDigits 10 n

/-- A whole number in decimal digits. -/
def integer (i : Int) : List Char :=
  if i < 0 then '-' :: numeral i.natAbs else numeral i.natAbs

/-- Written offset: sign, hours, minutes, and seconds with their fraction unless they are zero. -/
def offsetText (offset : Int) : List Char :=
  let n := offset.natAbs
  (if offset < 0 then '-' else '+') ::
    padded 2 (n / 3600000000) ++ ':' :: padded 2 (n / 60000000 % 60) ++
    (if n % 60000000 = 0 then []
     else ':' :: padded 2 (n / 1000000 % 60) ++
       (if n % 1000000 = 0 then [] else '.' :: padded 6 (n % 1000000)))

/-- Written optional offset. -/
def offsetText? (offset : Option Int) : List Char :=
  match offset with
  | none => []
  | some o => offsetText o

/-- ISO text of a date. -/
def Date.iso (d : Date) : List Char :=
  padded 4 d.year ++ '-' :: padded 2 d.month ++ '-' :: padded 2 d.day

/-- ISO text of a time of day; the fraction only if there is one. -/
def Clock.iso (c : Clock) : List Char :=
  padded 2 c.hour ++ ':' :: padded 2 c.minute ++ ':' :: padded 2 c.second ++
    (if c.micro = 0 then [] else '.' :: padded 6 c.micro)

/-- ISO text of a time. -/
def Time.iso (t : Time) : List Char := t.clock.iso ++ offsetText? t.offset

/-- Text of a date and time with a given character between the two. -/
def DateTime.isoWith (separator : Char) (t : DateTime) : List Char :=
  t.date.iso ++ separator :: t.clock.iso ++ offsetText? t.offset

/-- ISO text of a date and time. -/
def DateTime.iso (t : DateTime) : List Char := t.isoWith 'T'

/-! ## Constructor notation -/

/-- Numbers with a comma and a blank between them. -/
def commaSeparated (parts : List (List Char)) : List Char :=
  (parts.intersperse ", ".toList).flatten

/-- An offset as days, seconds and microseconds, where only the days may be negative. -/
def offsetParts (offset : Int) : List (List Char) :=
  let days := Int.fdiv offset 86400000000
  let seconds := Int.fdiv (Int.fmod offset 86400000000) 1000000
  let micros := Int.fmod offset 1000000
  (if days = 0 then [] else ["days=".toList ++ integer days]) ++
    (if seconds = 0 then [] else ["seconds=".toList ++ integer seconds]) ++
    (if micros = 0 then [] else ["microseconds=".toList ++ integer micros])

/-- Constructor notation of a duration, in microseconds, other than zero. -/
def durationShown (micros : Int) : List Char :=
  "datetime.timedelta(".toList ++ commaSeparated (offsetParts micros) ++ [')']

/-- Constructor notation of an offset. -/
def offsetShown (offset : Int) : List Char :=
  if offset = 0 then "datetime.timezone.utc".toList
  else "datetime.timezone(".toList ++ durationShown offset ++ [')']

/-- Last argument of constructor notation, for the offset. -/
def offsetArgument (offset : Option Int) : List (List Char) :=
  match offset with
  | none => []
  | some o => ["tzinfo=".toList ++ offsetShown o]

/-- Arguments of constructor notation for a time of day: seconds and microseconds when needed. -/
def Clock.arguments (c : Clock) : List (List Char) :=
  [numeral c.hour, numeral c.minute] ++
    (if c.second = 0 && c.micro = 0 then [] else [numeral c.second]) ++
    (if c.micro = 0 then [] else [numeral c.micro])

/-- Constructor notation of a date. -/
def Date.shown (d : Date) : List Char :=
  "datetime.date(".toList ++
    commaSeparated [numeral d.year, numeral d.month, numeral d.day] ++ [')']

/-- Constructor notation of a time. -/
def Time.shown (t : Time) : List Char :=
  "datetime.time(".toList ++ commaSeparated (t.clock.arguments ++ offsetArgument t.offset) ++ [')']

/-- Constructor notation of a date and time. -/
def DateTime.shown (t : DateTime) : List Char :=
  "datetime.datetime(".toList ++
    commaSeparated ([numeral t.date.year, numeral t.date.month, numeral t.date.day] ++
      t.clock.arguments ++ offsetArgument t.offset) ++ [')']

end Conformance
