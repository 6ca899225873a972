import Conformance.Fault

/-!
# Values of points in time

A date is year, month and day.  A time of day may follow, with a fraction of which six digits
count, and an offset from universal time.
-/

namespace Conformance.Yaml

/-- A point in time as written. -/
structure Stamp where
  year : Nat
  month : Nat
  day : Nat
  /-- Hour, minute, second and microsecond. -/
  time : Option (Nat × Nat × Nat × Nat)
  /-- Offset from universal time in seconds. -/
  offset : Option Int
deriving Repr, Inhabited

/-- Between `least` and `most` digits, their value, and what follows them. -/
def digitsBetween (least most : Nat) (cs : List Char) : Option (Nat × List Char) :=
  let run := (cs.take most).takeWhile Text.isAsciiDigit
  if run.length < least then none else (Text.decimal? run).map fun n => (n, cs.drop run.length)

/-- What follows a character. -/
def behind (c : Char) : List Char → Option (List Char)
  | x :: rest => if x == c then some rest else none
  | [] => none

/-- Microseconds of the digits of a fraction. -/
def microseconds (digits : List Char) : Nat :=
  let six := digits.take 6
  (Text.decimal? (six ++ List.replicate (6 - six.length) '0')).getD 0

/-- The fraction of a second that may stand here. -/
def fractionOf : List Char → Nat × List Char
  | '.' :: rest => (microseconds (rest.takeWhile Text.isAsciiDigit), rest.dropWhile Text.isAsciiDigit)
  | cs => (0, cs)

/-- An offset in hours and minutes. -/
def offsetSize? (cs : List Char) : Option Int := do
  let (hours, rest) ← digitsBetween 1 2 cs
  let (minutes, rest) ← match rest with
    | ':' :: rest => digitsBetween 2 2 rest
    | rest => some (0, rest)
  if rest.isEmpty then some (3600 * hours + 60 * minutes : Nat) else none

/-- The offset that may stand at the end. -/
def offsetOf? (cs : List Char) : Option (Option Int) :=
  match cs, cs.dropWhile (fun c => c == ' ' || c == '\t') with
  | [], _ => some none
  | _, ['Z'] => some (some 0)
  | _, '+' :: rest => (offsetSize? rest).map some
  | _, '-' :: rest => (offsetSize? rest).map fun o => some (-o)
  | _, _ => none

/-- What may stand between a date and a time of day. -/
def behindDate : List Char → Option (List Char)
  | 'T' :: rest => some rest
  | 't' :: rest => some rest
  | ' ' :: rest => some (rest.dropWhile (fun c => c == ' ' || c == '\t'))
  | '\t' :: rest => some (rest.dropWhile (fun c => c == ' ' || c == '\t'))
  | _ => none

/-- Reads a point in time. -/
def stamp? (cs : List Char) : Option Stamp := do
  let (year, rest) ← digitsBetween 4 4 cs
  let (month, rest) ← digitsBetween 1 2 (← behind '-' rest)
  let (day, rest) ← digitsBetween 1 2 (← behind '-' rest)
  if rest.isEmpty then return ⟨year, month, day, none, none⟩
  let (hour, rest) ← digitsBetween 1 2 (← behindDate rest)
  let (minute, rest) ← digitsBetween 2 2 (← behind ':' rest)
  let (second, rest) ← digitsBetween 2 2 (← behind ':' rest)
  let (micro, rest) := fractionOf rest
  return ⟨year, month, day, some (hour, minute, second, micro), ← offsetOf? rest⟩

/-- A date. -/
def Stamp.date (s : Stamp) : Except Fault Date :=
  match Date.make s.year s.month s.day with
  | .ok d => .ok d
  | .error why => .error (.date why)

/-- A time of day. -/
def clockOf (hour minute second micro : Nat) : Except Fault Clock :=
  match Clock.make hour minute second micro with
  | .ok c => .ok c
  | .error why => .error (.clock why)

/-- An offset below a day. -/
def checkOffset (offset : Option Int) : Except Fault Unit :=
  match offset with
  | some o => if o.natAbs < 86400 then .ok () else .error (.offsetRange o)
  | none => .ok ()

/-- The date, or date and time, of a text. -/
def readTimestamp (cs : List Char) : Except Fault Scalar := do
  match stamp? cs with
  | none => throw (.noAttribute "NoneType" "groupdict")
  | some s =>
    match s.time with
    | none => return .date (← s.date)
    | some (hour, minute, second, micro) =>
      checkOffset s.offset
      let date ← s.date
      return .datetime ⟨date, ← clockOf hour minute second micro, s.offset.map (1000000 * ·)⟩

end Conformance.Yaml
