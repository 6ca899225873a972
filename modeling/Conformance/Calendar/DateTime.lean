import Conformance.Calendar.Date

/-!
# Times of day and points in time

A time of day and a date with a time of day, each with or without an offset from universal time.
A date with a time and an offset denotes an instant; two of them are compared by it, and
`DateTime.toUniversal?` gives the same instant with offset zero where the calendar has it.
-/

namespace Conformance

/-- Hour, minute, second and microsecond of a day. -/
structure Clock where
  hour : Nat
  minute : Nat
  second : Nat
  micro : Nat
deriving DecidableEq, Repr, Inhabited

/-- A time of day, with an optional offset in microseconds from universal time. -/
structure Time where
  clock : Clock
  offset : Option Int
deriving DecidableEq, Repr, Inhabited

/-- A date and a time of day, with an optional offset in microseconds from universal time. -/
structure DateTime where
  date : Date
  clock : Clock
  offset : Option Int
deriving DecidableEq, Repr, Inhabited

namespace Clock

/-- Why four numbers do not name a time of day. -/
inductive Fault
  | hour
  | minute
  | second
deriving DecidableEq, Repr

/-- The time of day that four numbers name. -/
def make (hour minute second micro : Nat) : Except Fault Clock :=
  if 24 ≤ hour then .error .hour
  else if 60 ≤ minute then .error .minute
  else if 60 ≤ second then .error .second
  else .ok ⟨hour, minute, second, micro⟩

/-- Seconds since the start of the day. -/
def seconds (c : Clock) : Nat := 3600 * c.hour + 60 * c.minute + c.second

/-- Microseconds since the start of the day. -/
def micros (c : Clock) : Nat := 1000000 * c.seconds + c.micro

/-- The time of day a number of microseconds after its start. -/
def ofMicros (n : Nat) : Clock :=
  ⟨n / 3600000000, n / 60000000 % 60, n / 1000000 % 60, n % 1000000⟩

end Clock

namespace Time

/-- Times with offsets are equal if they are as far from universal midnight, where an offset counts
in whole seconds; times without if they read the same.  A time with an offset differs from every
time without. -/
def equal (a b : Time) : Bool :=
  match a.offset, b.offset with
  | none, none => a.clock == b.clock
  | some oa, some ob =>
    (a.clock.seconds : Int) - Int.fdiv oa 1000000 == (b.clock.seconds : Int) - Int.fdiv ob 1000000 &&
      a.clock.micro == b.clock.micro
  | _, _ => false

end Time

namespace DateTime

/-- Microseconds of a day. -/
def dayMicros : Nat := 86400000000

/-- Microseconds from the start of the calendar to the date and time as they read. -/
def localInstant (t : DateTime) : Int :=
  (dayMicros * t.date.number + t.clock.micros : Nat)

/-- Microseconds from the start of the calendar to a date and time, less its offset. -/
def instant (t : DateTime) : Int := t.localInstant - t.offset.getD 0

/-- The date and time a number of microseconds after the start of the calendar. -/
def ofInstant (n : Nat) (offset : Option Int) : DateTime :=
  ⟨Date.ofNumber (n / dayMicros), Clock.ofMicros (n % dayMicros), offset⟩

/-- The instant of a date and time with an offset, written with offset zero; nothing if the
calendar does not reach it.  Offset zero is left alone. -/
def toUniversal? (t : DateTime) : Option DateTime :=
  if t.instant < 0 || (dayMicros * Date.dayCount : Nat) ≤ t.instant then none
  else some (ofInstant t.instant.toNat (some 0))

/-- Dates and times with offsets are equal if they denote the same instant, those without if
they read the same; one with an offset differs from every one without. -/
def equal (a b : DateTime) : Bool :=
  match a.offset, b.offset with
  | none, none => a.date == b.date && a.clock == b.clock
  | some _, some _ => a.instant == b.instant
  | _, _ => false

end DateTime

end Conformance
