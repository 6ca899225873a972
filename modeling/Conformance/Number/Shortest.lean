import Conformance.Number.Binary64

/-!
# Shortest decimal text

A binary number is written with the fewest decimal digits that read back as the same number, and
of those the nearest to it.  The search is exact: the decimals that read back are those of an
interval around the number, and for each count of digits only the number's two neighbours on that
decimal grid can be the first to lie in it.
-/

namespace Conformance.Binary64

/-- The decimals that round to a number: its distance to either end, in units of a quarter of
the significand's last place, and whether the ends belong to it. -/
structure Rounding where
  below : Nat
  above : Nat
  closed : Bool

/-- Decimals that round to a positive significand.  Below a power of two the numbers lie twice
as close. -/
def roundingOf (mantissa : Nat) (exponent : Int) : Rounding where
  below := if mantissa = Nat.pow 2 52 && minExponent < exponent then 1 else 2
  above := 2
  closed := mantissa % 2 == 0

/-- A whole number of decimal units: `digits * 10 ^ exponent`. -/
structure Decimal where
  digits : Nat
  exponent : Int
deriving DecidableEq, Repr, Inhabited

/-- Number of decimal digits. -/
def digitCount (n : Nat) : Nat := (Nat.toDigits 10 n).length

/-- A power of ten as a ratio. -/
def powerOfTen (k : Int) : Nat × Nat :=
  if k < 0 then (1, Nat.pow 10 (-k).toNat) else (Nat.pow 10 k.toNat, 1)

/-- A power of two as a ratio. -/
def powerOfTwo (k : Int) : Nat × Nat :=
  if k < 0 then (1, Nat.pow 2 (-k).toNat) else (Nat.pow 2 k.toNat, 1)

/-- Whether `digits * 10 ^ unit` rounds to `mantissa * 2 ^ exponent`. -/
def readsBack (mantissa : Nat) (exponent : Int) (digits : Nat) (unit : Int) : Bool :=
  let r := roundingOf mantissa exponent
  let (p, q) := powerOfTen unit
  let (a, b) := powerOfTwo exponent
  let candidate := 4 * digits * p * b
  let low := (4 * mantissa - r.below) * a * q
  let high := (4 * mantissa + r.above) * a * q
  if r.closed then low ≤ candidate && candidate ≤ high else low < candidate && candidate < high

/-- Place of the leading decimal digit: the greatest `k` with `10 ^ k ≤ num / den`. -/
def leadingPlace (num den : Nat) : Int :=
  if den ≤ num then (digitCount (num / den) : Int) - 1
  else
    let quotient := den / num
    let places := digitCount quotient
    -- `10 ^ (places - 1) ≤ den / num`, so the place is `-places` or, for a power of ten, one more.
    if den ≤ num * Nat.pow 10 (places - 1) then 1 - (places : Int) else -(places : Int)

/-- The decimal of a given number of digits that reads back, if one does. -/
def decimalOfCount? (mantissa : Nat) (exponent : Int) (num den : Nat) (place : Int)
    (count : Nat) : Option Decimal :=
  let unit := place + 1 - count
  let (p, q) := powerOfTen unit
  let below := (num * q) / (den * p)
  let remainder := (num * q) % (den * p)
  let lower := readsBack mantissa exponent below unit
  let upper := readsBack mantissa exponent (below + 1) unit
  let preferLower := 2 * remainder < den * p || (2 * remainder == den * p && below % 2 == 0)
  if lower && (!upper || preferLower) then some ⟨below, unit⟩
  else if upper then some ⟨below + 1, unit⟩
  else none

/-- The first count of digits, of those still to try, whose decimal reads back. -/
def searchShortest (mantissa : Nat) (exponent : Int) (num den : Nat) (place : Int) :
    Nat → Nat → Decimal
  | 0, _ => ⟨mantissa, exponent⟩
  | tries + 1, count =>
    match decimalOfCount? mantissa exponent num den place count with
    | some d => d
    | none => searchShortest mantissa exponent num den place tries (count + 1)

/-- Shortest decimal of a positive number.  Seventeen digits always suffice. -/
def shortest (mantissa : Nat) (exponent : Int) : Decimal :=
  let (a, b) := powerOfTwo exponent
  let num := mantissa * a
  searchShortest mantissa exponent num b (leadingPlace num b) 17 1

/-- Removes zeros at the end of a digit text. -/
def trimZeros (digits : List Char) : List Char :=
  (digits.reverse.dropWhile (· == '0')).reverse

/-- Least and greatest place of a leading digit that is written without an exponent. -/
def positionalPlaces : Int × Int := (-4, 15)

/-- Text of a nonzero decimal: positional between the two places, otherwise with an exponent of
at least two digits and always a sign. -/
def renderDecimal (d : Decimal) : List Char :=
  let all := Nat.toDigits 10 d.digits
  let place : Int := d.exponent + all.length - 1
  let digits := trimZeros all
  if positionalPlaces.1 ≤ place && place ≤ positionalPlaces.2 then
    if place < 0 then
      ['0', '.'] ++ List.replicate (-place - 1).toNat '0' ++ digits
    else
      let whole := place.toNat + 1
      let fraction := digits.drop whole
      (digits.take whole ++ List.replicate (whole - digits.length) '0') ++
        '.' :: (if fraction.isEmpty then ['0'] else fraction)
  else
    let fraction := digits.drop 1
    let size := Nat.toDigits 10 place.natAbs
    digits.take 1 ++ (if fraction.isEmpty then [] else '.' :: fraction) ++
      ['e', if place < 0 then '-' else '+'] ++
      (if size.length < 2 then '0' :: size else size)

/-- Text of a number. -/
def render : Binary64 → List Char
  | .nan _ => "nan".toList
  | .infinite false => "inf".toList
  | .infinite true => "-inf".toList
  | .finite negative mantissa exponent =>
    (if negative then ['-'] else []) ++
      (if mantissa = 0 then "0.0".toList else renderDecimal (shortest mantissa exponent))

end Conformance.Binary64
