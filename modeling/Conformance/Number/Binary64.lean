import Conformance.Text.Class

/-!
# Binary floating-point numbers

The numbers of the 64-bit binary format as exact data: a sign, a whole significand and a power of
two.  No machine arithmetic is involved; an operation computes the exact rational result and
rounds it once, to the nearest number and on a tie to the even significand (`ofRatio`).

A number that is not a number keeps the place it comes from, because two of them count as the
same value in a list or mapping only if they come from the same place.
-/

namespace Conformance

/-- A number of the 64-bit binary format.  A finite one is `mantissa * 2 ^ exponent`. -/
inductive Binary64
  | finite (negative : Bool) (mantissa : Nat) (exponent : Int)
  | infinite (negative : Bool)
  | nan (origin : Nat)
deriving DecidableEq, Repr, Inhabited

namespace Binary64

/-- Smallest power of two of a significand. -/
def minExponent : Int := -1074

/-- Largest power of two of a significand. -/
def maxExponent : Int := 971

/-- Zero with a sign. -/
def zero (negative : Bool) : Binary64 := .finite negative 0 minExponent

/-- A ratio divided by a power of two, again as a ratio. -/
def scaleDown (num den : Nat) (exponent : Int) : Nat × Nat :=
  if exponent < 0 then (num * Nat.pow 2 (-exponent).toNat, den)
  else (num, den * Nat.pow 2 exponent.toNat)

/-- Nearest whole number to a ratio, the even one on a tie. -/
def nearestEven (num den : Nat) : Nat :=
  let q := num / den
  let r := num % den
  if 2 * r < den then q else if den < 2 * r then q + 1 else q + q % 2

/-- Power of two that puts a positive ratio between `2 ^ 52` and `2 ^ 53`, or the least power. -/
def exponentOf (num den : Nat) : Int :=
  let guess : Int := (Nat.log2 num : Int) - (Nat.log2 den : Int) - 52
  let scaled := scaleDown num den guess
  let exact := if scaled.1 < Nat.pow 2 52 * scaled.2 then guess - 1 else guess
  max exact minExponent

/-- The number nearest to a ratio with positive denominator. -/
def ofRatio (negative : Bool) (num den : Nat) : Binary64 :=
  if num = 0 then zero negative else
    let exponent := exponentOf num den
    let scaled := scaleDown num den exponent
    let q := nearestEven scaled.1 scaled.2
    let (q, exponent) := if q = Nat.pow 2 53 then (Nat.pow 2 52, exponent + 1) else (q, exponent)
    if maxExponent < exponent then .infinite negative else .finite negative q exponent

/-- The number nearest to a whole number. -/
def ofInt (i : Int) : Binary64 := ofRatio (i < 0) i.natAbs 1

/-- The number nearest to `digits * 10 ^ exponent`.  Exponents far outside the format are
decided without computing the power. -/
def ofDecimal (negative : Bool) (digits : Nat) (exponent : Int) : Binary64 :=
  if digits = 0 then zero negative
  else
    let magnitude : Int := exponent + (Nat.log2 digits : Int) / 3
    if 400 < exponent then .infinite negative
    else if magnitude < -800 then zero negative
    else if exponent < 0 then ofRatio negative digits (Nat.pow 10 (-exponent).toNat)
    else ofRatio negative (digits * Nat.pow 10 exponent.toNat) 1

/-- Significand with its sign. -/
def signed (negative : Bool) (mantissa : Nat) : Int :=
  if negative then -(mantissa : Int) else mantissa

/-- Equality of two scaled significands. -/
def equalScaled (a : Int) (ea : Int) (b : Int) (eb : Int) : Bool :=
  let low := min ea eb
  a * (Nat.pow 2 (ea - low).toNat : Nat) == b * (Nat.pow 2 (eb - low).toNat : Nat)

/-- Numeric equality: the zeros are equal, and nothing equals a number that is not one. -/
def equal : Binary64 → Binary64 → Bool
  | .finite s m e, .finite s' m' e' => equalScaled (signed s m) e (signed s' m') e'
  | .infinite s, .infinite s' => s == s'
  | _, _ => false

/-- Numeric equality with a whole number. -/
def equalInt : Binary64 → Int → Bool
  | .finite s m e, i => equalScaled (signed s m) e i 0
  | _, _ => false

/-- The same value, or both from the same place. -/
def same : Binary64 → Binary64 → Bool
  | .nan a, .nan b => a == b
  | a, b => equal a b

/-- Negation. -/
def neg : Binary64 → Binary64
  | .finite s m e => .finite (!s) m e
  | .infinite s => .infinite (!s)
  | .nan o => .nan o

/-- Number nearest to a whole number times a power of two.  The sign is used for zero. -/
def ofScaled (negativeZero : Bool) (m : Int) (exponent : Int) : Binary64 :=
  if m = 0 then zero negativeZero
  else if exponent < 0 then ofRatio (m < 0) m.natAbs (Nat.pow 2 (-exponent).toNat)
  else ofRatio (m < 0) (m.natAbs * Nat.pow 2 exponent.toNat) 1

/-- Rounded sum. -/
def add : Binary64 → Binary64 → Binary64
  | .nan o, _ => .nan o
  | _, .nan o => .nan o
  | .infinite s, .infinite s' => if s == s' then .infinite s else .nan 0
  | .infinite s, _ => .infinite s
  | _, .infinite s => .infinite s
  | .finite s m e, .finite s' m' e' =>
    let low := min e e'
    ofScaled (s && s')
      (signed s m * (Nat.pow 2 (e - low).toNat : Nat) +
        signed s' m' * (Nat.pow 2 (e' - low).toNat : Nat)) low

/-- Rounded product. -/
def mul : Binary64 → Binary64 → Binary64
  | .nan o, _ => .nan o
  | _, .nan o => .nan o
  | .infinite s, .finite s' m _ => if m = 0 then .nan 0 else .infinite (s != s')
  | .finite s m _, .infinite s' => if m = 0 then .nan 0 else .infinite (s != s')
  | .infinite s, .infinite s' => .infinite (s != s')
  | .finite s m e, .finite s' m' e' => ofScaled (s != s') (signed s m * signed s' m') (e + e')

/-- Sign and rest of a text that may start with a sign. -/
def readSign : List Char → Bool × List Char
  | '-' :: rest => (true, rest)
  | '+' :: rest => (false, rest)
  | rest => (false, rest)

/-- Exponent part of a written decimal: nothing, or `e`, an optional sign and digits. -/
def readExponent? : List Char → Option Int
  | [] => some 0
  | c :: rest =>
    if c == 'e' || c == 'E' then
      let (negative, digits) := readSign rest
      if digits.isEmpty || !digits.all Text.isAsciiDigit then none
      else (Text.decimal? digits).map fun n => if negative then -(n : Int) else n
    else none

/-- An unsigned written decimal: digits with an optional point and an optional exponent. -/
def readUnsigned? (negative : Bool) (cs : List Char) : Option Binary64 :=
  let whole := cs.takeWhile Text.isAsciiDigit
  let rest := cs.dropWhile Text.isAsciiDigit
  let (fraction, rest) := match rest with
    | '.' :: rest => (rest.takeWhile Text.isAsciiDigit, rest.dropWhile Text.isAsciiDigit)
    | rest => ([], rest)
  if whole.isEmpty && fraction.isEmpty then none else do
    let exponent ← readExponent? rest
    let digits ← Text.decimal? (whole ++ fraction)
    return ofDecimal negative digits (exponent - fraction.length)

/-- A written decimal with an optional sign. -/
def read? (cs : List Char) : Option Binary64 :=
  let (negative, rest) := readSign cs
  readUnsigned? negative rest

end Binary64

end Conformance
