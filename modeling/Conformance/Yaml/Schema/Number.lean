import Conformance.Fault
import Conformance.Number.Integer
import Conformance.Text.Case
import Conformance.Text.Split

/-!
# Values of numbers

A whole number is read by the mark of its base; parts between colons are its digits in base
sixty.  Underscores separate groups of digits and count for nothing.
-/

namespace Conformance.Yaml

/-- Sign of a written number and the rest of it. -/
def signOf : List Char → Bool × List Char
  | '-' :: rest => (true, rest)
  | '+' :: rest => (false, rest)
  | cs => (false, cs)

/-- A whole number in a base. -/
def inBase (base : Nat) (cs : List Char) : Except Fault Int :=
  match Integer.read? base cs with
  | some i => .ok i
  | none => .error (.notInteger base (String.ofList cs))

/-- A whole number without its sign. -/
def magnitude : List Char → Except Fault Int
  | [] => .error .noCharacters
  | ['0'] => .ok 0
  | '0' :: 'b' :: rest => inBase 2 rest
  | '0' :: 'x' :: rest => inBase 16 rest
  | '0' :: rest => inBase 8 ('0' :: rest)
  | cs => do
    let parts ← (Text.splitOn ':' cs).mapM (inBase 10)
    return parts.foldl (fun n part => 60 * n + part) 0

/-- The whole number of a text. -/
def readInt (text : List Char) : Except Fault Int :=
  match text.filter (· != '_') with
  | [] => .error .noCharacters
  | cs =>
    let (negative, rest) := signOf cs
    (magnitude rest).map fun n => if negative then -n else n

/-- Texts for numbers that have no digits. -/
def wordFloat? (negative : Bool) (word : String) : Option Binary64 :=
  if word = "inf" || word = "infinity" then some (.infinite negative)
  else if word = "nan" then some (.nan 0)
  else none

/-- The text with the decimal digits of every script as digits of ASCII. -/
def asciiDigits (cs : List Char) : List Char :=
  cs.map fun c => match Text.decimalValue? c with
    | some d => Char.ofNat ('0'.toNat + d)
    | none => c

/-- A number in decimal notation, or a word for one without digits. -/
def readDecimal (cs : List Char) : Except Fault Binary64 :=
  let trimmed := asciiDigits (Text.trim cs)
  let (negative, rest) := signOf trimmed
  match (wordFloat? negative (String.ofList rest)).or (Binary64.read? trimmed) with
  | some x => .ok x
  | none => .error (.notNumber (String.ofList cs))

/-- Sum of digits in base sixty, from the last one on. -/
def sixtySum (base : Nat) (total : Binary64) : List Binary64 → Binary64
  | [] => total
  | d :: ds => sixtySum (60 * base) (total.add (d.mul (.ofInt base))) ds

/-- A number without its sign. -/
def floatMagnitude (cs : List Char) : Except Fault Binary64 :=
  if cs = ".inf".toList then .ok (.infinite false)
  else if cs = ".nan".toList then .ok (.nan 0)
  else if cs.contains ':' then do
    let parts ← (Text.splitOn ':' cs).mapM readDecimal
    return sixtySum 1 (.zero false) parts.reverse
  else readDecimal cs

/-- The number of a text. -/
def readFloat (text : List Char) : Except Fault Binary64 :=
  match Text.lower (text.filter (· != '_')) with
  | [] => .error .noCharacters
  | cs =>
    let (negative, rest) := signOf cs
    (floatMagnitude rest).map fun x => if negative then x.neg else x

end Conformance.Yaml
