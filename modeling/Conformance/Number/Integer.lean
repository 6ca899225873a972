import Conformance.Text.Class

/-!
# Written whole numbers

Whole numbers in a base from 2 to 36: an optional sign, an optional mark of the base, and digits,
with white space around them.  The decimal digits of every script count as digits.
-/

namespace Conformance.Integer

/-- Value of a digit: a decimal digit of any script, or a letter of ASCII. -/
def digitValue? (c : Char) : Option Nat :=
  if Text.isAsciiLower c then some (c.toNat - 'a'.toNat + 10)
  else if Text.isAsciiUpper c then some (c.toNat - 'A'.toNat + 10)
  else Text.decimalValue? c

/-- Value of one more digit. -/
def step? (base : Nat) (n : Nat) (c : Char) : Option Nat := do
  let d ← digitValue? c
  if d < base then some (base * n + d) else none

/-- Value of digits, of which there is at least one. -/
def digits? (base : Nat) (cs : List Char) : Option Nat :=
  if cs.isEmpty then none
  else cs.foldl (fun acc c => acc.bind fun n => step? base n c) (some 0)

/-- Letter that marks a base behind a zero. -/
def markOf : Nat → List Char
  | 2 => ['b', 'B']
  | 8 => ['o', 'O']
  | 16 => ['x', 'X']
  | _ => []

/-- Digits without the mark of their base. -/
def withoutMark (base : Nat) : List Char → List Char
  | '0' :: c :: rest => if (markOf base).contains c then rest else '0' :: c :: rest
  | cs => cs

/-- A written whole number. -/
def read? (base : Nat) (cs : List Char) : Option Int :=
  let unsigned := fun cs => (digits? base (withoutMark base cs)).map Int.ofNat
  match Text.trim cs with
  | '-' :: rest => (unsigned rest).map (- ·)
  | '+' :: rest => unsigned rest
  | cs => unsigned cs

end Conformance.Integer
