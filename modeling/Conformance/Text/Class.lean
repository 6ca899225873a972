import Conformance.Text.ClassTable

/-!
# Character classes

The classes that names, path segments, trimming and quoting depend on.  Each class decides ASCII
by a rule of its own and leaves the other code points to a table, so that facts about ASCII
names never touch the tables.
-/

namespace Conformance.Text

/-- A decimal digit of ASCII. -/
def isAsciiDigit (c : Char) : Bool := '0' ≤ c && c ≤ '9'

/-- A lower-case letter of ASCII. -/
def isAsciiLower (c : Char) : Bool := 'a' ≤ c && c ≤ 'z'

/-- An upper-case letter of ASCII. -/
def isAsciiUpper (c : Char) : Bool := 'A' ≤ c && c ≤ 'Z'

/-- A letter in upper case. -/
def isCapital (c : Char) : Bool :=
  if c.toNat < 128 then isAsciiUpper c else inRuns ClassTable.capitals c.toNat

/-- A character in lower case. -/
def isLower (c : Char) : Bool :=
  if c.toNat < 128 then isAsciiLower c else inRuns ClassTable.lowers c.toNat

/-- Value of a decimal digit of any script. -/
def decimalValue? (c : Char) : Option Nat :=
  if c.toNat < 128 then
    if isAsciiDigit c then some (c.toNat - '0'.toNat) else none
  else
    (ClassTable.zeros.find? (fun zero => zero ≤ c.toNat && c.toNat < zero + 10)).map
      (fun zero => c.toNat - zero)

/-- A digit: a decimal digit of any script, or one that stands in no decimal block. -/
def isDigit (c : Char) : Bool :=
  (decimalValue? c).isSome || (128 ≤ c.toNat && inRuns ClassTable.loneDigits c.toNat)

/-- A character that quoted text shows as itself. -/
def isPrintable (c : Char) : Bool :=
  if c.toNat < 128 then 32 ≤ c.toNat && c.toNat < 127
  else !inRuns ClassTable.unprintable c.toNat

/-- White space: the characters that trimming removes. -/
def isBlank (c : Char) : Bool :=
  let n := c.toNat
  (9 ≤ n && n ≤ 13) || (28 ≤ n && n ≤ 32) || n == 133 || n == 160 || n == 5760 ||
    (8192 ≤ n && n ≤ 8202) || n == 8232 || n == 8233 || n == 8239 || n == 8287 || n == 12288

/-- Text without white space at its start. -/
def trimLeft (cs : List Char) : List Char := cs.dropWhile isBlank

/-- Text without white space at its end. -/
def trimRight (cs : List Char) : List Char := (cs.reverse.dropWhile isBlank).reverse

/-- Text without white space at either end. -/
def trim (cs : List Char) : List Char := trimRight (trimLeft cs)

/-- A text of digits only, and at least one. -/
def isNumeral (cs : List Char) : Bool := !cs.isEmpty && cs.all isDigit

/-- Value of a text of decimal digits, however many there are; nothing if some digit has no
decimal value. -/
def decimal? (cs : List Char) : Option Nat :=
  cs.foldl (fun acc c => acc.bind fun n => (decimalValue? c).map fun d => 10 * n + d) (some 0)

end Conformance.Text
