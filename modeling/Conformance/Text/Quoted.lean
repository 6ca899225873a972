import Conformance.Text.Class

/-!
# Quoted text

The notation in which messages show texts and byte strings: between quotes, with escapes for the
quote, the backslash and everything that is not printable.  Text that contains a single quote and
no double quote stands between double quotes, all other text between single quotes.
-/

namespace Conformance.Text

/-- Hexadecimal digits of a number, in lower case, up to a width. -/
def hexPadded (width n : Nat) : List Char :=
  let digits := Nat.toDigits 16 n
  List.replicate (width - digits.length) '0' ++ digits

/-- The quote that encloses a text. -/
def enclosingQuote (cs : List Char) : Char :=
  if cs.contains '\x27' && !cs.contains '"' then '"' else '\x27'

/-- One character of a text between given quotes. -/
def quotedChar (quote c : Char) : List Char :=
  if c == quote || c == '\\' then ['\\', c]
  else if c == '\n' then ['\\', 'n']
  else if c == '\r' then ['\\', 'r']
  else if c == '\t' then ['\\', 't']
  else if isPrintable c then [c]
  else if c.toNat < 256 then '\\' :: 'x' :: hexPadded 2 c.toNat
  else if c.toNat < 65536 then '\\' :: 'u' :: hexPadded 4 c.toNat
  else '\\' :: 'U' :: hexPadded 8 c.toNat

/-- A text between quotes. -/
def quoted (cs : List Char) : List Char :=
  let quote := enclosingQuote cs
  quote :: cs.flatMap (quotedChar quote) ++ [quote]

/-- One byte of a byte string between given quotes. -/
def quotedByte (quote : Char) (b : UInt8) : List Char :=
  let c := Char.ofNat b.toNat
  if c == quote || c == '\\' then ['\\', c]
  else if c == '\n' then ['\\', 'n']
  else if c == '\r' then ['\\', 'r']
  else if c == '\t' then ['\\', 't']
  else if 32 ≤ b.toNat && b.toNat < 127 then [c]
  else '\\' :: 'x' :: hexPadded 2 b.toNat

/-- A byte string between quotes, marked with a `b`. -/
def quotedBytes (bytes : List UInt8) : List Char :=
  let quote := enclosingQuote (bytes.map fun b => Char.ofNat b.toNat)
  'b' :: quote :: bytes.flatMap (quotedByte quote) ++ [quote]

end Conformance.Text
