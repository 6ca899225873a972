import Conformance.Text.Quoted

/-!
# JSON strings

A JSON string literal escapes the quote, the backslash and the control characters below the
blank, five of them by letters, and leaves every other character as it is.
-/

namespace Conformance.Text

/-- One character inside a JSON string literal. -/
def jsonChar (c : Char) : List Char :=
  if c == '"' then ['\\', '"']
  else if c == '\\' then ['\\', '\\']
  else if c == '\n' then ['\\', 'n']
  else if c == '\r' then ['\\', 'r']
  else if c == '\t' then ['\\', 't']
  else if c == '\x08' then ['\\', 'b']
  else if c == '\x0c' then ['\\', 'f']
  else if c.toNat < 32 then '\\' :: 'u' :: hexPadded 4 c.toNat
  else [c]

/-- JSON string literal of a text. -/
def json (cs : List Char) : List Char := '"' :: cs.flatMap jsonChar ++ ['"']

end Conformance.Text
