/-!
# Places in a text

A cursor is a place in a text: the characters from there on, and how many characters, lines and
columns lie before it.  A line ends at a line feed, a carriage return, both in this order, a next
line, a line separator or a paragraph separator.
-/

namespace Conformance.Yaml

/-- A character that ends a line. -/
def isBreak (c : Char) : Bool :=
  c == '\n' || c == '\r' || c == '\x85' || c == '\u2028' || c == '\u2029'

/-- A space or a tab. -/
def isBlank (c : Char) : Bool := c == ' ' || c == '\t'

/-- A space, a tab or a character that ends a line. -/
def isGap (c : Char) : Bool := isBlank c || isBreak c

/-- The mark at the start of a text that tells the order of bytes.  It takes no column. -/
def byteOrderMark : Char := '\uFEFF'

/-- The text ends here or goes on with a character of a class. -/
def endsOr (members : Char → Bool) : List Char → Bool
  | [] => true
  | c :: _ => members c

/-- The text goes on with a character of a class. -/
def startsIn (members : Char → Bool) : List Char → Bool
  | [] => false
  | c :: _ => members c

/-- A place in a text. -/
structure Cursor where
  rest : List Char
  index : Nat
  line : Nat
  column : Nat
deriving Repr, Inhabited

namespace Cursor

/-- The start of a text. -/
def ofText (text : List Char) : Cursor := ⟨text, 0, 0, 0⟩

/-- The place after the next character. -/
def next (c : Cursor) : Cursor :=
  match c.rest with
  | [] => c
  | '\r' :: '\n' :: rest => ⟨'\n' :: rest, c.index + 1, c.line, c.column + 1⟩
  | x :: rest =>
    if isBreak x then ⟨rest, c.index + 1, c.line + 1, 0⟩
    else ⟨rest, c.index + 1, c.line, if x == byteOrderMark then c.column else c.column + 1⟩

/-- The place a number of characters further on. -/
def forward (c : Cursor) : Nat → Cursor
  | 0 => c
  | n + 1 => c.next.forward n

/-- The characters of a class from here on. -/
def run (c : Cursor) (members : Char → Bool) : List Char := c.rest.takeWhile members

/-- The place after the characters of a class. -/
def skip (c : Cursor) (members : Char → Bool) : Cursor := c.forward (c.run members).length

/-- The place after spaces. -/
def skipSpaces (c : Cursor) : Cursor := c.skip (· == ' ')

/-- The line break that stands here and the place after it.  All but the separators count as a
line feed. -/
def lineBreak? (c : Cursor) : Option (Char × Cursor) :=
  match c.rest with
  | '\r' :: '\n' :: _ => some ('\n', c.forward 2)
  | x :: _ =>
    if x == '\u2028' || x == '\u2029' then some (x, c.next)
    else if isBreak x then some ('\n', c.next)
    else none
  | [] => none

/-- The place after a line break, if one stands here. -/
def skipBreak (c : Cursor) : Cursor := (c.lineBreak?.map (·.2)).getD c

/-- The place after a comment, if one stands here. -/
def skipComment (c : Cursor) : Cursor :=
  if startsIn (· == '#') c.rest then c.skip (fun x => !isBreak x) else c

/-- Three marks stand here alone. -/
def standsMark (mark : Char) (c : Cursor) : Bool :=
  match c.rest with
  | a :: b :: d :: rest => a == mark && b == mark && d == mark && endsOr isGap rest
  | _ => false

/-- The mark of the start of a document or of its end stands here. -/
def standsSeparator (c : Cursor) : Bool := c.standsMark '-' || c.standsMark '.'

end Cursor

end Conformance.Yaml
