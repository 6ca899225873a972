import Conformance.Fault
import Conformance.Number.Integer
import Conformance.Yaml.Cursor

/-!
# Quoted scalars

Text between quotes.  Between single quotes the quote itself is written twice; between double
quotes a backslash starts an escape.  Blanks around a line break are dropped, a line break alone
counts as a space, and each further one as itself.
-/

namespace Conformance.Yaml

/-- What a reader of a scalar gives: characters and the place after them. -/
abbrev Piece := List Char × Cursor

/-- Characters that an escape of one letter stands for. -/
def escapes : List (Char × Char) :=
  [('0', '\x00'), ('a', '\x07'), ('b', '\x08'), ('t', '\t'), ('\t', '\t'), ('n', '\n'),
   ('v', '\x0b'), ('f', '\x0c'), ('r', '\r'), ('e', '\x1b'), (' ', ' '), ('"', '"'),
   ('\\', '\\'), ('/', '/'), ('N', '\x85'), ('_', '\xa0'), ('L', '\u2028'), ('P', '\u2029')]

/-- Number of hexadecimal digits behind the letter of a numeric escape. -/
def escapeWidth? : Char → Option Nat
  | 'x' => some 2
  | 'u' => some 4
  | 'U' => some 8
  | _ => none

/-- A hexadecimal digit. -/
def isHexDigit (c : Char) : Bool := c.toNat < 128 && (Integer.step? 16 0 c).isSome

/-- The character of a code. -/
def charOfCode (code : Nat) : Except Fault Char :=
  if 0x110000 ≤ code then .error .escapeRange else .ok (Char.ofNat code)

/-- The character of a numeric escape with a number of digits. -/
def readCode (width : Nat) (c : Cursor) : Except Fault Piece := do
  let digits := c.rest.take width
  if digits.length < width || !digits.all isHexDigit then throw .yaml
  let code := (Integer.digits? 16 digits).getD 0
  return ([← charOfCode code], c.forward width)

/-- Line breaks with blanks around them. -/
def quotedBreaks : Nat → Cursor → Except Fault Piece
  | 0, c => .ok ([], c)
  | fuel + 1, c => do
    if c.standsSeparator then throw .yaml
    let c := c.skip isBlank
    match c.lineBreak? with
    | none => return ([], c)
    | some (b, c) =>
      let (breaks, c) ← quotedBreaks fuel c
      return (b :: breaks, c)

/-- The content of a line break and of those that follow it. -/
def foldBreaks (first : Char) (others : List Char) : List Char :=
  if first != '\n' then first :: others else if others.isEmpty then [' '] else others

/-- Blanks or line breaks inside quotes. -/
def quotedGap (c : Cursor) : Except Fault Piece := do
  let blanks := c.run isBlank
  let c := c.skip isBlank
  match c.rest, c.lineBreak? with
  | [], _ => throw .yaml
  | _, none => return (blanks, c)
  | _, some (first, c) =>
    let (others, c) ← quotedBreaks c.rest.length c
    return (foldBreaks first others, c)

/-- The character or line break behind a backslash. -/
def readEscape (c : Cursor) : Except Fault Piece :=
  match c.rest with
  | [] => .error .yaml
  | x :: _ =>
    match escapes.find? (fun e => e.1 == x), escapeWidth? x, c.lineBreak? with
    | some (_, y), _, _ => .ok ([y], c.next)
    | none, some width, _ => readCode width c.next
    | none, none, some (_, c) => quotedBreaks c.rest.length c
    | none, none, none => .error .yaml

/-- The rest of a text up to its closing quote. -/
def quotedFrom (double : Bool) : Nat → Cursor → Except Fault Piece
  | 0, _ => .error .yaml
  | fuel + 1, c => do
    let go := fun (piece : Piece) => do
      let (cs, c) ← quotedFrom double fuel piece.2
      return (piece.1 ++ cs, c)
    match c.rest with
    | [] => throw .yaml
    | '\x27' :: '\x27' :: _ => go (if double then (['\x27'], c.next) else (['\x27'], c.forward 2))
    | '\x27' :: _ => if double then go (['\x27'], c.next) else return ([], c.next)
    | '"' :: _ => if double then return ([], c.next) else go (['"'], c.next)
    | '\\' :: _ => if double then go (← readEscape c.next) else go (['\\'], c.next)
    | x :: _ => if isGap x then go (← quotedGap c) else go ([x], c.next)

/-- A quoted scalar, which starts here with its quote. -/
def readQuoted (c : Cursor) : Except Fault Piece :=
  quotedFrom (startsIn (· == '"') c.rest) (c.rest.length + 1) c.next

end Conformance.Yaml
