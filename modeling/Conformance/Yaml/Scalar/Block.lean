import Conformance.Yaml.Scalar.Quoted

/-!
# Block scalars

Indented text behind a mark: `|` keeps its line breaks, `>` folds them.  The header may tell how
far the text is indented and what becomes of the line breaks at its end.
-/

namespace Conformance.Yaml

/-- What becomes of the line breaks at the end of a block scalar. -/
inductive Chomping
  | clip
  | strip
  | keep
deriving DecidableEq, Repr, Inhabited

/-- Header of a block scalar. -/
structure BlockHeader where
  chomping : Chomping
  /-- How far the text is indented against its parent, if told. -/
  increment : Option Nat
deriving DecidableEq, Repr, Inhabited

/-- The chomping that a sign asks for. -/
def chompingOf? : Char → Option Chomping
  | '+' => some .keep
  | '-' => some .strip
  | _ => none

/-- The sign that may stand here. -/
def readChomping (c : Cursor) : Option Chomping × Cursor :=
  match c.rest.head?.bind chompingOf? with
  | some chomping => (some chomping, c.next)
  | none => (none, c)

/-- The digit that may stand here; it must not be zero. -/
def readIncrement (c : Cursor) : Except Fault (Option Nat × Cursor) :=
  match c.rest with
  | x :: _ =>
    if !Text.isAsciiDigit x then .ok (none, c)
    else if x == '0' then .error .yaml
    else .ok (some (x.toNat - '0'.toNat), c.next)
  | [] => .ok (none, c)

/-- The header: a sign and a digit in either order, then nothing but a comment. -/
def readHeader (c : Cursor) : Except Fault (BlockHeader × Cursor) := do
  let (before, c) := readChomping c
  let (increment, c) ← readIncrement c
  let (chomping, c) := match before with
    | some chomping => (some chomping, c)
    | none => if increment.isSome then readChomping c else (none, c)
  if !endsOr (fun x => x == ' ' || isBreak x) c.rest then throw .yaml
  let c := c.skipSpaces.skipComment
  if !endsOr isBreak c.rest then throw .yaml
  return (⟨chomping.getD .clip, increment⟩, c.skipBreak)

/-- Empty lines in front of the text, with the greatest column that spaces reach. -/
def blockStart : Nat → Nat → Cursor → Piece × Nat
  | 0, column, c => (([], c), column)
  | fuel + 1, column, c =>
    let c := c.skipSpaces
    let column := max column c.column
    match c.lineBreak? with
    | none => (([], c), column)
    | some (b, c) =>
      let ((breaks, c), column) := blockStart fuel column c
      ((b :: breaks, c), column)

/-- The place after spaces, but not beyond a column. -/
def skipIndent : Nat → Nat → Cursor → Cursor
  | 0, _, c => c
  | fuel + 1, indent, c =>
    if c.column < indent && startsIn (· == ' ') c.rest then skipIndent fuel indent c.next else c

/-- Empty lines between lines of the text, and the place where the next one starts. -/
def blockBreaks (indent : Nat) : Nat → Cursor → Piece
  | 0, c => ([], c)
  | fuel + 1, c =>
    let c := skipIndent indent indent c
    match c.lineBreak? with
    | none => ([], c)
    | some (b, c) =>
      let (breaks, c) := blockBreaks indent fuel c
      (b :: breaks, c)

/-- What stands between two lines of a block scalar: a folded break between lines that start
with no blank counts as a space, unless empty lines follow it. -/
def lineJoint (folded : Bool) (line next : List Char) (first : Char) (breaks : List Char) :
    List Char :=
  if folded && first == '\n' && !startsIn isBlank line && !startsIn isBlank next then
    if breaks.isEmpty then [' '] else []
  else [first]

/-- What is left of the line breaks at the end of the text. -/
def chomped (chomping : Chomping) (last : Option Char) (breaks : List Char) : List Char :=
  match chomping with
  | .strip => []
  | .clip => last.toList
  | .keep => last.toList ++ breaks

/-- The lines of a block scalar from here on, with the empty lines in front of them. -/
def blockLines (folded : Bool) (chomping : Chomping) (indent : Nat) :
    Nat → Option Char → Piece → Piece
  | 0, _, start => start
  | fuel + 1, last, (breaks, c) =>
    if c.column != indent || c.rest.isEmpty then (chomped chomping last breaks, c)
    else
      let line := c.run (fun x => !isBreak x)
      let c := c.forward line.length
      let (last, after) := match c.lineBreak? with
        | some (b, c) => (some b, c)
        | none => (none, c)
      let next := blockBreaks indent after.rest.length after
      let joint := match last with
        | some first =>
          if next.2.column == indent && !next.2.rest.isEmpty then
            lineJoint folded line next.2.rest first next.1
          else []
        | none => []
      let (rest, c) := blockLines folded chomping indent fuel last next
      (breaks ++ line ++ joint ++ rest, c)

/-- A block scalar, which starts here with its mark, inside a block whose content stands at a
column of at least `least`. -/
def readBlock (least : Nat) (c : Cursor) : Except Fault Piece := do
  let folded := startsIn (· == '>') c.rest
  let (header, c) ← readHeader c.next
  let least := max least 1
  let (start, indent) := match header.increment with
    | some n => (blockBreaks (least + n - 1) c.rest.length c, least + n - 1)
    | none =>
      let (start, column) := blockStart c.rest.length 0 c
      (start, max least column)
  return blockLines folded header.chomping indent (c.rest.length + 1) none start

end Conformance.Yaml
