import Conformance.Text.Utf8
import Conformance.Yaml.Scalar.Quoted
import Conformance.Yaml.Token

/-!
# Names, tags and directives

The readers of what stands beside the content of a document: the names of anchors and aliases,
the tags of nodes, and directive lines.
-/

namespace Conformance.Yaml

/-- A character of a name. -/
def isNameChar (c : Char) : Bool :=
  Text.isAsciiDigit c || Text.isAsciiLower c || Text.isAsciiUpper c || c == '-' || c == '_'

/-- A character of the text of a tag. -/
def isTagChar (c : Char) : Bool :=
  isNameChar c || ";/?:@&=+$,.!~*\x27()[]%".toList.contains c

/-- A space or the end of a line. -/
def isSpaceOrBreak (c : Char) : Bool := c == ' ' || isBreak c

/-- A name, of at least one character. -/
def readName (c : Cursor) : Except Fault (String × Cursor) :=
  let name := c.run isNameChar
  if name.isEmpty then .error .yaml else .ok (String.ofList name, c.forward name.length)

/-- The name of an anchor or alias, which starts here with its mark. -/
def readAnchor (c : Cursor) : Except Fault (String × Cursor) := do
  let (name, c) ← readName c.next
  if endsOr (fun x => isGap x || "?:,]\x7d%@\x60".toList.contains x) c.rest then return (name, c)
  else throw .yaml

/-! ## Tags -/

/-- Bytes written as a percent sign and two hexadecimal digits each. -/
def percentBytes : Nat → Cursor → Except Fault (List UInt8 × Cursor)
  | 0, c => .ok ([], c)
  | fuel + 1, c =>
    match c.rest with
    | '%' :: a :: b :: _ =>
      if isHexDigit a && isHexDigit b then do
        let byte := UInt8.ofNat ((Integer.digits? 16 [a, b]).getD 0)
        let (bytes, c) ← percentBytes fuel (c.forward 3)
        return (byte :: bytes, c)
      else .error .yaml
    | '%' :: _ => .error .yaml
    | _ => .ok ([], c)

/-- The text of a tag up to its end, with percent signs decoded. -/
def tagTextFrom : Nat → Cursor → Except Fault Piece
  | 0, c => .ok ([], c)
  | fuel + 1, c =>
    match c.rest with
    | '%' :: _ => do
      let (bytes, c) ← percentBytes c.rest.length c
      match Text.utf8? bytes with
      | none => throw .yaml
      | some decoded =>
        let (rest, c) ← tagTextFrom fuel c
        return (decoded ++ rest, c)
    | x :: _ =>
      if isTagChar x then do
        let (rest, c) ← tagTextFrom fuel c.next
        return (x :: rest, c)
      else .ok ([], c)
    | [] => .ok ([], c)

/-- The text of a tag, of at least one character. -/
def readTagText (c : Cursor) : Except Fault (String × Cursor) := do
  if !startsIn isTagChar c.rest then throw .yaml
  let (text, c) ← tagTextFrom c.rest.length c
  return (String.ofList text, c)

/-- A tag handle: one mark, or a name between two marks. -/
def readHandle (c : Cursor) : Except Fault (String × Cursor) :=
  match c.rest with
  | '!' :: ' ' :: _ => .ok ("!", c.next)
  | '!' :: _ =>
    let name := c.next.run isNameChar
    let c := c.next.forward name.length
    if startsIn (· == '!') c.rest then .ok (String.ofList ('!' :: name ++ ['!']), c.next)
    else .error .yaml
  | _ => .error .yaml

/-- A second mark stands in the word that starts here. -/
def hasHandle (c : Cursor) : Bool := (c.next.run (fun x => !isSpaceOrBreak x)).contains '!'

/-- A tag, which starts here with its mark. -/
def readTag (c : Cursor) : Except Fault (WrittenTag × Cursor) := do
  let (tag, c) ← match c.rest with
    | '!' :: '<' :: _ => do
      let (text, c) ← readTagText (c.forward 2)
      if !startsIn (· == '>') c.rest then throw .yaml
      pure (WrittenTag.full text, c.next)
    | _ => do
      if endsOr isGap c.next.rest then pure (WrittenTag.full "!", c.next)
      else
        let (handle, c) ← if hasHandle c then readHandle c else pure ("!", c.next)
        let (suffix, c) ← readTagText c
        pure (WrittenTag.short handle suffix, c)
  if endsOr isSpaceOrBreak c.rest then return (tag, c) else throw .yaml

/-! ## Directives -/

/-- A number in decimal digits. -/
def readNumber (c : Cursor) : Except Fault (Nat × Cursor) :=
  let digits := c.run Text.isAsciiDigit
  match digits.isEmpty, Text.decimal? digits with
  | false, some n => .ok (n, c.forward digits.length)
  | _, _ => .error .yaml

/-- The version behind the name of a version directive. -/
def readVersion (c : Cursor) : Except Fault (Directive × Cursor) := do
  let (major, c) ← readNumber c.skipSpaces
  if !startsIn (· == '.') c.rest then throw .yaml
  let (_, c) ← readNumber c.next
  if !endsOr isSpaceOrBreak c.rest then throw .yaml
  return (.version major, c)

/-- The handle and its expansion behind the name of a tag directive. -/
def readExpansion (c : Cursor) : Except Fault (Directive × Cursor) := do
  let (handle, c) ← readHandle c.skipSpaces
  if !startsIn (· == ' ') c.rest then throw .yaml
  let (expansion, c) ← readTagText c.skipSpaces
  if !endsOr isSpaceOrBreak c.rest then throw .yaml
  return (.handle handle expansion, c)

/-- A directive, which starts here with its mark and ends with the line. -/
def readDirective (c : Cursor) : Except Fault (Directive × Cursor) := do
  let (name, c) ← readName c.next
  if !endsOr isSpaceOrBreak c.rest then throw .yaml
  let (directive, c) ←
    if name = "YAML" then readVersion c
    else if name = "TAG" then readExpansion c
    else pure (.other, c.skip (fun x => !isBreak x))
  let c := c.skipSpaces.skipComment
  if !endsOr isBreak c.rest then throw .yaml
  return (directive, c.skipBreak)

end Conformance.Yaml
