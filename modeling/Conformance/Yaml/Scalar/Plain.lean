import Conformance.Yaml.Scalar.Quoted

/-!
# Plain scalars

Text without quotes.  It ends before a colon that a gap follows, before a comment, and inside
flow collections before their marks; it goes on over line breaks as long as the lines are
indented.  Line breaks fold as in quoted scalars.
-/

namespace Conformance.Yaml

/-- A mark that ends a plain scalar inside a flow collection. -/
def isFlowMark (c : Char) : Bool := [',', '?', '[', ']', '\x7b', '\x7d'].contains c

/-- A character that ends a plain scalar if it stands behind a colon. -/
def endsBehindColon (flow : Bool) (c : Char) : Bool := isGap c || (flow && isFlowMark c && c != '?')

/-- The characters of a plain scalar up to the next gap or its end. -/
def plainRun (flow : Bool) : List Char → List Char
  | [] => []
  | c :: rest =>
    if isGap c || (c == ':' && endsOr (endsBehindColon flow) rest) || (flow && isFlowMark c) then []
    else c :: plainRun flow rest

/-- Line breaks and spaces; nothing if the mark of a document stands behind one of the breaks. -/
def plainBreaks : Nat → Cursor → Option (List Char) × Cursor
  | 0, c => (some [], c)
  | fuel + 1, c =>
    if c.standsSeparator then (none, c)
    else
      let c := c.skipSpaces
      match c.lineBreak? with
      | none => (some [], c)
      | some (b, c) =>
        let (breaks, c) := plainBreaks fuel c
        (breaks.map (b :: ·), c)

/-- What stands between two runs: its content, the place after it, and whether a line ended. -/
structure PlainGap where
  text : List Char
  after : Cursor
  broken : Bool

/-- The gap that starts here. -/
def plainGap (c : Cursor) : PlainGap :=
  let spaces := c.run (· == ' ')
  let c := c.skipSpaces
  match c.lineBreak? with
  | none => ⟨spaces, c, false⟩
  | some (first, c) =>
    match plainBreaks c.rest.length c with
    | (some others, c) => ⟨foldBreaks first others, c, true⟩
    | (none, c) => ⟨[], c, true⟩

/-- A plain scalar as read: its content, the place after it and after the gap behind it, and
whether a line ended in that gap. -/
structure PlainScalar where
  text : List Char
  after : Cursor
  broken : Bool

/-- The rest of a plain scalar behind a gap. -/
def plainFrom (flow : Bool) (indent : Nat) : Nat → PlainGap → PlainScalar
  | 0, gap => ⟨[], gap.after, gap.broken⟩
  | fuel + 1, gap =>
    let c := gap.after
    let run := plainRun flow c.rest
    if startsIn (· == '#') c.rest || run.isEmpty then ⟨[], c, gap.broken⟩
    else
      let text := gap.text ++ run
      let next := plainGap (c.forward run.length)
      let ends := next.text.isEmpty || startsIn (· == '#') next.after.rest ||
        (!flow && next.after.column < indent)
      if ends then ⟨text, next.after, next.broken⟩
      else
        let rest := plainFrom flow indent fuel next
        { rest with text := text ++ rest.text }

/-- A plain scalar, which starts here.  Outside flow collections its lines stand at a column of
at least `indent`. -/
def readPlain (flow : Bool) (indent : Nat) (c : Cursor) : PlainScalar :=
  plainFrom flow indent (c.rest.length + 1) ⟨[], c, false⟩

end Conformance.Yaml
