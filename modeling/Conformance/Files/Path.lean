import Conformance.Text.Split

/-!
# Paths

A path is a list of names from a start.  Empty names and names of one dot lead nowhere and are
left out; a name of two dots is kept, because what it leads to is known only where the path is
followed.  Reading what `Path.render` writes gives the path back.
-/

namespace Conformance

/-- Where a path starts: where one is, at the root, or at the root written with two slashes, which
is kept apart. -/
inductive PathStart
  | relative
  | root
  | doubleRoot
deriving DecidableEq, Repr, Inhabited

/-- Names from a start. -/
structure Path where
  start : PathStart
  names : List String
deriving DecidableEq, Repr, Inhabited

namespace Path

/-- Start of a text of slashes and names. -/
def startOf : List Char → PathStart
  | '/' :: '/' :: '/' :: _ => .root
  | '/' :: '/' :: _ => .doubleRoot
  | '/' :: _ => .root
  | _ => .relative

/-- A name that leads somewhere. -/
def isStep (name : List Char) : Bool := name != [] && name != ['.']

/-- The path of a text. -/
def ofText (text : String) : Path :=
  ⟨startOf text.toList, ((Text.splitOn '/' text.toList).filter isStep).map String.ofList⟩

/-- How a start is written. -/
def startText : PathStart → String
  | .relative => ""
  | .root => "/"
  | .doubleRoot => "//"

/-- A path as text.  The path that leads nowhere is a dot. -/
def render (p : Path) : String :=
  if p.start = .relative && p.names.isEmpty then "."
  else startText p.start ++ "/".intercalate p.names

/-- A path that does not depend on where one is. -/
def isAbsolute (p : Path) : Bool := p.start != .relative

/-- A path seen from another: itself if it is absolute. -/
def join (base p : Path) : Path :=
  if p.isAbsolute then p else ⟨base.start, base.names ++ p.names⟩

/-- The path of a name in a directory. -/
def child (p : Path) (name : String) : Path := ⟨p.start, p.names ++ [name]⟩

/-- Last name of a path. -/
def name (p : Path) : String := p.names.getLast?.getD ""

end Path

end Conformance
