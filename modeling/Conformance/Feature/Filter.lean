import Conformance.Text.Class
import Conformance.Text.Split

/-!
# Target filters

A filter is a list of target names between bars, such as `py|rb`.  It keeps a feature for the
named targets only; with `!` in front it keeps the feature for all other targets.
-/

namespace Conformance.Filter

/-- The filter names the targets to leave out. -/
def isNegated (tags : List Char) : Bool := tags.head? == some '!'

/-- Target names of a filter. -/
def names (tags : List Char) : List (List Char) :=
  ((Text.splitOn '|' (tags.dropWhile (· == '!'))).map Text.trim).filter (fun name => !name.isEmpty)

/-- The filter excludes a target. -/
def skips (tags : List Char) (target : String) : Bool :=
  let named := (names tags).contains target.toList
  if isNegated tags then named else !named

/-- An optional filter excludes a target. -/
def skips? (tags : Option (List Char)) (target : String) : Bool :=
  match tags with
  | none => false
  | some tags => skips tags target

end Conformance.Filter
