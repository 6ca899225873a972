import Conformance.Data.Value

/-!
# Data

A value as it is at one moment, with the content of lists and mappings written out.  Showing,
canonicalizing and comparing values work on data.  An object of an implementation has no content
here; it is its location and the text that messages show for it.  Where a list or mapping turns
up again inside itself the content breaks off.
-/

namespace Conformance

/-- A value with its content at one moment. -/
inductive Datum
  | scalar (s : Scalar)
  /-- A boolean told apart from the numbers zero and one. -/
  | flag (b : Bool)
  | reference (path : String)
  | tuple (items : List Datum)
  | list (items : List Datum)
  | map (entries : List (Key × Datum))
  | frozen (entries : List (Key × Datum))
  | object (location : Loc) (shown : String)
  | method (owner : Key) (name : String)
  /-- A list or mapping inside itself: written out it would have no end. -/
  | endless (shown : String)
deriving Repr, Inhabited

namespace Datum

/-- The absent value. -/
def null : Datum := .scalar .null

/-- A text as a datum. -/
def str (s : String) : Datum := .scalar (.str s)

/-- The datum is a text equal to the name of the failure marker. -/
def isError : Datum → Bool
  | .scalar s => s.isError
  | _ => false

mutual

/-- The datum as messages show it. -/
def shown : Datum → List Char
  | .scalar s => s.shown
  | .flag b => (Scalar.bool b).shown
  | .reference path => shownReference path
  | .tuple items => parenthesized (shownAll items)
  | .list items => bracketed (shownAll items)
  | .map entries => braced (shownEntries entries)
  | .frozen entries => "mappingproxy(".toList ++ braced (shownEntries entries) ++ [')']
  | .object _ shown => shown.toList
  | .method _ name => "<method ".toList ++ name.toList ++ ['>']
  | .endless shown => shown.toList

/-- Data as messages show them. -/
def shownAll : List Datum → List (List Char)
  | [] => []
  | d :: ds => shown d :: shownAll ds

/-- Entries as messages show them. -/
def shownEntries : List (Key × Datum) → List (List Char)
  | [] => []
  | (k, d) :: es => (k.shown ++ ": ".toList ++ shown d) :: shownEntries es

end

end Datum

mutual

/-- The datum of an authored value. -/
def Literal.datum : Literal → Datum
  | .scalar s => .scalar s
  | .reference path => .reference path
  | .tuple items => .tuple (Literal.datumAll items)
  | .list items => .list (Literal.datumAll items)
  | .map entries => .map (Literal.datumEntries entries)

/-- The data of authored values. -/
def Literal.datumAll : List Literal → List Datum
  | [] => []
  | v :: vs => Literal.datum v :: Literal.datumAll vs

/-- The data of authored entries. -/
def Literal.datumEntries : List (Key × Literal) → List (Key × Datum)
  | [] => []
  | (k, v) :: es => (k, Literal.datum v) :: Literal.datumEntries es

end

end Conformance
