import Conformance.Data.Literal
import Conformance.Name

/-!
# References in authored data

A reference marker is a mapping of one entry whose key is a text and whose value is null; the key
is a path of the scope.  `Literal.tag` replaces every marker by a reference to the camel-style
spelling of its path, `Literal.untag` writes references back as markers.
-/

namespace Conformance

/-- Path of a reference marker, as written. -/
def Literal.marker? : Literal → Option String
  | .map [(key, .scalar .null)] => key.text?.filter (fun path => path != "")
  | _ => none

namespace Literal

/-- The shape of a reference marker. -/
def isMarker (v : Literal) : Bool := v.marker?.isSome

/-- The reference marker of a path. -/
def marker (path : String) : Literal := .map [(Key.str path, null)]

mutual

/-- The value with every marker replaced by a reference. -/
def tag : Literal → Literal
  | .map entries =>
    match marker? (.map entries) with
    | some path => .reference (Name.camelize path)
    | none => .map (tagEntries entries)
  | .list items => .list (tagAll items)
  | v => v

/-- Values with every marker replaced by a reference. -/
def tagAll : List Literal → List Literal
  | [] => []
  | v :: vs => tag v :: tagAll vs

/-- Entries with every marker among the values replaced by a reference. -/
def tagEntries : List (Key × Literal) → List (Key × Literal)
  | [] => []
  | (k, v) :: es => (k, tag v) :: tagEntries es

end

mutual

/-- The value with every reference written as a marker. -/
def untag : Literal → Literal
  | .reference path => marker path
  | .map entries => .map (untagEntries entries)
  | .list items => .list (untagAll items)
  | v => v

/-- Values with every reference written as a marker. -/
def untagAll : List Literal → List Literal
  | [] => []
  | v :: vs => untag v :: untagAll vs

/-- Entries with every reference among the values written as a marker. -/
def untagEntries : List (Key × Literal) → List (Key × Literal)
  | [] => []
  | (k, v) :: es => (k, untag v) :: untagEntries es

end

mutual

/-- The value contains a reference. -/
def hasReference : Literal → Bool
  | .reference _ => true
  | .map entries => hasReferenceEntries entries
  | .list items => hasReferenceAny items
  | _ => false

/-- Some value contains a reference. -/
def hasReferenceAny : List Literal → Bool
  | [] => false
  | v :: vs => hasReference v || hasReferenceAny vs

/-- Some value of the entries contains a reference. -/
def hasReferenceEntries : List (Key × Literal) → Bool
  | [] => false
  | (_, v) :: es => hasReference v || hasReferenceEntries es

end

end Literal

end Conformance
