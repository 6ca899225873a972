import Conformance.Data.Key

/-!
# Authored data

What a specification document holds: scalars, lists and mappings, and the references that take
the place of reference markers once a value is tagged.  Authored data is immutable, so nothing
an implementation does can change a parsed feature.
-/

namespace Conformance

/-- A value as written in a document. -/
inductive Literal
  | scalar (s : Scalar)
  | reference (path : String)
  | tuple (items : List Literal)
  | list (items : List Literal)
  | map (entries : List (Key × Literal))
deriving Repr, Inhabited

namespace Literal

/-- The absent value. -/
def null : Literal := .scalar .null

/-- A text as a literal. -/
def str (s : String) : Literal := .scalar (.str s)

/-- Text of a literal that is a text. -/
def text? : Literal → Option String
  | .scalar s => s.text?
  | _ => none

end Literal

/-- Texts with a comma and a blank between them. -/
def joined (parts : List (List Char)) : List Char := commaSeparated parts

/-- Parts of a tuple in parentheses; a single part is followed by a comma. -/
def parenthesized : List (List Char) → List Char
  | [part] => '(' :: part ++ [',', ')']
  | parts => '(' :: joined parts ++ [')']

/-- A reference as messages show it. -/
def shownReference (path : String) : List Char :=
  "Reference(path=".toList ++ Text.quoted path.toList ++ [')']

mutual

/-- The key as messages show it. -/
def Key.shown : Key → List Char
  | .scalar s => s.shown
  | .tuple items => parenthesized (Key.shownAll items)
  | .reference path => shownReference path
  | .object _ => "<object>".toList
  | .flag b => (Scalar.bool b).shown

/-- Keys as messages show them. -/
def Key.shownAll : List Key → List (List Char)
  | [] => []
  | k :: ks => Key.shown k :: Key.shownAll ks

end

mutual

/-- The literal as messages show it. -/
def Literal.shown : Literal → List Char
  | .scalar s => s.shown
  | .reference path => shownReference path
  | .tuple items => parenthesized (Literal.shownAll items)
  | .list items => '[' :: joined (Literal.shownAll items) ++ [']']
  | .map entries => '\x7b' :: joined (Literal.shownEntries entries) ++ ['\x7d']

/-- Literals as messages show them. -/
def Literal.shownAll : List Literal → List (List Char)
  | [] => []
  | v :: vs => Literal.shown v :: Literal.shownAll vs

/-- Entries as messages show them. -/
def Literal.shownEntries : List (Key × Literal) → List (List Char)
  | [] => []
  | (k, v) :: es => (k.shown ++ ": ".toList ++ Literal.shown v) :: Literal.shownEntries es

end

end Conformance
