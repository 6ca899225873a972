import Conformance.Data.Literal

/-!
# Feature text of values

The text of a value in the one-line form of a feature: JSON, except that references stand as
their bare path, markers without quotes, and keys as the text of the key.  What JSON does not
have stands as the JSON string of its plain text.

A tuple is written by the rules of JSON all through, and there a mapping key that JSON cannot
hold makes the value unwritable; `Literal.unwritable?` finds the first such key.
-/

namespace Conformance

/-- The key as plain text. -/
def Key.plain : Key → List Char
  | .scalar s => s.plain
  | .reference path => path.toList
  | k => k.shown

/-- JSON text of a scalar, or the JSON string of its plain text. -/
def Scalar.written (s : Scalar) : List Char := s.json?.getD (Text.json s.plain)

/-- JSON member name of a key: texts as they are, null, booleans and numbers as JSON writes
them. -/
def Key.jsonName? : Key → Option (List Char)
  | .scalar (.str s) => some s.toList
  | .scalar (.sentinel s) => some s.name.toList
  | .scalar s => s.json?
  | .flag b => (Scalar.bool b).json?
  | _ => none

/-- Name of a key's type, as the message about an unwritable key gives it: the types of dates and
times with the module they belong to, all others without. -/
def Key.shortTypeName : Key → String
  | .scalar s => s.typeName
  | .tuple _ => "tuple"
  | .reference _ => "Reference"
  | .object _ => "object"
  | .flag _ => "bool"

/-- Values in brackets. -/
def bracketed (parts : List (List Char)) : List Char := '[' :: joined parts ++ [']']

/-- Entries in braces. -/
def braced (parts : List (List Char)) : List Char := '\x7b' :: joined parts ++ ['\x7d']

/-- A member: its name as a JSON string and its value. -/
def member (name value : List Char) : List Char := Text.json name ++ ": ".toList ++ value

namespace Literal

mutual

/-- JSON text of a value, with JSON strings of plain text for what JSON does not have. -/
def jsonText : Literal → List Char
  | .scalar s => s.written
  | .reference path => Text.json path.toList
  | .tuple items => bracketed (jsonTextAll items)
  | .list items => bracketed (jsonTextAll items)
  | .map entries => braced (jsonTextEntries entries)

/-- JSON texts of values. -/
def jsonTextAll : List Literal → List (List Char)
  | [] => []
  | v :: vs => jsonText v :: jsonTextAll vs

/-- JSON members of entries. -/
def jsonTextEntries : List (Key × Literal) → List (List Char)
  | [] => []
  | (k, v) :: es => member (k.jsonName?.getD []) (jsonText v) :: jsonTextEntries es

end

mutual

/-- Feature text of a value. -/
def render : Literal → List Char
  | .reference path => path.toList
  | .scalar (.sentinel s) => s.name.toList
  | .scalar s => s.written
  | .tuple items => bracketed (jsonTextAll items)
  | .list items => bracketed (renderAll items)
  | .map entries => braced (renderEntries entries)

/-- Feature texts of values. -/
def renderAll : List Literal → List (List Char)
  | [] => []
  | v :: vs => render v :: renderAll vs

/-- Feature texts of entries. -/
def renderEntries : List (Key × Literal) → List (List Char)
  | [] => []
  | (k, v) :: es => member k.plain (render v) :: renderEntries es

end

mutual

/-- First mapping key inside a value that JSON cannot hold. -/
def badKey? : Literal → Option Key
  | .tuple items => badKeyAll? items
  | .list items => badKeyAll? items
  | .map entries => badKeyEntries? entries
  | _ => none

/-- First such key among values. -/
def badKeyAll? : List Literal → Option Key
  | [] => none
  | v :: vs => (badKey? v).or (badKeyAll? vs)

/-- First such key among entries and their values. -/
def badKeyEntries? : List (Key × Literal) → Option Key
  | [] => none
  | (k, v) :: es =>
    if k.jsonName?.isNone then some k else (badKey? v).or (badKeyEntries? es)

end

mutual

/-- First mapping key that makes the feature text impossible: one inside a tuple that JSON
cannot hold. -/
def unwritable? : Literal → Option Key
  | .tuple items => badKeyAll? items
  | .list items => unwritableAll? items
  | .map entries => unwritableEntries? entries
  | _ => none

/-- First such key among values. -/
def unwritableAll? : List Literal → Option Key
  | [] => none
  | v :: vs => (unwritable? v).or (unwritableAll? vs)

/-- First such key among the values of entries. -/
def unwritableEntries? : List (Key × Literal) → Option Key
  | [] => none
  | (_, v) :: es => (unwritable? v).or (unwritableEntries? es)

end

end Literal

end Conformance
