import Conformance.Feature.Filter
import Conformance.Name

/-!
# Feature keys

The key of a feature reads `(filter)? (assign=)? property? (==)?`.  `Key.split?` takes a key
apart as written; where the parenthesised start cannot be a filter because the rest does not
follow the grammar, it is read as part of the target or the operand.  `Key.read?` then trims the
parts and decides between the forms of a feature.

A key is one line: the operand extends to the end of the line, and only a line break at the very
end may follow it.
-/

namespace Conformance.FeatureKey

/-- The parts of a key as written. -/
structure Parts where
  filter : Option (List Char)
  assign : Option (List Char)
  property : Option (List Char)
deriving DecidableEq, Repr, Inhabited

/-- A line: the whole text if it has no line break, or the text before a single final one. -/
def line? (cs : List Char) : Option (List Char) :=
  match Text.splitAt? '\n' cs with
  | none => some cs
  | some (before, []) => some before
  | some _ => none

/-- The operand that takes up the rest of a key: nothing, or a line that does not start with
`=`.  The first character may be a line break. -/
def property? : List Char → Option (Option (List Char))
  | [] => some none
  | c :: rest => if c == '=' then none else (line? rest).map fun line => some (c :: line)

/-- Target and operand of the rest of a key. -/
def body? (cs : List Char) : Option (Option (List Char) × Option (List Char)) :=
  let withAssign := do
    let (assign, rest) ← Text.splitAt? '=' cs
    let property ← property? rest
    return (some assign, property)
  withAssign.or ((property? cs).map fun property => (none, property))

/-- A parenthesised start and the text after it. -/
def parenthesis? : List Char → Option (List Char × List Char)
  | '(' :: rest => Text.splitAt? ')' rest
  | _ => none

/-- The parts of a key. -/
def split? (cs : List Char) : Option Parts :=
  let withFilter := do
    let (filter, rest) ← parenthesis? cs
    let (assign, property) ← body? rest
    return Parts.mk (some filter) assign property
  withFilter.or ((body? cs).map fun (assign, property) => Parts.mk none assign property)

/-- A trimmed text, or nothing if nothing is left. -/
def trimmed? (part : Option (List Char)) : Option (List Char) :=
  (part.map Text.trim).filter (fun cs => !cs.isEmpty)

/-- The key under which a specification declares its package. -/
def packageKey : String := "PACKAGE"

/-- What a key asks for.  The target of an assignment is present in the first two forms and
optional in the others. -/
inductive Form
  /-- Bind the value on the right. -/
  | value (target : String)
  /-- Read the operand, whatever stands on the right. -/
  | read (assign : Option String) (property : String)
  /-- Read the operand, or call it if a list stands on the right. -/
  | operand (assign : Option String) (property : String)
deriving DecidableEq, Repr, Inhabited

/-- The read marker at the end of an operand. -/
def readMark : List Char := ['=', '=']

/-- The text before the read marker, if a text ends with it. -/
def beforeReadMark? (cs : List Char) : Option (List Char) :=
  if readMark.isSuffixOf cs then some (cs.take (cs.length - 2)) else none

/-- The form of a key with given trimmed target and operand. -/
def form? (assign property : Option (List Char)) : Option Form :=
  let target := assign.map String.ofList
  match property with
  | none => target.map .value
  | some property =>
    match beforeReadMark? property with
    | some marked =>
      let operand := Text.trim marked
      if operand.isEmpty then none else some (.read target (String.ofList operand))
    | none =>
      if String.ofList property = packageKey && assign.isNone then some (.value packageKey)
      else some (.operand target (String.ofList property))

/-- Filter and form of a key, read from its camel-style spelling. -/
def read? (key : String) : Option (Option (List Char) × Form) := do
  let parts ← split? (Name.camel key.toList)
  let form ← form? (trimmed? parts.assign) (trimmed? parts.property)
  return (parts.filter, form)

/-- Filter and text of a comment. -/
def comment (entry : List Char) : Option (List Char) × List Char :=
  match parenthesis? entry with
  | some (filter, rest) => (some filter, Text.trim rest)
  | none => (none, Text.trim entry)

end Conformance.FeatureKey
