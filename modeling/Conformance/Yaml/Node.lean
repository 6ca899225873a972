/-!
# Nodes

What a document says, with the kind of every node: scalars with their text, sequences and
mappings.  An alias is the node that it names.
-/

namespace Conformance.Yaml

/-- Kind of a node, which decides what value it has. -/
inductive Tag
  | null
  | bool
  | int
  | float
  | str
  | timestamp
  | binary
  | sequence
  | mapping
  /-- A sequence of mappings of one entry each, which are its pairs. -/
  | pairs
  /-- A key whose value holds further entries. -/
  | merge
  /-- A key for the value of the whole mapping. -/
  | default
  /-- A kind that has no values here. -/
  | unknown
deriving DecidableEq, Repr, Inhabited

namespace Tag

/-- What the names of the known tags start with. -/
def family : String := "tag:yaml.org,2002:"

/-- Known tags. -/
def table : List (String × Tag) :=
  [("null", .null), ("bool", .bool), ("int", .int), ("float", .float), ("str", .str),
   ("timestamp", .timestamp), ("binary", .binary), ("seq", .sequence), ("map", .mapping),
   ("omap", .pairs), ("pairs", .pairs), ("merge", .merge), ("value", .default)]

/-- The kind that a tag names. -/
def ofText (text : String) : Tag :=
  ((table.find? (fun e => family ++ e.1 == text)).map (·.2)).getD .unknown

end Tag

/-- A node. -/
inductive Node
  | scalar (tag : Tag) (text : String)
  | sequence (tag : Tag) (items : List Node)
  | mapping (tag : Tag) (entries : List (Node × Node))
deriving Repr, Inhabited

end Conformance.Yaml
