/-!
# Tokens

What the text of a document is made of: scalars with their content, the marks of collections,
the start and end of blocks that indentation gives, and properties of nodes.
-/

namespace Conformance.Yaml

/-- A tag as written: a handle and a suffix, or a tag in full. -/
inductive WrittenTag
  | short (handle suffix : String)
  | full (tag : String)
deriving DecidableEq, Repr, Inhabited

/-- A line about the documents that follow. -/
inductive Directive
  | version (major : Nat)
  /-- What a tag handle stands for. -/
  | handle (handle expansion : String)
  | other
deriving DecidableEq, Repr, Inhabited

/-- A token. -/
inductive Token
  | streamEnd
  | directive (d : Directive)
  | documentStart
  | documentEnd
  | blockSequenceStart
  | blockMappingStart
  | blockEnd
  | flowSequenceStart
  | flowSequenceEnd
  | flowMappingStart
  | flowMappingEnd
  | blockEntry
  | flowEntry
  | key
  | value
  | alias (name : String)
  | anchor (name : String)
  | tag (t : WrittenTag)
  /-- A scalar; a plain one stands without quotes or block mark. -/
  | scalar (text : String) (plain : Bool)
deriving DecidableEq, Repr, Inhabited

end Conformance.Yaml
