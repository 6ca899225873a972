import Conformance.Sample.Attribute
import Conformance.Sample.Hook

/-!
# The sample implementation
-/

namespace Conformance.Sample

/-- Objects that can be called. -/
def isCallable : Object → Bool
  | .function _ _ | .class_ _ _ | .importer | .hook _ => true
  | _ => false

/-- Equality of an object's own: some objects refuse to be compared. -/
def equality? : Object → Option (Datum → Step Bool)
  | .instance_ .ambiguous _ => some fun _ => Code.raise .type "TypeError" "ambiguous"
  | .instance_ .hostile _ => some fun _ => Code.raise .other "RuntimeError" "hostile"
  | _ => none

/-- Text of a hook function. -/
def functionText (f : HookFunction) : String := "<function " ++ f.definedName ++ ">"

/-- Text of an object. -/
def shown : Object → List Piece
  | .function f _ => [.text ("<fn " ++ f.name ++ ">")]
  | .class_ c _ => [.text ("<class '" ++ c.name ++ "'>")]
  | .instance_ .counter attributes =>
    [.text "Counter(", .value ((named? attributes "count").getD .null), .text ")"]
  | .instance_ c _ => [.text ("<" ++ c.name ++ ">")]
  | .bag _ => [.text "<obj>"]
  | .module name _ _ => [.text ("<module '" ++ name ++ "'>")]
  | .importer => [.text "<function import_module>"]
  | .hook f => [.text (functionText f)]
  | .pending _ => [.text "<coroutine>"]

/-- The sample implementation with given packages. -/
def implementation (packages : List Package) : Implementation Object where
  load := load packages
  importer := .object importerLocation
  callable := isCallable
  call := fun location o args =>
    match o with
    | .function f calls => callFunction location f calls args
    | .class_ c _ => callClass c args
    | .importer => callImporter packages args
    | o => throw (.uncallableType o.typeName)
  invoke := fun location _ method args => callCounter location method args
  await? := fun
    | .pending p => some p.run
    | _ => none
  read := readAttribute
  write := writeAttribute
  names := attributeNames
  exports? := fun
    | .module _ _ exports => exports
    | _ => none
  equality? := equality?
  shown := shown
  functionText := fun
    | .hook f => functionText f
    | _ => ""
  script := fun o args =>
    match o with
    | .hook f => f.script args
    | o => .done (.error (.uncallableType o.typeName))

end Conformance.Sample
