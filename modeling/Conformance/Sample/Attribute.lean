import Conformance.Sample.Call

/-!
# Attributes of sample objects
-/

namespace Conformance.Sample

namespace Bag

/-- Reads an attribute of a bag; `missing` is the fault of a name that it does not have. -/
def read (b : Bag) (missing : Fault) (name : String) : Step Value :=
  if b.unreadable.contains name then Code.raise .other "RuntimeError" ("cannot read " ++ name)
  else match named? b.attributes name with
    | some v => return v
    | none => throw missing

/-- The bag with an attribute set. -/
def write (b : Bag) (name : String) (v : Value) : Step Bag :=
  if b.readOnly.contains name then Code.raise .attribute "AttributeError" (name ++ " is read-only")
  else if b.refused.contains name then Code.raise .value "ValueError" ("refused " ++ name)
  else return { b with attributes := setNamed b.attributes name v }

/-- A bag in which the names that cannot be read come last, without a value. -/
def make (attributes : List (String × Value)) (readOnly unreadable refused : List String) : Bag where
  attributes := unreadable.foldl
    (fun acc name => if (named? acc name).isSome then acc else acc ++ [(name, .null)]) attributes
  readOnly := readOnly
  unreadable := unreadable
  refused := refused

end Bag

/-- Name of an object's type. -/
def Object.typeName : Object → String
  | .function _ _ => "Fn"
  | .class_ _ _ => "type"
  | .instance_ c _ => c.name
  | .bag _ => "Obj"
  | .module _ _ _ => "module"
  | .importer | .hook _ => "function"
  | .pending _ => "coroutine"

/-- The attributes set on a class. -/
def classAttributes (c : ClassName) : Step (List (String × Value)) := do
  match (← Code.store).object? c.location with
  | some (.class_ _ attributes) => return attributes
  | _ => return []

/-- An attribute of an instance that is not set on the instance itself. -/
def inherited (location : Loc) (c : ClassName) (name : String) : Step Value := do
  match named? (← classAttributes c) name with
  | some v => return v
  | none =>
    if c = .counter && counterMethods.contains name then return .method (.object location) name
    else throw (.noAttribute c.name name)

/-- Reads an attribute. -/
def readAttribute (location : Loc) (o : Object) (name : String) : Step Value :=
  match o with
  | .class_ c attributes =>
    match named? attributes name with
    | some v => return v
    | none => throw (.noAttribute ("type object '" ++ c.name ++ "'") name)
  | .instance_ c attributes =>
    match named? attributes name with
    | some v => return v
    | none => inherited location c name
  | .bag b => b.read (.noAttribute "Obj" name) name
  | .module module b _ =>
    b.read (.raised .attribute "AttributeError"
      ("module '" ++ module ++ "' has no attribute '" ++ name ++ "'")) name
  | o => throw (.noAttribute o.typeName name)

/-- Sets an attribute. -/
def writeAttribute (location : Loc) (o : Object) (name : String) (v : Value) : Step Unit :=
  match o with
  | .class_ c attributes =>
    Code.put location (.object (.class_ c (setNamed attributes name v)))
  | .instance_ .counter attributes =>
    Code.put location (.object (.instance_ .counter (setNamed attributes name v)))
  | .bag b => do Code.put location (.object (.bag (← b.write name v)))
  | .module module b exports => do
    Code.put location (.object (.module module (← b.write name v) exports))
  | o => throw (.noAttribute o.typeName name)

/-- Names of the attributes of an object. -/
def attributeNames : Object → List String
  | .class_ _ attributes | .instance_ _ attributes => attributes.map (·.1)
  | .bag b | .module _ b _ => b.attributes.map (·.1)
  | _ => []

end Conformance.Sample
