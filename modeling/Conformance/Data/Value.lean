import Conformance.Fault

/-!
# Live values

The values a specification runs on.  Scalars, references, tuples and read-only mappings are
immutable and carry their content; lists, mappings and the objects of an implementation are
mutable and live in a store, so that a value is only their location and two values with one
location are the same object.
-/

namespace Conformance

/-- A live value. -/
inductive Value
  | scalar (s : Scalar)
  | reference (path : String)
  | tuple (items : List Value)
  | frozen (entries : List (Key × Value))
  | list (location : Loc)
  | map (location : Loc)
  | object (location : Loc)
  /-- A method bound to its owner. -/
  | method (owner : Value) (name : String)
deriving Repr, Inhabited

namespace Value

/-- The absent value. -/
def null : Value := .scalar .null

/-- A text as a value. -/
def str (s : String) : Value := .scalar (.str s)

/-- A whole number as a value. -/
def int (i : Int) : Value := .scalar (.int i)

/-- The outcome of a failed operation. -/
def error : Value := .scalar (.sentinel .error)

/-- Name of the type of a value that is no object of the implementation. -/
def typeName : Value → String
  | .scalar s => s.typeName
  | .reference _ => "Reference"
  | .tuple _ => "tuple"
  | .frozen _ => "mappingproxy"
  | .list _ => "list"
  | .map _ => "dict"
  | .object _ => "object"
  | .method _ _ => "method"

mutual

/-- The value as a mapping key, or the name of the type that keeps it from being one. -/
def toKey : Value → Except String Key
  | .scalar s => .ok (.scalar s)
  | .reference path => .ok (.reference path)
  | .tuple items => (toKeyAll items).map .tuple
  | .object location => .ok (.object location)
  | v => .error v.typeName

/-- Values as mapping keys. -/
def toKeyAll : List Value → Except String (List Key)
  | [] => .ok []
  | v :: vs => do
    let k ← toKey v
    let ks ← toKeyAll vs
    return k :: ks

end

end Value

/-! ## Attributes of values that are no objects -/

namespace Value

/-- The attribute of a value under a name. -/
def attribute? : Value → String → Option Value
  | .scalar (.int i), "real" => some (.scalar (.int i))
  | .scalar (.bool b), "real" => some (.scalar (.int (Scalar.ofBool b)))
  | .scalar (.float x), "real" => some (.scalar (.float x))
  | .scalar (.str s), "upper" => some (.method (.scalar (.str s)) "upper")
  | .scalar (.sentinel s), "upper" => some (.method (.scalar (.sentinel s)) "upper")
  | .scalar (.sentinel s), "name" => some (.str s.name)
  | .scalar (.sentinel s), "value" => some (.str s.name)
  | .scalar (.sentinel _), "ERROR" => some (.scalar (.sentinel .error))
  | .scalar (.sentinel _), "ANY" => some (.scalar (.sentinel .any))
  | .list location, "append" => some (.method (.list location) "append")
  | .reference path, "path" => some (.str path)
  | _, _ => none

/-- Why an attribute of a value cannot be set. -/
def attributeFault (v : Value) (name : String) : Fault :=
  match v with
  | .reference _ => .frozenField name
  | v =>
    match attribute? v name with
    | none => .noAttribute v.typeName name
    | some (.method _ _) => .attributeReadOnly v.typeName name
    | some _ =>
      let typeName := match v with
        | .scalar (.bool _) => "int"
        | v => v.typeName
      .attributeComputed typeName name

end Value

end Conformance
