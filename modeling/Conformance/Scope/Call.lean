import Conformance.Scope.Assign

/-!
# Calling values

A call goes to an object of the implementation, to one of its methods, to a method of a text or
list, or to a hook.  A hook runs with the scope it was bound to; its reads and bindings follow
the same rules as those of features.
-/

namespace Conformance

namespace Scope

variable {ω : Type} (impl : Implementation ω)

/-- Runs a hook with its scope. -/
def runScript (scope : ScopeId) : Script ω → Exec ω Value
  | .done result => ExceptT.mk (pure result)
  | .get path next => do
    let found ← Exec.attempt (get impl scope path)
    runScript scope (next found)
  | .assign path value next => do
    let bound ← Exec.attempt (assign impl scope path value)
    runScript scope (next bound)
  | .names next => do
    let all ← names scope
    runScript scope (next all)
  | .code step next => do
    let result ← Exec.attempt (Exec.code step)
    runScript scope (next result)

/-- A method of a text or list, called. -/
def callBuiltIn (owner : Value) (name : String) (args : List Value) : Code ω Value :=
  match owner, name, args with
  | .scalar s, "upper", [] =>
    match s.text? with
    | some text => return .str (String.ofList (Text.upper text.toList))
    | none => throw (.uncallableType s.typeName)
  | .scalar _, "upper", args =>
    Code.raise .type "TypeError"
      ("str.upper() takes no arguments (" ++ String.ofList (numeral args.length) ++ " given)")
  | .list location, "append", [v] => do
    let store ← Code.store
    Code.put location (.list (store.items location ++ [v]))
    return .null
  | .list _, "append", args =>
    Code.raise .type "TypeError"
      ("list.append() takes exactly one argument (" ++ String.ofList (numeral args.length) ++ " given)")
  | _, _, _ => throw (.uncallableType owner.typeName)

/-- Calls a value. -/
def call (v : Value) (args : List Value) : Exec ω Value := do
  let w ← Exec.world
  match v with
  | .object location =>
    match w.store.get? location with
    | some (.object o) => Exec.code (impl.call location o args)
    | some (.hook scope function _) => runScript impl scope (impl.script function args)
    | _ => throw (.uncallableType "object")
  | .method (.object location) name =>
    match w.store.object? location with
    | some o => Exec.code (impl.invoke location o name args)
    | none => throw (.uncallableType "object")
  | .method owner name => Exec.code (callBuiltIn owner name args)
  | v => throw (.uncallableType v.typeName)

/-- The value, or what awaiting it gives if it has to be awaited. -/
def awaited (v : Value) : Exec ω Value := do
  match v with
  | .object location =>
    match (← Exec.world).store.object? location with
    | some o =>
      match impl.await? o with
      | some pending => Exec.code pending
      | none => return v
    | none => return v
  | v => return v

end Scope

end Conformance
