import Conformance.Scope.Lookup

/-!
# Binding paths

Binding a path sets its last name on the owner that the other names lead to: a key of a mapping
or of the scope, an item of a list, or an attribute.  The name is written as it stands; the
spelling with underscores is a matter of reading only.  A constant that is bound is not bound
again.
-/

namespace Conformance.Scope

variable {ω : Type} (impl : Implementation ω)

/-- Least index that no list can have. -/
def indexLimit : Nat := Nat.pow 2 63

/-- Sets an item of the list at a location. -/
def writeItem (location : Loc) (name : String) (v : Value) : Exec ω Unit := do
  match Text.decimal? name.toList with
  | none => throw (.notInteger 10 name)
  | some i =>
    let items := (← Exec.world).store.items location
    if indexLimit ≤ i then throw .indexSize
    else if items.length ≤ i then throw .indexRange
    else Exec.code (Code.put location (.list (items.set i v)))

/-- Sets an attribute of an object. -/
def writeAttribute (location : Loc) (name : String) (v : Value) : Exec ω Unit := do
  match (← Exec.world).store.get? location with
  | some (.object o) => Exec.code (impl.write location o name v)
  | some (.hook scope function attributes) =>
    Exec.code (Code.put location (.hook scope function (setNamed attributes name v)))
  | _ => throw (.noAttribute "object" name)

/-- Sets a member of an owner. -/
def write (owner : Owner) (name : String) (v : Value) : Exec ω Unit := do
  match owner with
  | .scope id => Exec.setBindings id (setNamed (← Exec.bindings id) name v)
  | .value (.map location) =>
    let entries := (← Exec.world).store.entries location
    Exec.code (Code.put location (.map (entries.set (.str name) v)))
  | .value (.list location) =>
    if Name.isIndex name then writeItem location name v
    else throw ((Value.list location).attributeFault name)
  | .value (.object location) => writeAttribute impl location name v
  | .value (.scalar (.sentinel marker)) =>
    if isMarkerField name then throw (.markerField name)
    else Exec.code (Code.mark marker name v)
  | .value owner => throw (owner.attributeFault name)

/-- The faults of a write that make the assignment invalid. -/
def isRefusal (fault : Fault) : Bool :=
  fault.family = .lookup || fault.family = .attribute || fault.family = .type

/-- Owner and last name of the target of an assignment. -/
def locateTarget (scope : ScopeId) (path : String) : Exec ω (Owner × String) := do
  match ← Exec.attempt (locate impl scope path) with
  | .ok found => return found
  | .error fault =>
    if fault.family = .lookup then throw (.invalidAssignment path fault.message) else throw fault

/-- Whether the last name of a target is a constant that is bound. -/
def isBoundConstant (owner : Owner) (name : String) : Exec ω Bool := do
  if Name.isConstant name then return (← memberAs impl owner name).isSome else return false

/-- Binds a value at a path. -/
def assign (scope : ScopeId) (path : String) (v : Value) : Exec ω Unit := do
  let (owner, name) ← locateTarget impl scope path
  if ← isBoundConstant impl owner name then throw (.constantReassigned path)
  match ← Exec.attempt (write impl owner name v) with
  | .error fault =>
    if isRefusal fault then throw (.invalidAssignment path fault.describe) else throw fault
  | .ok () =>
    let datum ← impl.datumNow v
    Exec.log .debug .scope ("Bound " ++ path ++ " = " ++ String.ofList datum.shown)

/-- Name under which a hook is bound. -/
def hookName (name : String) : String := "$" ++ name

/-- Binds one function as a hook. -/
def installHook (scope : ScopeId) (name : String) (function : ω) : Exec ω Unit := do
  let location ← Exec.code (Code.alloc (.hook scope function []))
  Exec.setBindings scope (setNamed (← Exec.bindings scope) (hookName name) (.object location))

/-- Binds functions as hooks. -/
def installHooks (scope : ScopeId) : List (String × ω) → Exec ω Unit
  | [] => return ()
  | (name, function) :: rest => do
    installHook scope name function
    installHooks scope rest

end Conformance.Scope
