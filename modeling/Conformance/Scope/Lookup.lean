import Conformance.Live.World

/-!
# Looking up paths

A path is a list of names with dots between them.  It is walked from the bindings of a scope: in
a mapping a name is a key, in a list or tuple a number is an index, and everywhere else a name
is an attribute.  A name that starts in lower case is also looked for under its spelling with
underscores.
-/

namespace Conformance

/-- Where a name is looked up: in the bindings of a scope or in a value. -/
inductive Owner
  | scope (id : ScopeId)
  | value (v : Value)
deriving Repr, Inhabited

/-- What a path leads to. -/
inductive OperandKind
  | value
  | callable
  | constructible
  | missing
deriving DecidableEq, Repr, Inhabited

/-- The end of a path: owner, last name and the value there. -/
structure Operand where
  kind : OperandKind
  owner : Owner
  name : String
  value : Value
deriving Repr, Inhabited

/-- The names of a path. -/
def pathNames (path : String) : List String :=
  (Text.splitOn '.' path.toList).map String.ofList

/-- The path of names. -/
def pathOf (names : List String) : String :=
  String.ofList (Text.joinWith '.' (names.map String.toList))

/-- The item of a sequence under a name of digits. -/
def itemAt (items : List Value) (name : String) : Except Fault (Option Value) :=
  match Text.decimal? name.toList with
  | none => .error (.notInteger 10 name)
  | some i => .ok items[i]?

namespace Scope

variable {ω : Type} (impl : Implementation ω)

/-- The attribute of an object, if it has one. -/
def objectAttribute (location : Loc) (name : String) : Exec ω (Option Value) := do
  let w ← Exec.world
  match w.store.get? location with
  | some (.object o) =>
    match ← Exec.attempt (Exec.code (impl.read location o name)) with
    | .ok v => return some v
    | .error fault => if fault.family = .attribute then return none else throw fault
  | some (.hook _ _ attributes) => return named? attributes name
  | _ => return none

/-- The attributes that a marker is made of and keeps. -/
def isMarkerField (name : String) : Bool := name = "name" || name = "value"

/-- The attribute of a marker: one that it keeps, one that was set on it, or one of a text. -/
def markerAttribute? (store : Store ω) (marker : Sentinel) (name : String) : Option Value :=
  let own := (Value.scalar (.sentinel marker)).attribute? name
  if isMarkerField name then own else (named? (store.marks marker) name).or own

/-- The member of a value under one spelling of a name. -/
def memberAs (owner : Owner) (name : String) : Exec ω (Option Value) := do
  match owner with
  | .scope id => return named? (← Exec.bindings id) name
  | .value (.map location) => return ((← Exec.world).store.entries location).find? (.str name)
  | .value (.frozen entries) => return Entries.find? entries (.str name)
  | .value (.list location) =>
    if Name.isIndex name then ExceptT.mk (pure (itemAt ((← Exec.world).store.items location) name))
    else return (Value.list location).attribute? name
  | .value (.tuple items) =>
    if Name.isIndex name then ExceptT.mk (pure (itemAt items name))
    else return (Value.tuple items).attribute? name
  | .value (.object location) => objectAttribute impl location name
  | .value (.scalar (.sentinel marker)) =>
    return markerAttribute? (← Exec.world).store marker name
  | .value v => return v.attribute? name

/-- The member of a value under the first spelling that it has. -/
def firstMember (owner : Owner) : List String → Exec ω (Option Value)
  | [] => return none
  | name :: names => do
    match ← memberAs impl owner name with
    | some v => return some v
    | none => firstMember owner names

/-- The member of a value under any spelling of a name. -/
def member (owner : Owner) (name : String) : Exec ω (Option Value) :=
  firstMember impl owner (Name.spellings name)

/-- Walks all names but the last. -/
def walk (owner : Owner) (walked : List String) : List String → Exec ω (Owner × String)
  | [] => return (owner, "")
  | [name] => return (owner, name)
  | name :: names => do
    match ← member impl owner name with
    | some v => walk (.value v) (walked ++ [name]) names
    | none => throw (.unbound (pathOf (walked ++ [name])))

/-- Owner and last name of a path. -/
def locate (scope : ScopeId) (path : String) : Exec ω (Owner × String) :=
  if path = "" then throw .emptyPath else walk impl (.scope scope) [] (pathNames path)

/-- The value at a path. -/
def get (scope : ScopeId) (path : String) : Exec ω Value := do
  let (owner, name) ← locate impl scope path
  match ← member impl owner name with
  | some v => return v
  | none => throw (.unbound path)

/-- Whether something is bound at a path. -/
def contains (scope : ScopeId) (path : String) : Exec ω Bool := do
  match ← Exec.attempt (get impl scope path) with
  | .ok _ => return true
  | .error fault => if fault.family = .lookup then return false else throw fault

/-- A value that can be called. -/
def isCallable (store : Store ω) : Value → Bool
  | .method _ _ => true
  | .object location =>
    match store.get? location with
    | some (.object o) => impl.callable o
    | some (.hook _ _ _) => true
    | _ => false
  | _ => false

/-- How the value under a name is exercised: what can be called is constructed if the name is a
constant and invoked otherwise. -/
def classify (store : Store ω) (name : String) (v : Value) : OperandKind :=
  if !isCallable impl store v then .value
  else if Name.isConstant name then .constructible
  else .callable

/-- The operand at a path.  A missing last name is no fault. -/
def lookup (scope : ScopeId) (path : String) : Exec ω Operand := do
  let (owner, name) ← locate impl scope path
  match ← member impl owner name with
  | none => return ⟨.missing, owner, name, .null⟩
  | some v => return ⟨classify impl (← Exec.world).store name v, owner, name, v⟩

/-- The names of a scope in the order of binding. -/
def names (scope : ScopeId) : Exec ω (List String) := do
  return (← Exec.bindings scope).map (·.1)

end Scope

end Conformance
