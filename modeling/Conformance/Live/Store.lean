import Conformance.Data.Named
import Conformance.Data.Value

/-!
# The store

The cells that lists, mappings, bound hooks and objects live in.  A cell is never removed, so a
location stays good; allocating gives a location that no value had before.  Of each marker there
is one for everything that runs, so what is set on a marker is kept in the store as well.

`Code` is what an implementation runs as: it reads and changes cells and may fail, and what it
did before failing stays done.
-/

namespace Conformance

/-- Number of a scope. -/
abbrev ScopeId := Nat

/-- Content of a location.  The objects of the implementation are of type `ω`. -/
inductive Cell (ω : Type)
  | list (items : List Value)
  | map (entries : Entries Value)
  | object (o : ω)
  /-- A function bound to the scope that is its first argument, with attributes set on it. -/
  | hook (scope : ScopeId) (function : ω) (attributes : List (String × Value))

/-- Cells by location, and the attributes set on the markers. -/
structure Store (ω : Type) where
  cells : Array (Cell ω)
  marks : Sentinel → List (String × Value)

namespace Store

variable {ω : Type}

/-- The store without cells. -/
def empty : Store ω := ⟨#[], fun _ => []⟩

/-- Content of a location. -/
def get? (s : Store ω) (location : Loc) : Option (Cell ω) := s.cells[location]?

/-- A new cell and its location. -/
def alloc (s : Store ω) (cell : Cell ω) : Loc × Store ω :=
  (s.cells.size, { s with cells := s.cells.push cell })

/-- Changes the content of a location. -/
def put (s : Store ω) (location : Loc) (cell : Cell ω) : Store ω :=
  { s with cells := s.cells.setIfInBounds location cell }

/-- Sets an attribute of a marker. -/
def mark (s : Store ω) (marker : Sentinel) (name : String) (v : Value) : Store ω :=
  { s with marks := fun m => if m = marker then setNamed (s.marks m) name v else s.marks m }

/-- Items of the list at a location. -/
def items (s : Store ω) (location : Loc) : List Value :=
  match s.get? location with
  | some (.list items) => items
  | _ => []

/-- Entries of the mapping at a location. -/
def entries (s : Store ω) (location : Loc) : Entries Value :=
  match s.get? location with
  | some (.map entries) => entries
  | _ => []

/-- The implementation's object at a location. -/
def object? (s : Store ω) (location : Loc) : Option ω :=
  match s.get? location with
  | some (.object o) => some o
  | _ => none

end Store

/-- Running code of an implementation. -/
abbrev Code (ω : Type) := ExceptT Fault (StateM (Store ω))

namespace Code

variable {ω : Type}

/-- A new cell. -/
def alloc (cell : Cell ω) : Code ω Loc := fun s => (.ok (s.alloc cell).1, (s.alloc cell).2)

/-- Changes a cell. -/
def put (location : Loc) (cell : Cell ω) : Code ω Unit := fun s => (.ok (), s.put location cell)

/-- Sets an attribute of a marker. -/
def mark (marker : Sentinel) (name : String) (v : Value) : Code ω Unit := fun s =>
  (.ok (), s.mark marker name v)

/-- The store as it is. -/
def store : Code ω (Store ω) := fun s => (.ok s, s)

/-- A new list. -/
def newList (items : List Value) : Code ω Value := do return .list (← alloc (.list items))

/-- A new mapping. -/
def newMap (entries : Entries Value) : Code ω Value := do return .map (← alloc (.map entries))

/-- A new object. -/
def newObject (o : ω) : Code ω Value := do return .object (← alloc (.object o))

/-- Failure of an implementation. -/
def raise {α : Type} (family : Family) (kind message : String) : Code ω α :=
  throw (.raised family kind message)

end Code

end Conformance
