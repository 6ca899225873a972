import Conformance.Scope.Lookup

/-!
# Resolving authored values

Resolving makes live data of an authored value: lists and mappings are built anew and every
reference is replaced by the value bound at its path.  The parts of a tuple are taken as they
stand.
-/

namespace Conformance

mutual

/-- Live data of an authored value, with references left as they are. -/
def Literal.place {ω : Type} : Literal → Code ω Value
  | .scalar s => pure (.scalar s)
  | .reference path => pure (.reference path)
  | .tuple items => do return .tuple (← Literal.placeAll items)
  | .list items => do Code.newList (← Literal.placeAll items)
  | .map entries => do Code.newMap (← Literal.placeEntries entries)

/-- Live data of authored values. -/
def Literal.placeAll {ω : Type} : List Literal → Code ω (List Value)
  | [] => pure []
  | v :: vs => do
    let x ← Literal.place v
    let xs ← Literal.placeAll vs
    return x :: xs

/-- Live data of authored entries. -/
def Literal.placeEntries {ω : Type} : List (Key × Literal) → Code ω (List (Key × Value))
  | [] => pure []
  | (k, v) :: es => do
    let x ← Literal.place v
    let xs ← Literal.placeEntries es
    return (k, x) :: xs

end

namespace Scope

variable {ω : Type} (impl : Implementation ω) (scope : ScopeId)

mutual

/-- The value with every reference replaced by what is bound at its path. -/
def resolve : Literal → Exec ω Value
  | .scalar s => pure (.scalar s)
  | .reference path => get impl scope path
  | .tuple items => do return .tuple (← Exec.code (Literal.placeAll items))
  | .list items => do
    let xs ← resolveAll items
    Exec.code (Code.newList xs)
  | .map entries => do
    let xs ← resolveEntries entries
    Exec.code (Code.newMap xs)

/-- Values with every reference replaced. -/
def resolveAll : List Literal → Exec ω (List Value)
  | [] => pure []
  | v :: vs => do
    let x ← resolve v
    let xs ← resolveAll vs
    return x :: xs

/-- Entries with every reference among the values replaced. -/
def resolveEntries : List (Key × Literal) → Exec ω (List (Key × Value))
  | [] => pure []
  | (k, v) :: es => do
    let x ← resolve v
    let xs ← resolveEntries es
    return (k, x) :: xs

end

end Scope

end Conformance
