import Conformance.Data.Datum
import Conformance.Live.Store

/-!
# Implementations under test

What a specification may ask of an implementation: load a package by name, read and set
attributes of its objects, call them, compare them and show them.  Everything else in this
library holds for every implementation.

An implementation has no access to a scope.  The only code that has is a hook, and a hook is a
`Script`: it reads and binds paths of its scope by named steps and runs code in between.
-/

namespace Conformance

/-- A hook at work. -/
inductive Script (ω : Type)
  | done (result : Except Fault Value)
  /-- Reads a path of the scope. -/
  | get (path : String) (next : Except Fault Value → Script ω)
  /-- Binds a path of the scope. -/
  | assign (path : String) (value : Value) (next : Except Fault Unit → Script ω)
  /-- Asks for the names of the scope. -/
  | names (next : List String → Script ω)
  /-- Runs code. -/
  | code (step : Code ω Value) (next : Except Fault Value → Script ω)

/-- A part of the text of an object: a text or a value shown in its place. -/
inductive Piece
  | text (s : String)
  | value (v : Value)

/-- An implementation under test with objects of type `ω`. -/
structure Implementation (ω : Type) where
  /-- Gives the package of a name. -/
  load : String → Code ω Value
  /-- The function that loads a package by name. -/
  importer : Value
  /-- The object can be called. -/
  callable : ω → Bool
  /-- Calls the object at a location. -/
  call : Loc → ω → List Value → Code ω Value
  /-- Calls a method of the object at a location. -/
  invoke : Loc → ω → String → List Value → Code ω Value
  /-- Runs the object if it has to be awaited. -/
  await? : ω → Option (Code ω Value)
  /-- Reads an attribute.  A fault of family `attribute` means there is none. -/
  read : Loc → ω → String → Code ω Value
  /-- Sets an attribute. -/
  write : Loc → ω → String → Value → Code ω Unit
  /-- Names of the attributes. -/
  names : ω → List String
  /-- Names that a package lists for export, if it lists any. -/
  exports? : ω → Option (List String)
  /-- Equality of the object's own, if it has one. -/
  equality? : ω → Option (Datum → Code ω Bool)
  /-- Text of the object. -/
  shown : ω → List Piece
  /-- Text of a function that can be bound to a scope. -/
  functionText : ω → String
  /-- A function called as a hook. -/
  script : ω → List Value → Script ω

variable {ω : Type}

/-! ## Data of live values -/

/-- The key that stands for the owner of a method. -/
def Value.ownerKey : Value → Key
  | .list location | .map location | .object location => .object location
  | owner => owner.toKey.toOption.getD (.scalar .null)

mutual

/-- The datum of a value, where `look` gives that of what lives in the store. -/
def Value.datumBy (look : Value → Datum) : Value → Datum
  | .scalar s => .scalar s
  | .reference path => .reference path
  | .tuple items => .tuple (Value.datumAllBy look items)
  | .frozen entries => .frozen (Value.datumEntriesBy look entries)
  | .method owner name => .method owner.ownerKey name
  | .list location => look (.list location)
  | .map location => look (.map location)
  | .object location => look (.object location)

/-- The data of values. -/
def Value.datumAllBy (look : Value → Datum) : List Value → List Datum
  | [] => []
  | v :: vs => Value.datumBy look v :: Value.datumAllBy look vs

/-- The data of entries. -/
def Value.datumEntriesBy (look : Value → Datum) : List (Key × Value) → List (Key × Datum)
  | [] => []
  | (k, v) :: es => (k, Value.datumBy look v) :: Value.datumEntriesBy look es

end

/-- The text of an object, with the data of the values shown in it. -/
def Implementation.shownBy (impl : Implementation ω) (o : ω) (datum : Value → Datum) : String :=
  String.join ((impl.shown o).map fun
    | .text s => s
    | .value v => String.ofList (datum v).shown)

/-- A scope as messages show it. -/
def Scope.shown (names : List String) : String :=
  "Scope(" ++ String.ofList (bracketed (names.map fun n => Text.quoted n.toList)) ++ ")"

/-- A function bound to a scope, as messages show it. -/
def boundText (function : String) (names : List String) : String :=
  "functools.partial(" ++ function ++ ", " ++ Scope.shown names ++ ")"

section Datum

variable (impl : Implementation ω) (names : ScopeId → List String) (store : Store ω)

/-- The text of the object or the bound function at a location, with the data of the values shown
in it.  A bound function shows the names that its scope has. -/
def Implementation.objectText (location : Loc) (datum : Value → Datum) : String :=
  match store.get? location with
  | some (.object o) => impl.shownBy o datum
  | some (.hook scope function _) => boundText (impl.functionText function) (names scope)
  | _ => ""

/-- The datum of what lives at a location that is looked at from inside others; `inner` gives the
data of its parts. -/
def Implementation.cellDatum (outer : List Loc) (inner : Loc → Value → Datum) : Value → Datum
  | .list location =>
    if outer.contains location then .endless "[...]"
    else .list ((store.items location).map (inner location))
  | .map location =>
    if outer.contains location then .endless "\x7b...\x7d"
    else .map ((store.entries location).map fun e => (e.1, inner location e.2))
  | .object location =>
    if outer.contains location then .object location "..."
    else .object location (impl.objectText names store location (inner location))
  | _ => .null

/-- The datum of a value inside given cells, through at most so many further ones. -/
def Implementation.datumTo : Nat → List Loc → Value → Datum
  | 0, outer => Value.datumBy (impl.cellDatum names store outer fun _ _ => .endless "...")
  | cells + 1, outer =>
    Value.datumBy (impl.cellDatum names store outer fun location =>
      datumTo cells (location :: outer))

/-- The datum of a value, where `names` gives those of every scope.  No cell is met twice on the
way to a part, so that the number of all cells is enough. -/
def Implementation.datum (v : Value) : Datum :=
  impl.datumTo names store (store.cells.size + 1) [] v

end Datum

/-! ## Equality of data -/

theorem Entries.sizeOf_find? [SizeOf α] {entries : Entries α} {key : Key} {value : α}
    (h : entries.find? key = some value) : sizeOf value < sizeOf entries := by
  unfold Entries.find? at h
  obtain ⟨e, he, rfl⟩ := Option.map_eq_some_iff.mp h
  have hmem := List.mem_of_find?_eq_some he
  have hlt := List.sizeOf_lt_of_mem hmem
  cases e
  simp only [Prod.mk.sizeOf_spec] at hlt ⊢
  omega

namespace Implementation

/-- Equality of the object's own, if a datum is an object that has one. -/
def ownEquality? (impl : Implementation ω) (store : Store ω) : Datum → Option (Datum → Code ω Bool)
  | .object location _ => (store.object? location).bind impl.equality?
  | _ => none

/-- The same object, or not-a-number from the same place: equal as members without being asked. -/
def identical : Datum → Datum → Bool
  | .object a _, .object b _ => a == b
  | .scalar (.float (.nan a)), .scalar (.float (.nan b)) => a == b
  | _, _ => false

mutual

/-- Equality of data.  An object with an equality of its own decides, the left one first. -/
def equal (impl : Implementation ω) (a b : Datum) : Code ω Bool := do
  let store ← Code.store
  match impl.ownEquality? store a with
  | some decide => decide b
  | none =>
    match impl.ownEquality? store b with
    | some decide => decide a
    | none => impl.equalPlain a b
termination_by (sizeOf a + sizeOf b, 3)

/-- Equality of data that decide nothing themselves. -/
def equalPlain (impl : Implementation ω) (a b : Datum) : Code ω Bool :=
  match a, b with
  | .scalar x, .scalar y => pure (x.equal y)
  | .flag x, .flag y => pure (x == y)
  | .reference x, .reference y => pure (x == y)
  | .object x _, .object y _ => pure (x == y)
  | .method x n, .method y m => pure (x.same y && n == m)
  | .tuple xs, .tuple ys => impl.equalItems xs ys
  | .list xs, .list ys => if xs.length = ys.length then impl.equalItems xs ys else pure false
  | .map xs, .map ys => if xs.length = ys.length then impl.equalEntries xs ys else pure false
  | .frozen xs, .map ys => if xs.length = ys.length then impl.equalEntries xs ys else pure false
  | .map xs, .frozen ys => if xs.length = ys.length then impl.equalEntries ys xs else pure false
  | .frozen xs, .frozen ys =>
    if xs.length = ys.length then impl.equalEntries ys xs else pure false
  | _, _ => pure false
termination_by (sizeOf a + sizeOf b, 2)

/-- Pairwise equality as members, up to the first difference. -/
def equalItems (impl : Implementation ω) (xs ys : List Datum) : Code ω Bool :=
  match xs, ys with
  | [], [] => pure true
  | x :: xs, y :: ys => do
    if ← impl.equalMember x y then impl.equalItems xs ys else pure false
  | _, _ => pure false
termination_by (sizeOf xs + sizeOf ys, 1)

/-- Every entry has its key in another mapping with an equal value, up to the first that has
not.  The other mapping's value is the left one of a comparison. -/
def equalEntries (impl : Implementation ω) (xs ys : List (Key × Datum)) : Code ω Bool :=
  match xs with
  | [] => pure true
  | (k, x) :: xs =>
    match h : Entries.find? ys k with
    | none => pure false
    | some y => do
      have := Entries.sizeOf_find? h
      if ← impl.equalMember y x then impl.equalEntries xs ys else pure false
termination_by (sizeOf xs + sizeOf ys, 1)

/-- Equality as members of a collection: identical, or equal. -/
def equalMember (impl : Implementation ω) (a b : Datum) : Code ω Bool :=
  if identical a b then pure true else impl.equal a b
termination_by (sizeOf a + sizeOf b, 4)

end

end Implementation

end Conformance
