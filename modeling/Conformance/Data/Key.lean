import Conformance.Data.Scalar

/-!
# Mapping keys

The values that may be keys of a mapping: scalars, tuples of keys, references and the objects of
an implementation.  A mapping is a list of entries in insertion order; setting a key that is
already there keeps its place and its spelling.
-/

namespace Conformance

/-- Where a mutable value lives in the store. -/
abbrev Loc := Nat

/-- A key of a mapping. -/
inductive Key
  | scalar (s : Scalar)
  | tuple (items : List Key)
  | reference (path : String)
  | object (at_ : Loc)
  /-- A boolean told apart from the numbers zero and one. -/
  | flag (b : Bool)
deriving Repr, Inhabited

namespace Key

/-- A text as a key. -/
def str (s : String) : Key := .scalar (.str s)

/-- Text of a key that is a text. -/
def text? : Key → Option String
  | .scalar s => s.text?
  | _ => none

mutual

/-- The same key of a mapping. -/
def same : Key → Key → Bool
  | .scalar a, .scalar b => a.same b
  | .tuple a, .tuple b => sameAll a b
  | .reference a, .reference b => a == b
  | .object a, .object b => a == b
  | .flag a, .flag b => a == b
  | _, _ => false

/-- Pairwise the same keys. -/
def sameAll : List Key → List Key → Bool
  | [], [] => true
  | a :: as, b :: bs => same a b && sameAll as bs
  | _, _ => false

end

end Key

/-- Entries of a mapping in insertion order. -/
abbrev Entries (α : Type) := List (Key × α)

namespace Entries

variable {α : Type}

/-- Value of a key. -/
def find? (entries : Entries α) (key : Key) : Option α :=
  (List.find? (fun e => e.1.same key) entries).map (·.2)

/-- Sets the value of a key: in place if the key is there, otherwise at the end. -/
def set : Entries α → Key → α → Entries α
  | [], key, value => [(key, value)]
  | (k, v) :: rest, key, value =>
    if k.same key then (k, value) :: rest else (k, v) :: set rest key value

/-- Entries set one after another. -/
def setAll (entries : Entries α) (more : List (Key × α)) : Entries α :=
  more.foldl (fun acc e => acc.set e.1 e.2) entries

/-- The mapping of a list of entries, where the last value of a repeated key wins. -/
def ofList (entries : List (Key × α)) : Entries α := setAll [] entries

end Entries

end Conformance
