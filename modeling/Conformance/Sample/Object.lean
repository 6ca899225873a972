import Conformance.Live.Implementation

/-!
# Sample objects

The objects of a sample implementation: functions, classes and their instances, open bags of
attributes, modules, and what a call may give to be awaited.  Specifications are tried out on
them without any other implementation.
-/

namespace Conformance.Sample

/-- The sample functions. -/
inductive Function
  | upper | lower | identity | add | div | double | len | append | setkey | pack | packt | count
  | none | errstr | anystr | date | fetch | fetchboom | coro
  | boom | boomkey | boomempty | boomspec | boomconst
deriving DecidableEq, Repr, Inhabited

namespace Function

/-- Every sample function with its name. -/
def table : List (String × Function) :=
  [("upper", .upper), ("lower", .lower), ("identity", .identity), ("add", .add), ("div", .div),
   ("double", .double), ("len", .len), ("append", .append), ("setkey", .setkey), ("pack", .pack),
   ("packt", .packt), ("count", .count), ("none", .none), ("errstr", .errstr),
   ("anystr", .anystr), ("date", .date), ("fetch", .fetch), ("fetchboom", .fetchboom),
   ("coro", .coro), ("boom", .boom), ("boomkey", .boomkey), ("boomempty", .boomempty),
   ("boomspec", .boomspec), ("boomconst", .boomconst)]

/-- Name of a function. -/
def name (f : Function) : String := ((table.find? (fun e => e.2 = f)).map (·.1)).getD ""

/-- Number of arguments, if it is fixed. -/
def arity? : Function → Option Nat
  | .upper | .lower | .identity | .double | .len | .fetch => some 1
  | .add | .div | .append => some 2
  | .setkey => some 3
  | .pack | .packt | .count => Option.none
  | _ => some 0

end Function

/-- The sample classes. -/
inductive ClassName
  | counter | thing | ambiguous | hostile
deriving DecidableEq, Repr, Inhabited

namespace ClassName

/-- Every sample class with its name. -/
def table : List (String × ClassName) :=
  [("Counter", .counter), ("Thing", .thing), ("Ambiguous", .ambiguous), ("Hostile", .hostile)]

/-- Name of a class. -/
def name (c : ClassName) : String := ((table.find? (fun e => e.2 = c)).map (·.1)).getD ""

/-- Where a class lives: the store starts with the classes. -/
def location (c : ClassName) : Loc := table.findIdx (fun e => e.2 = c)

end ClassName

/-- The functions that hook sources define. -/
inductive HookFunction
  | double | single | name | put | read | has | names | toPair | make | boom | later | short
deriving DecidableEq, Repr, Inhabited

/-- What awaiting gives. -/
inductive Pending
  | value (v : Value)
  | fault (f : Fault)
  /-- Another object that has to be awaited. -/
  | again (v : Value)
deriving Repr, Inhabited

/-- A bag of attributes and the names that it guards. -/
structure Bag where
  attributes : List (String × Value)
  readOnly : List String
  unreadable : List String
  refused : List String
deriving Repr, Inhabited

/-- A sample object. -/
inductive Object
  /-- A function, with the number of its calls so far. -/
  | function (f : Function) (calls : Nat)
  | class_ (c : ClassName) (attributes : List (String × Value))
  | instance_ (c : ClassName) (attributes : List (String × Value))
  | bag (b : Bag)
  | module (name : String) (b : Bag) (exports : Option (List String))
  /-- The function that loads a module by name. -/
  | importer
  | hook (f : HookFunction)
  | pending (p : Pending)
deriving Repr, Inhabited

/-- Where the importer lives: behind the classes. -/
def importerLocation : Loc := ClassName.table.length

/-- The store before anything else is made: the classes and the importer. -/
def initialStore : Store Object :=
  ⟨(ClassName.table.map (fun e => Cell.object (.class_ e.2 []))).toArray.push (.object .importer),
    fun _ => []⟩

end Conformance.Sample
