import Conformance.Sample.Implementation

/-!
# A package to try specifications on

A module of sample functions and of the counter class, for running specification files without
any other implementation.
-/

namespace Conformance.Sample

/-- Name of the package. -/
def demonstrationName : String := "sample"

/-- Functions of the package by member name. -/
def demonstrationFunctions : List (String × Function) :=
  [("to_upper", .upper), ("to_lower", .lower), ("identity", .identity), ("add", .add),
   ("div", .div), ("twice", .double), ("length", .len), ("append", .append), ("pack", .pack),
   ("fetch", .fetch), ("fail", .boom)]

/-- Makes functions one after another. -/
def makeFunctions : List (String × Function) → Step (List (String × Value))
  | [] => return []
  | (name, f) :: rest => do
    let v ← Code.newObject (.function f 0)
    let others ← makeFunctions rest
    return (name, v) :: others

/-- Makes the package. -/
def demonstration : Step Package := do
  let members ← makeFunctions demonstrationFunctions
  let members := members ++ [(ClassName.counter.name, .object ClassName.counter.location)]
  let o ← Code.newObject (.module demonstrationName (Bag.make members [] [] []) none)
  return ⟨demonstrationName, .ok o, true⟩

end Conformance.Sample
