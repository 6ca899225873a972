import Conformance.Sample.Object
import Conformance.Text.Case
import Conformance.Text.Split

/-!
# Calls of sample objects
-/

namespace Conformance.Sample

/-- Running code of the sample implementation. -/
abbrev Step := Code Object

/-- A type fault of an argument. -/
def typeFault {α : Type} (message : String) : Step α := Code.raise .type "TypeError" message

/-- Decimal text of a count. -/
def count (n : Nat) : String := String.ofList (numeral n)

/-- Code that gives a value or fails. -/
def Pending.run : Pending → Step Value
  | .value v => return v
  | .fault f => throw f
  | .again v => return v

/-- A new object that has to be awaited. -/
def newPending (p : Pending) : Step Value := Code.newObject (.pending p)

/-- Upper or lower case of a text argument. -/
def mapCase (f : List Char → List Char) (v : Value) : Step Value :=
  match v with
  | .scalar s =>
    match s.text? with
    | some text => return .str (String.ofList (f text.toList))
    | none => typeFault "upper needs a string"
  | _ => typeFault "upper needs a string"

/-- An operation on two whole numbers. -/
def onIntegers (op : Int → Int → Step Int) (a b : Value) : Step Value :=
  match a, b with
  | .scalar (.int x), .scalar (.int y) => do return .int (← op x y)
  | _, _ => typeFault "add needs integers"

/-- Quotient rounded down. -/
def floorDiv (x y : Int) : Step Int :=
  if y = 0 then Code.raise .other "ZeroDivisionError" "division by zero"
  else return Int.fdiv x y

/-- Number of parts of a value. -/
def lengthOf (v : Value) : Step Value := do
  let store ← Code.store
  match v with
  | .scalar s =>
    match s.text? with
    | some text => return .int text.length
    | none => typeFault "no length"
  | .list location => return .int (store.items location).length
  | .tuple items => return .int items.length
  | .map location => return .int (store.entries location).length
  | .frozen entries => return .int entries.length
  | _ => typeFault "no length"

/-- Appends to a list in place. -/
def appendTo (target v : Value) : Step Value := do
  match target with
  | .list location =>
    Code.put location (.list ((← Code.store).items location ++ [v]))
    return target
  | _ => typeFault "not a list"

/-- Sets a key of a mapping in place. -/
def setKey (target key v : Value) : Step Value := do
  match target with
  | .map location =>
    match key.toKey with
    | .ok key =>
      Code.put location (.map (((← Code.store).entries location).set key v))
      return target
    | .error typeName => throw (.unhashable typeName)
  | _ => typeFault "not a map"

/-- What a sample function gives for as many arguments as it takes, where `calls` is the number
of its calls with this one. -/
def Function.apply (f : Function) (calls : Nat) (args : List Value) : Step Value :=
  match f, args with
  | .upper, [v] => mapCase Text.upper v
  | .lower, [v] => mapCase Text.lower v
  | .identity, [v] => return v
  | .add, [a, b] => onIntegers (fun x y => return x + y) a b
  | .div, [a, b] => onIntegers floorDiv a b
  | .double, [v] => Code.newList [v, v]
  | .len, [v] => lengthOf v
  | .append, [target, v] => appendTo target v
  | .setkey, [target, key, v] => setKey target key v
  | .pack, args => Code.newList args
  | .packt, args => return .tuple args
  | .count, _ => return .int (Int.ofNat calls)
  | .errstr, _ => return .str "ERROR"
  | .anystr, _ => return .str "ANY"
  | .date, _ => return .scalar (.date ⟨2020, 1, 2⟩)
  | .fetch, [v] => newPending (.value v)
  | .fetchboom, _ => newPending (.fault (.raised .other "RuntimeError" "late"))
  | .coro, _ => do newPending (.again (← newPending (.value .null)))
  | .boom, _ => Code.raise .other "RuntimeError" "boom"
  | .boomkey, _ => Code.raise .lookup "KeyError" "'k'"
  | .boomempty, _ => Code.raise .value "ValueError" ""
  | .boomspec, _ => Code.raise .specification "InvalidPackage" "inner"
  | .boomconst, _ => throw (.constantReassigned "inner")
  | _, _ => return .null

/-- Calls a sample function. -/
def callFunction (location : Loc) (f : Function) (calls : Nat) (args : List Value) : Step Value := do
  match f.arity? with
  | some n =>
    if args.length ≠ n then
      typeFault (f.name ++ " takes " ++ count n ++ " arguments but " ++ count args.length ++
        " were given")
    else f.apply 0 args
  | none =>
    Code.put location (.object (.function f (calls + 1)))
    f.apply (calls + 1) args

/-! ## Classes -/

/-- Where a new counter starts: at its argument, or at the key `start` of a mapping. -/
def counterStart (v : Value) : Step Value := do
  let found := fun (entries : Entries Value) => (entries.find? (.str "start")).getD (.int 0)
  match v with
  | .map location => return found ((← Code.store).entries location)
  | .frozen entries => return found entries
  | v => return v

/-- A new counter. -/
def newCounter (start : Value) : Step Value := do
  let history ← Code.newList []
  Code.newObject (.instance_ .counter [("count", start), ("history", history)])

/-- Calls a class. -/
def callClass (c : ClassName) (args : List Value) : Step Value :=
  match c, args with
  | .counter, [] => newCounter (.int 0)
  | .counter, [v] => do newCounter (← counterStart v)
  | .counter, _ => typeFault "Counter takes at most 1 argument"
  | .thing, _ => Code.raise .value "ValueError" "no things today"
  | c, [] => Code.newObject (.instance_ c [])
  | c, _ => typeFault (c.name ++ "() takes no arguments")

/-- Sum of two numbers; a boolean counts as zero or one. -/
def sum (a b : Value) : Step Value :=
  match a, b with
  | .scalar (.int x), .scalar (.int y) => return .int (x + y)
  | .scalar (.bool x), .scalar (.int y) => return .int (Scalar.ofBool x + y)
  | .scalar (.int x), .scalar (.bool y) => return .int (x + Scalar.ofBool y)
  | .scalar (.bool x), .scalar (.bool y) => return .int (Scalar.ofBool x + Scalar.ofBool y)
  | .scalar (.float x), .scalar (.float y) => return .scalar (.float (x.add y))
  | .scalar (.float x), .scalar (.int y) => return .scalar (.float (x.add (.ofInt y)))
  | .scalar (.int x), .scalar (.float y) => return .scalar (.float (Binary64.add (.ofInt x) y))
  | .scalar (.float x), .scalar (.bool y) =>
    return .scalar (.float (x.add (.ofInt (Scalar.ofBool y))))
  | .scalar (.bool x), .scalar (.float y) =>
    return .scalar (.float (Binary64.add (.ofInt (Scalar.ofBool x)) y))
  | .scalar (.str x), .scalar (.str y) => return .str (x ++ y)
  | a, b =>
    typeFault ("unsupported operand type(s) for +=: '" ++ a.typeName ++ "' and '" ++
      b.typeName ++ "'")

/-- Sum of a value and others. -/
def sumAll : Value → List Value → Step Value
  | total, [] => return total
  | total, v :: vs => do sumAll (← sum total v) vs

/-- The attributes of the instance at a location. -/
def attributesAt (location : Loc) : Step (List (String × Value)) := do
  match (← Code.store).object? location with
  | some (.instance_ _ attributes) => return attributes
  | _ => return []

/-- Sets an attribute of a counter. -/
def setCounter (location : Loc) (name : String) (v : Value) : Step Unit := do
  let attributes ← attributesAt location
  Code.put location (.object (.instance_ .counter (setNamed attributes name v)))

/-- Reads an attribute of a counter. -/
def counterAttribute (location : Loc) (name : String) : Step Value := do
  match named? (← attributesAt location) name with
  | some v => return v
  | none => throw (.noAttribute "Counter" name)

/-- A method with fixed arguments got others. -/
def tooMany (method : String) (given : Nat) : Step Value :=
  typeFault (method ++ "() takes 1 positional argument but " ++ count (given + 1) ++ " were given")

/-- Methods of a counter. -/
def counterMethods : List String := ["increment", "add_all", "get_history"]

/-- Calls a method of a counter. -/
def callCounter (location : Loc) (method : String) (args : List Value) : Step Value := do
  match method, args with
  | "increment", [] =>
    let next ← sum (← counterAttribute location "count") (.int 1)
    setCounter location "count" next
    let _ ← appendTo (← counterAttribute location "history") next
    return next
  | "add_all", args =>
    setCounter location "count" (← sumAll (← counterAttribute location "count") args)
    return .object location
  | "get_history", [] => counterAttribute location "history"
  | method, args => tooMany ("Counter." ++ method) args.length

/-! ## Importing -/

/-- The packages that can be loaded: by name, a value or a fault, and whether it is a module. -/
structure Package where
  name : String
  content : Except Fault Value
  isModule : Bool

/-- The part of a module name before its first dot. -/
def topName (name : String) : String :=
  match Text.splitAt? '.' name.toList with
  | some (top, _) => String.ofList top
  | none => name

/-- The fault of a name under which nothing can be loaded. -/
def notFound (name : String) : Fault :=
  if name = "" then .raised .value "ValueError" "Empty module name"
  else if name.toList.head? = some '.' then
    .raised .type "TypeError"
      ("the 'package' argument is required to perform a relative import for " ++ Fault.quote name)
  else .raised .other "ModuleNotFoundError" ("No module named " ++ Fault.quote (topName name))

/-- Loads a package by name. -/
def load (packages : List Package) (name : String) : Step Value :=
  match packages.find? (fun p => p.name == name) with
  | some p => ExceptT.mk (pure p.content)
  | none => throw (notFound name)

/-- Calls the importer, which loads modules only. -/
def callImporter (packages : List Package) (args : List Value) : Step Value :=
  match args with
  | [] => typeFault "import_module() missing 1 required positional argument: 'name'"
  | .scalar s :: _ =>
    match s.text? with
    | some name => load (packages.filter (·.isModule)) name
    | none => throw (.noAttribute s.typeName "startswith")
  | v :: _ => throw (.noAttribute v.typeName "startswith")

end Conformance.Sample
