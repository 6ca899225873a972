import Conformance.Sample.Call

/-!
# Sample hooks

The functions that hook sources can define.  A hook takes its scope and further arguments; its
parameters are named so that a call with too few or too many can say what is wrong.
-/

namespace Conformance.Sample

namespace HookFunction

/-- Name in the definition. -/
def definedName : HookFunction → String
  | .double | .single => "double"
  | .name => "name"
  | .put => "put"
  | .read => "read"
  | .has => "has"
  | .names => "names"
  | .toPair => "to_pair"
  | .make => "Make"
  | .boom => "boom"
  | .later => "later"
  | .short => "<lambda>"

/-- Parameters after the scope. -/
def parameters : HookFunction → List String
  | .double | .single | .later => ["value"]
  | .put => ["path", "value"]
  | .read | .has => ["path"]
  | .toPair => ["a", "b"]
  | _ => []

end HookFunction

/-- Quoted names in a sentence: with commas, and with `and` before the last. -/
def listed : List String → String
  | [] => ""
  | [a] => "'" ++ a ++ "'"
  | [a, b] => "'" ++ a ++ "' and '" ++ b ++ "'"
  | a :: rest => "'" ++ a ++ "', " ++ listed rest

/-- The fault of a call with the wrong number of arguments. -/
def arityFault (f : HookFunction) (given : Nat) : Fault :=
  let parameters := f.parameters
  let plural := fun (n : Nat) => if n = 1 then "" else "s"
  let message :=
    if given < parameters.length then
      let missing := parameters.drop given
      "() missing " ++ count missing.length ++ " required positional argument" ++
        plural missing.length ++ ": " ++ listed missing
    else
      "() takes " ++ count (parameters.length + 1) ++ " positional argument" ++
        plural (parameters.length + 1) ++ " but " ++ count (given + 1) ++ " were given"
  .raised .type "TypeError" (f.definedName ++ message)

/-- A hook that runs code and gives its result. -/
def giving (step : Step Value) : Script Object := .code step .done

/-- A path argument. -/
def pathOfValue? : Value → Option String
  | .scalar s => s.text?
  | _ => none

/-- Goes on with a path argument. -/
def withPath (v : Value) (next : String → Script Object) : Script Object :=
  match pathOfValue? v with
  | some path => next path
  | none => .done (.error (.noAttribute v.typeName "split"))

/-- A hook called with its arguments. -/
def HookFunction.script (f : HookFunction) (args : List Value) : Script Object :=
  match f, args with
  | .double, [v] => giving (Code.newList [v, v])
  | .single, [v] => .done (.ok v)
  | .name, [] => .get "PACKAGE" .done
  | .put, [path, v] =>
    withPath path fun path => .assign path v fun
      | .ok () => .done (.ok v)
      | .error fault => .done (.error fault)
  | .read, [path] => withPath path fun path => .get path .done
  | .has, [path] =>
    withPath path fun path => .get path fun
      | .ok _ => .done (.ok (.scalar (.bool true)))
      | .error fault =>
        if fault.family = .lookup then .done (.ok (.scalar (.bool false)))
        else .done (.error fault)
  | .names, [] => .names fun names => giving (Code.newList (names.map .str))
  | .toPair, [a, b] => .done (.ok (.tuple [a, b]))
  | .make, [] => giving (Code.newMap [])
  | .boom, [] => .done (.error (.raised .other "RuntimeError" "hook boom"))
  | .later, [v] => giving (newPending (.value v))
  | .short, [] => .done (.ok (.int 1))
  | f, args => .done (.error (arityFault f args.length))

end Conformance.Sample
