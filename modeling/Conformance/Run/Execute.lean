import Conformance.Scope.Call
import Conformance.Scope.Resolve

/-!
# Executing features

A feature binds a value, reads an operand or calls one.  A failure of the implementation is no
fault of the run: it becomes the failure marker as the outcome, with the fault beside it.
-/

namespace Conformance

/-- What an outcome is compared with: the resolved expected value, or, if that could not be
resolved, the value as authored. -/
inductive Expectation
  | resolved (v : Value)
  | unresolved (v : Literal)

/-- What executing a feature gave. -/
structure Outcome where
  value : Value
  expected : Expectation
  fault : Option Fault

namespace Outcome

/-- An outcome without a failure. -/
def done (value expected : Value) : Outcome := ⟨value, .resolved expected, none⟩

/-- An outcome of a failure. -/
def failed (expected : Expectation) (fault : Fault) : Outcome := ⟨.error, expected, some fault⟩

end Outcome

namespace Run

variable {ω : Type} (impl : Implementation ω) (scope : ScopeId)

/-- The value a read gives. -/
def readOperand (property : String) : Exec ω Value := do
  let operand ← Scope.lookup impl scope property
  if operand.kind = .missing then throw (.unbound property)
  return operand.value

/-- Keyword arguments as one last mapping, if there are any. -/
def keywordArgument (kwargs : List (Key × Value)) : Code ω (List Value) :=
  if kwargs.isEmpty then return [] else do return [← Code.newMap kwargs]

/-- What a call does before it calls: it looks up the operand, resolves the arguments and makes
sure that the operand can be called. -/
def prepareCall (property : String) (args : List Literal) (kwargs : List (String × Literal)) :
    Exec ω (Value × List Value) := do
  let operand ← Scope.lookup impl scope property
  if operand.kind = .missing then throw (.unbound property)
  let args ← Scope.resolveAll impl scope args
  let kwargs ← Scope.resolveEntries impl scope (kwargs.map fun kw => (Key.str kw.1, kw.2))
  let last ← Exec.code (keywordArgument kwargs)
  if operand.kind = .value then throw (.notCallable property)
  let verb := if operand.kind = .constructible then "Constructing " else "Calling "
  Exec.log .debug .runner (verb ++ property)
  return (operand.value, args ++ last)

/-- The value a call gives. -/
def callOperand (property : String) (args : List Literal) (kwargs : List (String × Literal)) :
    Exec ω Value := do
  let (callee, args) ← prepareCall impl scope property args kwargs
  let v ← Scope.call impl callee args
  Scope.awaited impl v

/-- The value an operation gives; the expected value if it only binds. -/
def operate (action : Action) (expected : Value) : Exec ω Value :=
  match action with
  | .comment _ => return .null
  | .bind _ _ => return expected
  | .read _ property _ => readOperand impl scope property
  | .call _ property args kwargs _ => callOperand impl scope property args kwargs

/-- Executes a feature. -/
def execute (f : Feature) : Exec ω Outcome := do
  match ← Exec.attempt (Scope.resolve impl scope f.expected) with
  | .error fault => return .failed (.unresolved f.expected) fault
  | .ok expected =>
    match ← Exec.attempt (operate impl scope f.action expected) with
    | .error fault => return .failed (.resolved expected) fault
    | .ok value => return .done value expected

end Run

end Conformance
