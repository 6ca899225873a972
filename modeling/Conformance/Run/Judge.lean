import Conformance.Data.Canonical
import Conformance.Run.Execute

/-!
# Judging outcomes

Without an expected value, or with the marker for anything, an outcome passes unless it is a
failure.  Otherwise it passes if its canonical form equals that of the expected value, with
booleans told apart from numbers.  Values that cannot be compared are not equal.
-/

namespace Conformance

/-- Verdict on a feature. -/
inductive Status
  | passed
  | failed
  | skipped
  | comment
deriving DecidableEq, Repr, Inhabited

/-- Name of a verdict. -/
def Status.name : Status → String
  | .passed => "passed"
  | .failed => "failed"
  | .skipped => "skipped"
  | .comment => "comment"

/-- Judged outcome of a feature. -/
structure FeatureResult where
  feature : Feature
  status : Status
  outcome : Value
  detail : Option String

namespace FeatureResult

/-- The feature did not fail. -/
def passed (r : FeatureResult) : Bool := r.status != .failed

end FeatureResult

namespace Run

variable {ω : Type} (impl : Implementation ω)

/-- An expected value that every outcome but a failure meets. -/
def isOpen : Datum → Bool
  | .scalar .null => true
  | .scalar (.sentinel .any) => true
  | _ => false

/-- Equality of canonical forms. -/
def canonicallyEqual (actual expected : Datum) : Code ω Bool := do
  let a ← ExceptT.mk (pure actual.canonical)
  let e ← ExceptT.mk (pure expected.canonical)
  impl.equal a.strict e.strict

/-- The faults of a comparison that mean "not equal". -/
def isIncomparable (fault : Fault) : Bool := fault.family = .type || fault.family = .value

/-- Judges an outcome against an expected value. -/
def compare (actual expected : Datum) : Code ω Bool :=
  if isOpen expected then return !actual.isError
  else fun store =>
    match (canonicallyEqual impl actual expected).run.run store with
    | (.error fault, store) => (if isIncomparable fault then .ok false else .error fault, store)
    | (result, store) => (result, store)

/-- The datum of an expectation. -/
def expectationDatum : Expectation → Exec ω Datum
  | .resolved v => impl.datumNow v
  | .unresolved v => return v.datum

/-- Detail of a failed feature, with the values as they are after the comparison. -/
def failureDetail (outcome : Outcome) : Exec ω String := do
  match outcome.fault with
  | some fault => return "Exception: " ++ (fault.kind ++ ": " ++ fault.message)
  | none =>
    let actual ← impl.datumNow outcome.value
    let expected ← expectationDatum impl outcome.expected
    let actual ← ExceptT.mk (pure actual.detail)
    let expected ← ExceptT.mk (pure expected.detail)
    return "Assertion: " ++ actual ++ " != " ++ expected

/-- Binds the outcome of a feature that asks for it. -/
def bindOutcome (scope : ScopeId) (f : Feature) (v : Value) : Exec ω Unit :=
  match f.assign? with
  | none => return ()
  | some path => Scope.assign impl scope path v

/-- Judges the outcome of an executed feature. -/
def judge (f : Feature) (outcome : Outcome) : Exec ω FeatureResult := do
  let actual ← impl.datumNow outcome.value
  let expected ← expectationDatum impl outcome.expected
  if ← Exec.code (compare impl actual expected) then
    Exec.log .debug .runner ("Passed " ++ f.text)
    return ⟨f, .passed, outcome.value, none⟩
  else
    let detail ← failureDetail impl outcome
    Exec.log .debug .runner ("Failed " ++ f.text ++ " (" ++ detail ++ ")")
    return ⟨f, .failed, outcome.value, some detail⟩

/-- Executes, binds and judges a feature.  Comments and skipped features do nothing. -/
def runFeature (scope : ScopeId) (f : Feature) : Exec ω FeatureResult := do
  if f.isComment then return ⟨f, .comment, .null, none⟩
  else if f.skip then
    Exec.log .debug .runner ("Skipped " ++ f.text)
    return ⟨f, .skipped, .null, none⟩
  else
    let outcome ← execute impl scope f
    bindOutcome impl scope f outcome.value
    judge impl f outcome

end Run

end Conformance
