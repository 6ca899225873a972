import Conformance.Discovery
import Conformance.Run.Report

/-!
# Test sessions

A session of a test framework makes one test of each discovered specification, named after its
package, if the test asks for a specification.  All tests share what they run in.  A specification
that could not be run to its end is an error; one with a failed feature fails with its report.
-/

namespace Conformance.Session

/-- Verdict of a test. -/
inductive Verdict
  | passed
  /-- Failed, with the report of the specification. -/
  | failed (report : String)
  /-- Ended by a fault, with what is told of it. -/
  | error (message : String)
deriving DecidableEq, Repr, Inhabited

/-- Options of a session. -/
structure Options where
  path : Option String
  target : Option String
deriving DecidableEq, Repr, Inhabited

/-- The argument by which a test asks for a specification. -/
def argumentName : String := "packspec_spec"

/-- Verdict on the report of a specification. -/
def verdict (r : SpecificationResult) : Verdict :=
  match r.error with
  | some error => .error ("Specification error in " ++ r.package ++ ": " ++ error)
  | none => if r.success then .passed else .failed r.format

variable {ω : Type}

/-- Specifications that a session makes tests of. -/
def specifications (reader : DocumentReader) (loader : HookLoader ω) (tree : FileTree)
    (directory : Path) (environment : Environment) (options : Options) :
    Except Fault (Discovery ω) :=
  Discovery.discover reader loader tree directory (environment.pathFor options.path)
    (environment.targetFor options.target)

/-- Runs a test for each specification.  Tells its name and verdict. -/
def runTests (impl : Implementation ω) :
    List (Specification ω) → Exec ω (List (String × Verdict))
  | [] => return []
  | spec :: specs => do
    let r ← Run.runSpecification impl (fun _ => return ()) spec
    let rest ← runTests impl specs
    return (spec.package, verdict r) :: rest

/-- The tests of a session, if a test with given arguments asks for specifications. -/
def run (impl : Implementation ω) (reader : DocumentReader) (loader : HookLoader ω)
    (tree : FileTree) (directory : Path) (environment : Environment) (options : Options)
    (arguments : List String) : Exec ω (Option (List (String × Verdict))) := do
  if arguments.contains argumentName then
    let found ← ExceptT.mk (pure (specifications reader loader tree directory environment options))
    return some (← runTests impl found.specifications)
  else return none

end Conformance.Session
