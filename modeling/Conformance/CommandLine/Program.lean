import Conformance.CommandLine.Request
import Conformance.Discovery
import Conformance.Run.Report

/-!
# The program

A check prints what it is about, and then for each specification a line of dashes, its results as
they are judged, and its summary.  Every specification runs, whatever became of the ones before
it.  The exit code is 0 only if there is a specification and all of them succeed; a command line
that is refused gives 2.
-/

namespace Conformance.CommandLine

/-- Exit code of a program that ends. -/
abbrev ExitCode := Nat

/-- What the program works on: files, the working directory, and settings. -/
structure Surroundings where
  tree : FileTree
  directory : Path
  environment : Environment

variable {ω : Type} (impl : Implementation ω)

/-- Prints a result as soon as it is judged. -/
def printResult : Run.Listener ω := fun r => Exec.print r.format

/-- Runs a specification and prints its report. -/
def printSpecification (spec : Specification ω) : Exec ω Bool := do
  Exec.print "---"
  let r ← Run.runSpecification impl printResult spec
  Exec.print ""
  Exec.print r.summary
  Exec.print ""
  return r.success

/-- Runs specifications one after another.  Tells whether all of them succeed. -/
def printSpecifications : List (Specification ω) → Exec ω Bool
  | [] => return true
  | spec :: specs => do
    let success ← printSpecification impl spec
    let others ← printSpecifications specs
    return success && others

/-- Line that a check starts with. -/
def heading (target : String) : String := "\n #  packspec (" ++ target ++ ")\n"

/-- Line of a check that finds nothing. -/
def nothingFound (target : String) : String := "No " ++ target ++ " specifications found."

/-- Exit code of a check. -/
def codeOf (success : Bool) : ExitCode := if success then 0 else 1

/-- Exit code of a command line that is refused. -/
def refusedCode : ExitCode := 2

/-- Notes the files that cannot be loaded. -/
def logFailures : List (Path × Fault) → Exec ω Unit
  | [] => return ()
  | (file, fault) :: rest => do
    Exec.log .warning .discovery ("Failed to load " ++ file.render ++ ": " ++ fault.message)
    logFailures rest

/-- Prints the reports of specifications for a target. -/
def printReports (target : String) (specs : List (Specification ω)) : Exec ω ExitCode := do
  if specs.isEmpty then
    Exec.print (nothingFound target)
    return codeOf false
  else
    Exec.print (heading target)
    return codeOf (← printSpecifications impl specs)

/-- Discovers specifications and prints their reports. -/
def check (reader : DocumentReader) (loader : HookLoader ω) (s : Surroundings)
    (options : Options) : Exec ω ExitCode := do
  let target := s.environment.targetFor options.target
  let found ← ExceptT.mk (pure
    (Discovery.discover reader loader s.tree s.directory options.path target))
  logFailures found.failures
  printReports impl target found.specifications

/-- Does what arguments ask for.  The text of help is not the program's matter. -/
def program (reader : DocumentReader) (loader : HookLoader ω) (s : Surroundings)
    (arguments : List String) : Exec ω ExitCode :=
  match request arguments with
  | .error _ => return refusedCode
  | .ok .help => return codeOf true
  | .ok (.check options) => check impl reader loader s options

end Conformance.CommandLine
