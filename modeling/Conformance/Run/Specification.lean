import Conformance.Run.Judge
import Conformance.Specification.Merge
import Conformance.Specification.Parse

/-!
# Running specifications

A specification runs on a scope of its own: the public members of its package, the importer, and
its hooks.  Its features run in order; a mistake of the author ends the run and is kept as text
with the results up to there.  Other faults, which the implementation causes outside an
operation, end the whole run.
-/

namespace Conformance

/-- Report of one specification. -/
structure SpecificationResult where
  package : String
  results : List FeatureResult
  /-- Features that are no comment. -/
  total : Nat
  /-- Skipped ones of them. -/
  skipped : Nat
  error : Option String
  scope : Option ScopeId

namespace SpecificationResult

/-- Number of passed features. -/
def passedCount (r : SpecificationResult) : Nat := r.results.countP (fun f => f.status == .passed)

/-- Number of features that were to be tested. -/
def testedCount (r : SpecificationResult) : Int := (r.total : Int) - r.skipped

/-- Results of failed features. -/
def failed (r : SpecificationResult) : List FeatureResult :=
  r.results.filter (fun f => f.status == .failed)

/-- No feature failed and nothing ended the run. -/
def success (r : SpecificationResult) : Bool := r.error.isNone && r.failed.isEmpty

end SpecificationResult

/-- Report of a run. -/
abbrev RunResult := List SpecificationResult

/-- Every specification succeeded. -/
def RunResult.success (r : RunResult) : Bool := r.all (·.success)

namespace Run

variable {ω : Type} (impl : Implementation ω)

/-- Name under which the importer is bound. -/
def importName : String := "$import"

/-- Reads members of a package one after another. -/
def readMembers (location : Loc) (o : ω) : List String → Code ω Bindings
  | [] => return []
  | name :: names => do
    let v ← impl.read location o name
    let rest ← readMembers location o names
    return (name, v) :: rest

/-- The names of a package that a scope starts with: those listed for export, or else the public
ones in order. -/
def publicNames (o : ω) : List String :=
  match impl.exports? o with
  | some names => names
  | none => ((impl.names o).filter (fun name => !isPrivate name)).mergeSort (fun a b => a ≤ b)

/-- Entries of a mapping whose keys are texts. -/
def textEntries : Entries Value → Bindings
  | [] => []
  | (k, v) :: es =>
    match k.text? with
    | some name => (name, v) :: textEntries es
    | none => textEntries es

/-- Public members of a package. -/
def publicMembers (package : Value) : Code ω Bindings := do
  let store ← Code.store
  match package with
  | .map location => return textEntries (store.entries location)
  | .object location =>
    match store.object? location with
    | some o =>
      let members ← readMembers impl location o (publicNames impl o)
      return members.foldl (fun acc m => setNamed acc m.1 m.2) []
    | none => return []
  | _ => return []

/-- Loads a package and reads its public members. -/
def loadMembers (package : String) : Exec ω Bindings := do
  match ← Exec.attempt (Exec.code (do publicMembers impl (← impl.load package))) with
  | .ok members => return members
  | .error fault => throw (.invalidPackage package fault.message)

/-- The scope that a specification starts with. -/
def buildScope (spec : Specification ω) : Exec ω ScopeId := do
  let members ← loadMembers impl spec.package
  let scope ← Exec.newScope (setNamed members importName impl.importer)
  Scope.installHooks scope spec.hooks
  return scope

/-- What happens with each result as soon as the feature is judged. -/
abbrev Listener (ω : Type) := FeatureResult → Exec ω Unit

/-- Runs features in order.  A fault stops them; the results up to there are kept. -/
def runFeatures (listener : Listener ω) (scope : ScopeId) :
    List Feature → Exec ω (List FeatureResult × Option Fault)
  | [] => return ([], none)
  | f :: fs => do
    match ← Exec.attempt (runFeature impl scope f) with
    | .error fault => return ([], some fault)
    | .ok r =>
      listener r
      let (rs, fault) ← runFeatures listener scope fs
      return (r :: rs, fault)

/-- The report of a specification before anything is run. -/
def startResult (spec : Specification ω) : SpecificationResult :=
  ⟨spec.package, [], spec.stats.tests, spec.stats.skipped, none, none⟩

/-- Ends the run of a specification by a fault: a mistake of the author is noted in the report,
any other fault goes on. -/
def abort (result : SpecificationResult) (fault : Fault) : Exec ω SpecificationResult :=
  if fault.isAuthoring then do
    Exec.log .warning .runner
      ("Specification " ++ result.package ++ " aborted: " ++ fault.message)
    return { result with error := some fault.describe }
  else throw fault

/-- Runs a specification that was read without a fault. -/
def runLoaded (listener : Listener ω) (spec : Specification ω) : Exec ω SpecificationResult := do
  match ← Exec.attempt (buildScope impl spec) with
  | .error fault => abort (startResult spec) fault
  | .ok scope =>
    let (results, fault) ← runFeatures impl listener scope spec.features
    let result := { startResult spec with results, scope := some scope }
    match fault with
    | none => return result
    | some fault => abort result fault

/-- Runs a specification. -/
def runSpecification (listener : Listener ω) (spec : Specification ω) :
    Exec ω SpecificationResult := do
  match spec.error with
  | some fault =>
    Exec.log .warning .runner
      ("Specification " ++ spec.package ++ " failed to load: " ++ fault.describe)
    return { startResult spec with error := some fault.describe }
  | none => runLoaded impl listener spec

/-- Runs specifications one after another. -/
def runAll (listener : Listener ω) : List (Specification ω) → Exec ω RunResult
  | [] => return []
  | spec :: specs => do
    let r ← runSpecification impl listener spec
    let rs ← runAll listener specs
    return r :: rs

end Run

end Conformance
