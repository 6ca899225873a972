import Conformance.Run.Specification

/-!
# Reports

The plain text of results: a line for each feature, with the detail of a failure on a line of
its own, and a summary for each specification.
-/

namespace Conformance

/-- Mark in front of a feature's line. -/
def Status.glyph : Status → String
  | .passed => "+"
  | .failed => "x"
  | .skipped => "-"
  | .comment => "#"

namespace FeatureResult

/-- Text of a result.  A comment has blank lines around it. -/
def format (r : FeatureResult) : String :=
  match r.status with
  | .comment => "\n " ++ r.status.glyph ++ "  " ++ r.feature.text ++ "\n"
  | _ =>
    let line := " " ++ r.status.glyph ++ "  " ++ r.feature.text
    match r.detail with
    | some detail => if detail = "" then line else line ++ "\n    " ++ detail
    | none => line

end FeatureResult

namespace SpecificationResult

/-- Decimal text of a count. -/
def countText (i : Int) : String := String.ofList (integer i)

/-- Last line of a specification's report: how many features passed, or what ended the run. -/
def summary (r : SpecificationResult) : String :=
  match r.error with
  | some error => " !  " ++ r.package ++ ": specification error: " ++ error
  | none =>
    let status := if r.success then Status.passed else Status.failed
    " " ++ status.glyph ++ "  " ++ r.package ++ ": " ++ countText r.passedCount ++ "/" ++
      countText r.testedCount

/-- Report of a specification. -/
def format (r : SpecificationResult) : String :=
  "\n".intercalate (r.results.map (·.format) ++ ["", r.summary])

end SpecificationResult

/-- Report of a run. -/
def RunResult.format (r : RunResult) : String := "\n\n".intercalate (r.map (·.format))

end Conformance
