import Conformance.Feature.Parse

/-!
# Specifications

All features declared for one package, the hooks that come with them, and the files they were
read from.  A specification that could not be read to its end carries the fault that stopped it;
it still has the features read before.
-/

namespace Conformance

/-- The features of a package.  Hook functions are of type `ω`. -/
structure Specification (ω : Type) where
  package : String
  features : List Feature
  hooks : List (String × ω)
  sources : List String
  error : Option Fault

/-- How many features a specification has: all, comments, features that are no comment, and
those of them that are skipped. -/
structure Stats where
  features : Nat
  comments : Nat
  tests : Nat
  skipped : Nat
deriving DecidableEq, Repr, Inhabited

namespace Specification

variable {ω : Type}

/-- Counts of features. -/
def statsOf (features : List Feature) : Stats where
  features := features.length
  comments := features.countP (·.isComment)
  tests := features.countP (fun f => !f.isComment)
  skipped := features.countP (fun f => !f.isComment && f.skip)

/-- Counts of a specification's features. -/
def stats (s : Specification ω) : Stats := statsOf s.features

/-- A specification that nothing is known of but a fault. -/
def broken (package source : String) (fault : Fault) : Specification ω :=
  ⟨package, [], [], [source], some fault⟩

end Specification

end Conformance
