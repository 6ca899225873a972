import Conformance.Specification.Basic

/-!
# Merging specifications

Specifications of one package become one, in the order in which the packages first appear.  A
package is declared once, so the declaration that starts a later part is left out.  Of the
faults of the parts the first is kept.
-/

namespace Conformance.Specification

variable {ω : Type}

/-- The features of a part that is not the first of its package: all but a leading binding of
the package key. -/
def withoutDeclaration : List Feature → List Feature
  | [] => []
  | f :: fs => if f.assign? = some FeatureKey.packageKey then fs else f :: fs

/-- A specification with a later part of the same package added. -/
def append (s part : Specification ω) : Specification ω where
  package := s.package
  features := s.features ++ withoutDeclaration part.features
  hooks := part.hooks.foldl (fun acc h => setNamed acc h.1 h.2) s.hooks
  sources := s.sources ++ part.sources
  error := s.error.or part.error

/-- Adds a part to the specification of its package, or at the end if there is none. -/
def insert : List (Specification ω) → Specification ω → List (Specification ω)
  | [], part => [part]
  | s :: rest, part =>
    if s.package = part.package then s.append part :: rest else s :: insert rest part

/-- The specifications with one for each package. -/
def merge (specs : List (Specification ω)) : List (Specification ω) := specs.foldl insert []

end Conformance.Specification
