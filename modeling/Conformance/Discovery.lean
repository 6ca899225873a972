import Conformance.Environment
import Conformance.Files.Locate
import Conformance.Specification.Merge
import Conformance.Specification.Parse

/-!
# Discovery

The specifications of all located files, merged by package.  A file that cannot be read, or whose
first document is no YAML, gives a specification named after the file that carries the fault, as
the package it declares is not known; so it cannot be overlooked.  A file that declares no package
for the target gives nothing.
-/

namespace Conformance

/-- Specifications that were found, and files that could not be loaded. -/
structure Discovery (ω : Type) where
  specifications : List (Specification ω)
  failures : List (Path × Fault)

namespace Discovery

variable {ω : Type}

/-- The faults that stand for a file that cannot be loaded. -/
def isLoadFault (fault : Fault) : Bool := fault.family = .system || fault.family = .yaml

/-- Documents of a file. -/
def documentsOf (reader : DocumentReader) (tree : FileTree) (file : Path) :
    Except Fault Documents :=
  (tree.text file).map reader

/-- The specification of a file, if it declares a package for the target. -/
def fileSpecification (loader : HookLoader ω) (target : String)
    (content : Path → Except Fault Documents) (file : Path) :
    Except Fault (Option (Specification ω)) := do
  Specification.parse loader target (some file.render) (← content file)

/-- The specifications of files one after another. -/
def collect (loader : HookLoader ω) (target : String) (content : Path → Except Fault Documents) :
    List Path → Except Fault (Discovery ω)
  | [] => .ok ⟨[], []⟩
  | file :: files =>
    match fileSpecification loader target content file with
    | .ok found => do
      let rest ← collect loader target content files
      return { rest with specifications := found.toList ++ rest.specifications }
    | .error fault =>
      if isLoadFault fault then do
        let rest ← collect loader target content files
        return ⟨Specification.broken file.name file.render fault :: rest.specifications,
          (file, fault) :: rest.failures⟩
      else .error fault

/-- The specifications of files, merged by package. -/
def ofFiles (loader : HookLoader ω) (target : String) (content : Path → Except Fault Documents)
    (files : List Path) : Except Fault (Discovery ω) := do
  let found ← collect loader target content files
  return { found with specifications := Specification.merge found.specifications }

/-- The specifications for a target that a path leads to. -/
def discover (reader : DocumentReader) (loader : HookLoader ω) (tree : FileTree) (base : Path)
    (path? : Option String) (target : String) : Except Fault (Discovery ω) :=
  ofFiles loader target (documentsOf reader tree) (tree.locate base path?)

end Discovery

end Conformance
