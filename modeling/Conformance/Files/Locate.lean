import Conformance.Files.Tree

/-!
# Locating specification files

A path that is given names a file or a directory whose files are taken.  Without one, a file of
the default name counts, or else the files in a directory of the default name.  Files of a
directory are those with the ending of specification files, in order of their names.
-/

namespace Conformance.FileTree

/-- Name of the file that is looked for first. -/
def defaultFile : String := "packspec.yml"

/-- Name of the directory that is looked for next. -/
def defaultDirectory : String := "packspec"

/-- Ending of the names of specification files. -/
def ending : String := ".yml"

/-- A name with the ending of specification files. -/
def hasEnding (name : String) : Bool := ending.toList.isSuffixOf name.toList

/-- Specification files in a directory. -/
def specificationsIn (t : FileTree) (directory : Path) : List Path :=
  (((t.names directory).filter hasEnding).mergeSort (fun a b => a ≤ b)).map directory.child

/-- Specification files that a path leads to. -/
def specificationsAt (t : FileTree) (p : Path) : List Path :=
  if t.isFile p then [p] else if t.isDirectory p then t.specificationsIn p else []

/-- Specification files for a path that may be given, seen from a directory. -/
def locate (t : FileTree) (base : Path) (path? : Option String) : List Path :=
  match path? with
  | some path => t.specificationsAt (base.join (Path.ofText path))
  | none =>
    let file := base.child defaultFile
    if t.isFile file then [file] else t.specificationsIn (base.child defaultDirectory)

end Conformance.FileTree
