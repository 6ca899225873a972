import Conformance.Fault
import Conformance.Files.Path
import Conformance.Text.Utf8

/-!
# File trees

What is stored under names: files with their content, and directories.  A directory is there as
soon as something lies beneath it.  A path leads through directories only, so two dots behind a
file lead nowhere.
-/

namespace Conformance

/-- What is stored at a place. -/
inductive FileEntry
  /-- A file, with its bytes or the fault of reading them. -/
  | file (content : Except Fault (List UInt8))
  | directory

/-- Entries by place.  Of two at one place the later counts. -/
abbrev FileTree := List (List String × FileEntry)

namespace FileTree

/-- The entry at a place. -/
def entry? (t : FileTree) (place : List String) : Option FileEntry :=
  (t.reverse.find? (fun e => e.1 == place)).map (·.2)

/-- The name that follows a place on the way to another. -/
def nextName? : List String → List String → Option String
  | [], name :: _ => some name
  | n :: place, m :: other => if n = m then nextName? place other else none
  | _, [] => none

/-- Names directly beneath a place. -/
def namesAt (t : FileTree) (place : List String) : List String :=
  (t.filterMap fun e => nextName? place e.1).eraseDups

/-- A file at a place. -/
def isFileAt (t : FileTree) (place : List String) : Bool :=
  match t.entry? place with
  | some (.file _) => true
  | _ => false

/-- A directory at a place.  The root is one. -/
def isDirectoryAt (t : FileTree) (place : List String) : Bool :=
  match t.entry? place with
  | some (.file _) => false
  | some .directory => true
  | none => place.isEmpty || !(t.namesAt place).isEmpty

/-- The place that names lead to from a place: through directories. -/
def follow? (t : FileTree) (place : List String) : List String → Option (List String)
  | [] => some place
  | name :: names =>
    if !t.isDirectoryAt place then none
    else if name = ".." then t.follow? place.dropLast names
    else t.follow? (place ++ [name]) names

/-- The place of a path that is followed from the root. -/
def place? (t : FileTree) (p : Path) : Option (List String) := t.follow? [] p.names

/-- A path that leads to a file. -/
def isFile (t : FileTree) (p : Path) : Bool := (t.place? p).any t.isFileAt

/-- A path that leads to a directory. -/
def isDirectory (t : FileTree) (p : Path) : Bool := (t.place? p).any t.isDirectoryAt

/-- Names in the directory that a path leads to. -/
def names (t : FileTree) (p : Path) : List String :=
  match t.place? p with
  | some place => if t.isDirectoryAt place then t.namesAt place else []
  | none => []

/-- Bytes of the file that a path leads to. -/
def bytes (t : FileTree) (p : Path) : Except Fault (List UInt8) :=
  match (t.place? p).bind t.entry? with
  | some (.file content) => content
  | _ => .error (if t.isDirectory p then .isDirectory p.render else .noFile p.render)

/-- A text in which every line ends with a line feed. -/
def unifyLineEnds : List Char → List Char
  | [] => []
  | '\r' :: '\n' :: rest => '\n' :: unifyLineEnds rest
  | '\r' :: rest => '\n' :: unifyLineEnds rest
  | c :: rest => c :: unifyLineEnds rest

/-- Text of the file that a path leads to. -/
def text (t : FileTree) (p : Path) : Except Fault (List Char) := do
  match Text.decodeUtf8 (← t.bytes p) with
  | .ok cs => return unifyLineEnds cs
  | .error why => throw (.undecodable why)

end FileTree

end Conformance
