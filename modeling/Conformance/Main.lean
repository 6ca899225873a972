import Conformance.CommandLine.Program
import Conformance.CommandLine.Usage
import Conformance.Sample.Demonstration
import Conformance.Sample.HookSource
import Conformance.Yaml.Documents

/-!
# The command

Reads the files that a command line leads to, lets the program work on them, and prints what it
printed.  Specifications are checked against the sample implementation.
-/

namespace Conformance.Command

/-- Content of a file, or why it cannot be read. -/
def readContent (p : Path) : IO (Except Fault (List UInt8)) := do
  try
    return .ok (← IO.FS.readBinFile p.render).toList
  catch e => return .error (.raised .system "OSError" e.toString)

/-- What is stored at a path of the file system. -/
def readEntry (place : List String) (p : Path) : IO FileTree := do
  try
    let directory ← IO.currentDir
    match (← (directory / p.render).metadata).type with
    | .dir => return [(place, .directory)]
    | .file => return [(place, .file (← readContent p))]
    | _ => return []
  catch _ => return []

/-- Specification files in a directory of the file system. -/
def readDirectory (place : List String) (p : Path) : IO FileTree := do
  try
    let directory ← IO.currentDir
    let names := (← (directory / p.render).readDir).toList.map (·.fileName)
    let entries ← (names.filter FileTree.hasEnding).mapM fun name =>
      readEntry (place ++ [name]) (p.child name)
    return entries.flatten
  catch _ => return []

/-- What lies on the way along a path, and beneath it. -/
def readWay (start : PathStart) (seen place : List String) : List String → IO FileTree
  | [] => readDirectory place ⟨start, seen⟩
  | name :: names => do
    let seen := seen ++ [name]
    let place := if name = ".." then place.dropLast else place ++ [name]
    let here ← readEntry place ⟨start, seen⟩
    return here ++ (← readWay start seen place names)

/-- Everything that a path may lead to. -/
def readTree (p : Path) : IO FileTree := readWay p.start [] [] p.names

/-- Everything that options may lead to. -/
def readFor (directory : Path) (options : CommandLine.Options) : IO FileTree := do
  match options.path with
  | some path => readTree (directory.join (Path.ofText path))
  | none =>
    let file ← readTree (directory.child FileTree.defaultFile)
    return file ++ (← readTree (directory.child FileTree.defaultDirectory))

/-- Checks specifications and prints the reports. -/
def runCheck (options : CommandLine.Options) : IO UInt32 := do
  let directory := Path.ofText (← IO.currentDir).toString
  let environment : Environment :=
    ⟨← IO.getEnv Environment.targetName, ← IO.getEnv Environment.pathName⟩
  let surroundings : CommandLine.Surroundings :=
    ⟨← readFor directory options, directory, environment⟩
  let work : Exec Sample.Object CommandLine.ExitCode := do
    let package ← Exec.code Sample.demonstration
    CommandLine.check (Sample.implementation [package]) Yaml.documents Sample.loadSource
      surroundings options
  let (result, world) := work.run.run (World.ofStore Sample.initialStore)
  for record in world.log do
    if options.verbose || record.level == .warning then IO.eprintln record.line
  for text in world.output do
    IO.println text
  match result with
  | .ok code => return code.toUInt32
  | .error fault =>
    IO.eprintln fault.describe
    return 1

end Conformance.Command

open Conformance in
/-- The command. -/
def main (arguments : List String) : IO UInt32 := do
  match CommandLine.request arguments with
  | .error refusal =>
    IO.eprintln CommandLine.usage
    IO.eprintln ("packspec: error: " ++ refusal.message)
    return CommandLine.refusedCode.toUInt32
  | .ok .help =>
    IO.println CommandLine.help
    return 0
  | .ok (.check options) => Command.runCheck options
