import Conformance.Sample.Hook

/-!
# Hook sources

Hook source is a sequence of snippets.  Most define a function, some only do something else, and
some fail.  Source that is no sequence of snippets, blank lines and comments is a syntax error,
which is found before anything is defined.
-/

namespace Conformance.Sample

/-- What a snippet does when it is loaded. -/
inductive Statement
  | define (name : String) (f : HookFunction)
  /-- A second name for the function of a name. -/
  | alias (name target : String)
  /-- Nothing that concerns hooks. -/
  | pass
  | fail (reason : String)
  | invalid
deriving DecidableEq, Repr, Inhabited

/-- A snippet: the name it is known by, its lines, and what it does. -/
structure Snippet where
  name : String
  lines : List String
  statement : Statement
deriving Repr, Inhabited

namespace Snippet

/-- Every snippet. -/
def table : List Snippet :=
  [⟨"double", ["def double(scope, value):", "    return [value, value]"], .define "double" .double⟩,
   ⟨"single", ["def double(scope, value):", "    return value"], .define "double" .single⟩,
   ⟨"name", ["def name(scope):", "    return scope.get('PACKAGE')"], .define "name" .name⟩,
   ⟨"put", ["def put(scope, path, value):", "    scope.assign(path, value)", "    return value"],
     .define "put" .put⟩,
   ⟨"read", ["def read(scope, path):", "    return scope.get(path)"], .define "read" .read⟩,
   ⟨"has", ["def has(scope, path):", "    return path in scope"], .define "has" .has⟩,
   ⟨"names", ["def names(scope):", "    return scope.names()"], .define "names" .names⟩,
   ⟨"toPair", ["def to_pair(scope, a, b):", "    return (a, b)"], .define "to_pair" .toPair⟩,
   ⟨"Make", ["def Make(scope):", "    return \x7b\x7d"], .define "Make" .make⟩,
   ⟨"boom", ["def boom(scope):", "    raise RuntimeError('hook boom')"], .define "boom" .boom⟩,
   ⟨"later", ["async def later(scope, value):", "    return value"], .define "later" .later⟩,
   ⟨"alias", ["alias = double"], .alias "alias" "double"⟩,
   ⟨"short", ["short = lambda scope: 1"], .define "short" .short⟩,
   ⟨"_private", ["def _private(scope):", "    return 1"], .pass⟩,
   ⟨"LIMIT", ["LIMIT = 3"], .pass⟩,
   ⟨"Klass", ["class Klass:", "    pass"], .pass⟩,
   ⟨"import", ["import os", "from json import dumps"], .pass⟩,
   ⟨"comment", ["# nothing here"], .pass⟩,
   ⟨"raise", ["raise RuntimeError('during import')"], .fail "during import"⟩,
   ⟨"undefined", ["missing_name"], .fail "name 'missing_name' is not defined"⟩,
   ⟨"syntax", ["def nope(:"], .invalid⟩]

/-- Text of a snippet. -/
def text (s : Snippet) : String := String.join (s.lines.map fun line => line ++ "\n")

/-- Source made of the snippets of given names. -/
def sourceOf (names : List String) : String :=
  String.join (names.map fun name => ((table.find? (fun s => s.name == name)).map text).getD "")

/-- The rest of the lines after those of a snippet, if they start with it. -/
def rest? : List String → List String → Option (List String)
  | [], lines => some lines
  | _, [] => none
  | line :: more, l :: lines => if line = l then rest? more lines else none

/-- The snippet that lines start with. -/
def first? (lines : List String) : Option Snippet :=
  table.find? (fun s => (rest? s.lines lines).isSome)

end Snippet

/-- A line that says nothing. -/
def isIdle (line : String) : Bool :=
  match Text.trimLeft line.toList with
  | [] => true
  | c :: _ => c == '#'

/-- The statements of lines, or the number of the line that is no statement.  Lines of a snippet
after its first are passed over by `skip`. -/
def statements : (number skip : Nat) → List String → Except Nat (List Statement)
  | _, _, [] => .ok []
  | number, skip + 1, _ :: lines => statements (number + 1) skip lines
  | number, 0, line :: lines =>
    if isIdle line then statements (number + 1) 0 lines
    else match Snippet.first? (line :: lines) with
      | none => .error number
      | some s =>
        if s.statement = .invalid then .error number
        else (statements (number + 1) (s.lines.length - 1) lines).map (s.statement :: ·)

/-- The functions that statements define. -/
def definitions (done : List (String × HookFunction)) :
    List Statement → Except String (List (String × HookFunction))
  | [] => .ok done
  | .define name f :: rest => definitions (setNamed done name f) rest
  | .alias name target :: rest =>
    match named? done target with
    | some f => definitions (setNamed done name f) rest
    | none => .error ("name '" ++ target ++ "' is not defined")
  | .fail reason :: _ => .error reason
  | _ :: rest => definitions done rest

/-- Part of a file name after its last slash. -/
def baseName (file : String) : String :=
  String.ofList ((Text.splitOn '/' file.toList).getLast?.getD [])

/-- The functions that a source defines, or why it does not load. -/
def loadSource (source file : String) : Except String (List (String × Object)) :=
  match statements 1 0 ((Text.splitOn '\n' source.toList).map String.ofList) with
  | .error number =>
    .error ("invalid syntax (" ++ baseName file ++ ", line " ++ count number ++ ")")
  | .ok all => (definitions [] all).map fun found => found.map fun e => (e.1, .hook e.2)

end Conformance.Sample
