import Conformance.Specification.Basic
import Conformance.Specification.Hooks

/-!
# Reading specifications

A specification is a stream of documents.  The first holds the entries and starts with the
declaration of the package, the second may hold hook source by target.  A stream whose first
document does not declare a package for the target is no specification.  Once the package is
declared, a mistake of the author further on is kept in the specification.

A comment's filter reaches up to the next comment: `sectioned` skips a feature if its own filter
or that of the comment before it excludes the target.
-/

namespace Conformance

/-- A stream of documents; the first that cannot be read ends it. -/
abbrev Documents := List (Except Fault Literal)

/-- Reads the documents of a text. -/
abbrev DocumentReader := List Char → Documents

namespace Specification

variable {ω : Type}

/-- Passes the skipping of a comment on to the features up to the next comment. -/
def sectioned : Bool → List Feature → List Feature
  | _, [] => []
  | skip, f :: fs =>
    let skip := if f.isComment then f.skip else skip
    { f with skip := skip || f.skip } :: sectioned skip fs

/-- The features of entries up to the first that is none, and the fault of that one. -/
def parseEntries (target : String) : List Literal → List Feature × Option Fault
  | [] => ([], none)
  | entry :: entries =>
    match Feature.parse entry target with
    | .error fault => ([], some fault)
    | .ok f =>
      let (fs, fault) := parseEntries target entries
      (f :: fs, fault)

/-- The package that a feature declares, if it is a declaration for the target. -/
def declared? (f : Feature) : Option String :=
  match f.action with
  | .bind target value =>
    if f.skip || target ≠ FeatureKey.packageKey then none
    else value.text?.filter (fun package => package != "")
  | _ => none

/-- The package that the first entry declares. -/
def declaredBy (target : String) (entry : Literal) : Except Fault (Option String) :=
  match Feature.parse entry target with
  | .ok f => .ok (declared? f)
  | .error (.malformed _) => .ok none
  | .error fault => .error fault

/-- The hook source for a target in a document. -/
def hookSource? (target : String) (document : Literal) : Option String :=
  match document with
  | .map entries => (Entries.find? entries (.str target)).bind Literal.text?
  | _ => none

/-- The hooks of what follows the first document. -/
def parseHooks (loader : HookLoader ω) (target : String) (source : Option String)
    (documents : Documents) : Except Fault (List (String × ω)) :=
  match documents with
  | [] => .ok []
  | document :: _ => do
    match hookSource? target (← document) with
    | some text => loadHooks loader text (hookFile source)
    | none => .ok []

/-- The faults that are kept in a specification. -/
def isKept (fault : Fault) : Bool := fault.isAuthoring || fault.family = .yaml

/-- The specification of a package with given entries and further documents. -/
def build (loader : HookLoader ω) (target : String) (source : Option String) (package : String)
    (entries : List Literal) (documents : Documents) : Except Fault (Specification ω) :=
  let (features, fault) := parseEntries target entries
  let spec := fun hooks error =>
    Specification.mk package (sectioned false features) hooks source.toList error
  let result := match fault with
    | some fault => Except.error fault
    | none => parseHooks loader target source documents
  match result with
  | .ok hooks => .ok (spec hooks none)
  | .error fault => if isKept fault then .ok (spec [] (some fault)) else .error fault

/-- The specification of a stream of documents for a target, if it is one. -/
def parse (loader : HookLoader ω) (target : String) (source : Option String)
    (documents : Documents) : Except Fault (Option (Specification ω)) :=
  match documents with
  | [] => .ok none
  | first :: rest => do
    match ← first with
    | .list (entry :: entries) =>
      match ← declaredBy target entry with
      | none => return none
      | some package => return some (← build loader target source package (entry :: entries) rest)
    | _ => return none

end Specification

end Conformance
