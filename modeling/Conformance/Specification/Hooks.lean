import Conformance.Fault

/-!
# Loading hooks

A hook document holds source text under target names.  What the source of a target defines
becomes the hooks of the specification, except for names that start with an underscore.
-/

namespace Conformance

/-- Gives the functions that a source defines, in order, or why it does not load.  The second
argument is the file the source is said to come from. -/
abbrev HookLoader (ω : Type) := String → String → Except String (List (String × ω))

/-- A name that starts with an underscore. -/
def isPrivate (name : String) : Bool := name.toList.head? == some '_'

/-- The file that hook source is said to come from. -/
def hookFile (source : Option String) : String :=
  match source with
  | some source => source ++ "#hooks"
  | none => "<packspec hooks>"

/-- The hooks of a source. -/
def loadHooks {ω : Type} (loader : HookLoader ω) (source file : String) :
    Except Fault (List (String × ω)) :=
  match loader source file with
  | .error reason => .error (.hooksUnloadable file reason)
  | .ok defined => .ok (defined.filter fun e => !isPrivate e.1)

end Conformance
