/-!
# Environment

Settings that come from outside.  An option counts before the environment, and a default last.
An empty text is no setting, except that an empty path in the environment is the working
directory.
-/

namespace Conformance

/-- Variables of the environment that are read. -/
structure Environment where
  target : Option String
  path : Option String
deriving DecidableEq, Repr, Inhabited

namespace Environment

/-- Name of the variable for the target. -/
def targetName : String := "PACKSPEC_TARGET"

/-- Name of the variable for the path. -/
def pathName : String := "PACKSPEC_PATH"

/-- Target without any setting. -/
def defaultTarget : String := "py"

/-- A setting that is not empty. -/
def nonEmpty? (setting : Option String) : Option String := setting.filter (fun s => s != "")

/-- The target in effect. -/
def targetFor (e : Environment) (option : Option String) : String :=
  ((nonEmpty? option).or (nonEmpty? e.target)).getD defaultTarget

/-- The path in effect. -/
def pathFor (e : Environment) (option : Option String) : Option String :=
  (nonEmpty? option).or e.path

end Environment

end Conformance
