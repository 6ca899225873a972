import Conformance.CommandLine.Request
import Conformance.Files.Locate
import Conformance.Environment

/-!
# Help

The texts that explain the command line.
-/

namespace Conformance.CommandLine

/-- Line that shows which arguments there are. -/
def usage : String := "usage: packspec [-h] [--target TARGET] [-v] [path]"

/-- Text of help. -/
def help : String :=
  "\n".intercalate
    [usage,
     "",
     "Check a package implementation against packspec specifications.",
     "",
     "  path             specification file or directory (default: " ++ FileTree.defaultFile ++
       ", then " ++ FileTree.defaultDirectory ++ "/*" ++ FileTree.ending ++ ")",
     "  -h, --help       show this text",
     "  --target TARGET  target identifier for filter tags (default: $" ++
       Environment.targetName ++ " or " ++ Environment.defaultTarget ++ ")",
     "  -v, --verbose    log every executed feature and scope binding"]

/-- Why arguments are refused, as text. -/
def Refusal.message : Refusal → String
  | .ambiguous word => "ambiguous option: " ++ word
  | .unexpectedValue word => "this option takes no value: " ++ word
  | .missingValue word => "this option needs a value: " ++ word
  | .unknown words => "unknown arguments: " ++ " ".intercalate words

end Conformance.CommandLine
