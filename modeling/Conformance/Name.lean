import Conformance.Text.Case

/-!
# Names and their two spellings

A specification writes names camel-style, an implementation may spell them with underscores.
`camelize` folds underscores away and `snakeize` puts them back in front of capitals; the first
is applied to every key of a specification, the second when a member is looked up.

A name is constant if its first character after any `$` marks is a capital letter.
-/

namespace Conformance.Name

/-- Folds each underscore and the character after it into that character's upper case.  An
underscore before a line break or at the end stays. -/
def camel : List Char → List Char
  | [] => []
  | [c] => [c]
  | c :: d :: rest =>
    if c == '_' then
      if d == '\n' then c :: d :: camel rest else Text.upperChar d ++ camel rest
    else c :: camel (d :: rest)

/-- A lower-case ASCII letter or digit: what may stand before a word border. -/
def endsWord (c : Char) : Bool := Text.isAsciiLower c || Text.isAsciiDigit c

/-- Puts an underscore between a lower-case ASCII letter or digit and an ASCII capital. -/
def bordered : List Char → List Char
  | [] => []
  | [c] => [c]
  | c :: d :: rest =>
    if endsWord c && Text.isAsciiUpper d then c :: '_' :: bordered (d :: rest)
    else c :: bordered (d :: rest)

/-- Word borders marked by underscores, all in lower case. -/
def snake (cs : List Char) : List Char := Text.lower (bordered cs)

/-- The camel-style spelling of a text. -/
def camelize (text : String) : String := String.ofList (camel text.toList)

/-- The spelling of a camel-style name with underscores. -/
def snakeize (name : String) : String := String.ofList (snake name.toList)

/-- First character of a name after its `$` marks. -/
def start? (name : String) : Option Char := (name.toList.dropWhile (· == '$')).head?

/-- A name of digits only. -/
def isIndex (name : String) : Bool := Text.isNumeral name.toList

/-- A name that starts with a capital letter. -/
def isConstant (name : String) : Bool :=
  !isIndex name && (start? name).any Text.isCapital

/-- A name that starts with a lower-case character and has no `$` mark: the names that may also
be found under their spelling with underscores. -/
def hasSnakeSpelling (name : String) : Bool :=
  (start? name).any Text.isLower && name.toList.head? != some '$'

/-- The spellings under which a name is looked up. -/
def spellings (name : String) : List String :=
  if hasSnakeSpelling name && snakeize name != name then [name, snakeize name] else [name]

end Conformance.Name
