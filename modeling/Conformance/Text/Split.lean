/-!
# Splitting a text at a character
-/

namespace Conformance.Text

/-- The text up to the first occurrence of a character, and the text after it. -/
def splitAt? (mark : Char) : List Char → Option (List Char × List Char)
  | [] => none
  | c :: rest =>
    if c == mark then some ([], rest)
    else (splitAt? mark rest).map fun (before, after) => (c :: before, after)

/-- Parts of a text between the occurrences of a separator.  There is always at least one. -/
def splitOn (separator : Char) : List Char → List (List Char)
  | [] => [[]]
  | c :: rest =>
    if c == separator then [] :: splitOn separator rest
    else match splitOn separator rest with
      | part :: parts => (c :: part) :: parts
      | [] => [[c]]

/-- Parts joined by a separator. -/
def joinWith (separator : Char) : List (List Char) → List Char
  | [] => []
  | [part] => part
  | part :: parts => part ++ separator :: joinWith separator parts

end Conformance.Text
