import Conformance.Text.CaseTable
import Conformance.Text.Class

/-!
# Full case mapping

Upper and lower case of a text by the full mappings, in which one character may become several.
The only image that depends on the context is the lower case of a capital sigma, which has a
form of its own at the end of a word.
-/

namespace Conformance.Text

/-- Upper-case image of a character. -/
def upperChar (c : Char) : List Char :=
  if c.toNat < 128 then
    [if isAsciiLower c then Char.ofNat (c.toNat - 32) else c]
  else match CaseTable.upperExpansions.find? (fun e => e.1 == c.toNat) with
    | some (_, image) => image.map Char.ofNat
    | none => match shifted? CaseTable.upperShifts c.toNat with
      | some code => [Char.ofNat code]
      | none => [c]

/-- Lower-case image of a character on its own. -/
def lowerChar (c : Char) : List Char :=
  if c.toNat < 128 then
    [if isAsciiUpper c then Char.ofNat (c.toNat + 32) else c]
  else match CaseTable.lowerExpansions.find? (fun e => e.1 == c.toNat) with
    | some (_, image) => image.map Char.ofNat
    | none => match shifted? CaseTable.lowerShifts c.toNat with
      | some code => [Char.ofNat code]
      | none => [c]

/-- A character that a scan for case passes over. -/
def isCaseIgnorable (c : Char) : Bool :=
  if c.toNat < 128 then c == '\x27' || c == '.' || c == ':' || c == '^' || c == '\x60'
  else inRuns CaseTable.caseIgnorable c.toNat

/-- A character that has a case and counts in a scan for case. -/
def isCased (c : Char) : Bool :=
  if c.toNat < 128 then isAsciiLower c || isAsciiUpper c
  else inRuns CaseTable.cased c.toNat

/-- A cased character comes next once ignorable ones are passed over. -/
def casedNext (cs : List Char) : Bool :=
  match cs.dropWhile isCaseIgnorable with
  | [] => false
  | c :: _ => isCased c

/-- The capital letter sigma. -/
def capitalSigma : Char := 'Σ'

/-- Upper case of a text. -/
def upper (cs : List Char) : List Char := cs.flatMap upperChar

/-- Lower case of the rest of a text whose reversed beginning is given. -/
def lowerAfter (before : List Char) : List Char → List Char
  | [] => []
  | c :: rest =>
    (if c == capitalSigma then
      [if casedNext before && !casedNext rest then 'ς' else 'σ']
    else lowerChar c) ++ lowerAfter (c :: before) rest

/-- Lower case of a text. -/
def lower (cs : List Char) : List Char := lowerAfter [] cs

end Conformance.Text
