import Conformance.Text.Class

/-!
# Arguments

Words of a command line, read one by one.  A word that starts with a dash is an option, unless it
is a number below zero or holds a space and no option starts as it does.  Long options may be
shortened as long as one option is meant, and carry their value behind `=` or in the next word;
short ones may share a dash.  Behind two dashes nothing is an option.
-/

namespace Conformance.CommandLine

/-- Options that carry no value. -/
inductive Switch
  | help
  | verbose
deriving DecidableEq, Repr, Inhabited

/-- The options that there are. -/
inductive KnownOption
  | switch (s : Switch)
  | target
deriving DecidableEq, Repr, Inhabited

/-- Why arguments are refused. -/
inductive Refusal
  /-- A shortened option may mean several. -/
  | ambiguous (word : String)
  /-- A value is given to an option that carries none. -/
  | unexpectedValue (word : String)
  /-- The value of an option is missing. -/
  | missingValue (word : String)
  /-- Words that mean nothing here. -/
  | unknown (words : List String)
deriving DecidableEq, Repr, Inhabited

/-- What a word is. -/
inductive Word
  /-- No option. -/
  | plain (text : String)
  /-- Switches that share a word, and what cannot be read at its end. -/
  | switches (list : List Switch) (rest : Option String)
  /-- The target with its value, which may be the next word. -/
  | target (written : String) (value : Option String)
  /-- An option that there is not. -/
  | unknown (text : String)
  /-- A switch with a value. -/
  | valued (text : String)
  /-- Two dashes, and everything behind them. -/
  | divided (texts : List String)
deriving DecidableEq, Repr, Inhabited

/-- Long names of options. -/
def longNames : List (List Char × KnownOption) :=
  [("--help".toList, .switch .help), ("--target".toList, .target),
   ("--verbose".toList, .switch .verbose)]

/-- The switch of a letter. -/
def letter? (c : Char) : Option Switch :=
  if c == 'h' then some .help else if c == 'v' then some .verbose else none

/-- Option of a name that is written out. -/
def written? (name : List Char) : Option KnownOption :=
  match name with
  | ['-', c] => (letter? c).map .switch
  | _ => (longNames.find? (fun e => e.1 == name)).map (·.2)

/-- Options that a long name may be short for. -/
def meant (name : List Char) : List KnownOption :=
  (longNames.filter fun e => name.isPrefixOf e.1).map (·.2)

/-- A word up to the first `=` and what is behind it. -/
def parts (word : List Char) : List Char × Option (List Char) :=
  match word.span (· != '=') with
  | (name, _ :: value) => (name, some value)
  | (name, []) => (name, none)

/-- Digits of any script, and at least one. -/
def isDigits (cs : List Char) : Bool := cs != [] && cs.all (fun c => (Text.decimalValue? c).isSome)

/-- A number below zero, which is no option. -/
def isNegative (word : List Char) : Bool :=
  match word with
  | '-' :: rest =>
    let rest := if rest.getLast? = some '\n' then rest.dropLast else rest
    isDigits rest ||
      match rest.span (fun c => (Text.decimalValue? c).isSome) with
      | (_, '.' :: decimals) => isDigits decimals
      | _ => false
  | _ => false

/-- Switches whose letters share a word.  The letters go on up to one that is no switch; a dash or
`=` behind a switch would be a value. -/
def cluster (text : String) : List Switch → List Char → Word
  | seen, [] => .switches seen none
  | seen, c :: rest =>
    if c == '-' || c == '=' then .valued text
    else match letter? c with
      | some s => cluster text (seen ++ [s]) rest
      | none => .switches seen (some (String.ofList ('-' :: c :: rest)))

/-- An option with what is given behind `=`. -/
def withValue (text : String) (option : KnownOption) (value : Option (List Char)) : Word :=
  match option, value with
  | .target, value => .target text (value.map String.ofList)
  | .switch s, none => .switches [s] none
  | .switch _, some _ => .valued text

/-- A word that starts as no option does. -/
def otherwise (word : List Char) : Word :=
  if isNegative word || word.contains ' ' then .plain (String.ofList word)
  else .unknown (String.ofList word)

/-- A word in front of two dashes. -/
def readWord (word : List Char) : Except Refusal Word :=
  let text := String.ofList word
  let (name, value) := parts word
  match word with
  | '-' :: c :: rest =>
    match written? word, written? name with
    | some option, _ => .ok (withValue text option none)
    | none, some option => .ok (withValue text option value)
    | none, none =>
      if c == '-' then
        match meant name with
        | [] => .ok (otherwise word)
        | [option] => .ok (withValue text option value)
        | _ => .error (.ambiguous text)
      else if (letter? c).isSome then .ok (cluster text [] (c :: rest))
      else .ok (otherwise word)
  | _ => .ok (.plain text)

/-- Words of a command line. -/
def readWords : List String → Except Refusal (List Word)
  | [] => .ok []
  | text :: texts =>
    if text = "--" then .ok [.divided texts]
    else do
      let word ← readWord text.toList
      return word :: (← readWords texts)

end Conformance.CommandLine
