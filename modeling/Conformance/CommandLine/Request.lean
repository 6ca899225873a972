import Conformance.CommandLine.Argument

/-!
# Requests

What a command line asks for.  Words are taken from left to right: help ends the reading, a missing
or unexpected value refuses it, and words that mean nothing refuse it only at the end, so that help
behind them is still given.  One word that is no option is the path.
-/

namespace Conformance.CommandLine

/-- Settings of a check. -/
structure Options where
  path : Option String
  target : Option String
  verbose : Bool
deriving DecidableEq, Repr, Inhabited

/-- What a command line asks for. -/
inductive Request
  | help
  | check (options : Options)
deriving DecidableEq, Repr, Inhabited

/-- Options read so far, and words that mean nothing. -/
structure Draft where
  options : Options
  stray : List String
deriving DecidableEq, Repr, Inhabited

namespace Draft

/-- Before any word. -/
def empty : Draft := ⟨⟨none, none, false⟩, []⟩

/-- Sets the path. -/
def withPath (d : Draft) (path : Option String) : Draft :=
  { d with options := { d.options with path } }

/-- Sets the target. -/
def withTarget (d : Draft) (target : String) : Draft :=
  { d with options := { d.options with target := some target } }

/-- Asks for the log. -/
def withLog (d : Draft) : Draft := { d with options := { d.options with verbose := true } }

/-- Notes words that mean nothing. -/
def withStray (d : Draft) (words : List String) : Draft := { d with stray := d.stray ++ words }

/-- The request when no word is left. -/
def finish (d : Draft) : Except Refusal Request :=
  if d.stray.isEmpty then .ok (.check d.options) else .error (.unknown d.stray)

/-- Takes the words behind two dashes: the path, if there is none yet. -/
def divide (d : Draft) (texts : List String) : Draft :=
  match d.options.path with
  | none => (d.withPath texts.head?).withStray texts.tail
  | some _ => d.withStray ("--" :: texts)

end Draft

/-- Takes words from left to right. -/
def take (d : Draft) : List Word → Except Refusal Request
  | [] => d.finish
  | .plain text :: words =>
    match d.options.path, words with
    | none, [.divided texts] => ((d.withPath (some text)).withStray texts).finish
    | none, _ => take (d.withPath (some text)) words
    | some _, _ => take (d.withStray [text]) words
  | .switches list rest :: words =>
    if list.contains .help then .ok .help
    else take ((if list.isEmpty then d else d.withLog).withStray rest.toList) words
  | .target _ (some value) :: words => take (d.withTarget value) words
  | .target _ none :: .plain value :: words => take (d.withTarget value) words
  | .target written none :: _ => .error (.missingValue written)
  | .unknown text :: words => take (d.withStray [text]) words
  | .valued text :: _ => .error (.unexpectedValue text)
  | .divided texts :: _ => (d.divide texts).finish

/-- The request of a command line. -/
def request (arguments : List String) : Except Refusal Request := do
  take Draft.empty (← readWords arguments)

end Conformance.CommandLine
