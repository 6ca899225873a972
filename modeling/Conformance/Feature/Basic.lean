import Conformance.Data.Reference
import Conformance.Data.Render

/-!
# Features

One entry of a specification: a comment, the binding of a value, the reading of an operand, or a
call.  A feature knows its canonical one-line text and whether it is skipped for the target.
-/

namespace Conformance

/-- What a feature does. -/
inductive Action
  | comment (text : String)
  | bind (target : String) (value : Literal)
  | read (assign : Option String) (property : String) (expected : Literal)
  | call (assign : Option String) (property : String) (args : List Literal)
      (kwargs : List (String × Literal)) (expected : Literal)
deriving Repr, Inhabited

/-- A parsed entry. -/
structure Feature where
  text : String
  skip : Bool
  action : Action
deriving Repr, Inhabited

namespace Feature

/-- The kinds of features. -/
inductive Kind
  | comment
  | value
  | read
  | call
deriving DecidableEq, Repr

/-- The kind of a feature. -/
def kind (f : Feature) : Kind :=
  match f.action with
  | .comment _ => .comment
  | .bind _ _ => .value
  | .read _ _ _ => .read
  | .call _ _ _ _ _ => .call

/-- The feature is a comment. -/
def isComment (f : Feature) : Bool :=
  match f.action with
  | .comment _ => true
  | _ => false

/-- Where the outcome is bound. -/
def assign? (f : Feature) : Option String :=
  match f.action with
  | .comment _ => none
  | .bind target _ => some target
  | .read assign _ _ => assign
  | .call assign _ _ _ _ => assign

/-- The operand. -/
def property? (f : Feature) : Option String :=
  match f.action with
  | .read _ property _ => some property
  | .call _ property _ _ _ => some property
  | _ => none

/-- The expected value; null if there is none. -/
def expected (f : Feature) : Literal :=
  match f.action with
  | .comment _ => .null
  | .bind _ value => value
  | .read _ _ expected => expected
  | .call _ _ _ _ expected => expected

end Feature

namespace Action

/-- Feature text of a keyword argument. -/
def renderKeyword (kw : String × Literal) : List Char :=
  kw.1.toList ++ '=' :: kw.2.render

/-- Text of an operand with its arguments. -/
def renderCall (property : String) (args : List Literal) (kwargs : List (String × Literal)) :
    List Char :=
  property.toList ++ '(' :: joined (args.map Literal.render ++ kwargs.map renderKeyword) ++ [')']

/-- Puts the target of an assignment in front of a text. -/
def withTarget (assign : Option String) (text : List Char) : List Char :=
  match assign with
  | none => text
  | some target => target.toList ++ " = ".toList ++ text

/-- Puts the expected value, if there is one, behind a text. -/
def withExpected (expected : Literal) (text : List Char) : List Char :=
  match expected with
  | .scalar .null => text
  | expected => text ++ " == ".toList ++ expected.render

/-- The one-line text: `target = property(args, name=value) == expected`. -/
def render : Action → List Char
  | .comment text => text.toList
  | .bind target value => withTarget (some target) value.render
  | .read assign property expected =>
    withExpected expected (withTarget assign property.toList)
  | .call assign property args kwargs expected =>
    withExpected expected (withTarget assign (renderCall property args kwargs))

/-- First value in the text that cannot be written. -/
def unwritable? : Action → Option Key
  | .comment _ => none
  | .bind _ value => value.unwritable?
  | .read _ _ expected => expected.unwritable?
  | .call _ _ args kwargs expected =>
    ((Literal.unwritableAll? args).or (Literal.unwritableAll? (kwargs.map (·.2)))).or
      expected.unwritable?

end Action

end Conformance
