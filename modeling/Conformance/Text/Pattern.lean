/-!
# Patterns

Regular patterns of texts.  A text is matched one character at a time: `derive c p` is the
pattern of what may follow the character `c` in a text of the pattern `p`, and a text is accepted
if what is left of the pattern at its end admits the empty text.
-/

namespace Conformance.Text

/-- A set of texts. -/
inductive Pattern
  /-- No text. -/
  | never
  /-- The empty text. -/
  | nothing
  /-- One character of a class. -/
  | one (members : Char → Bool)
  | either (p q : Pattern)
  | followed (p q : Pattern)
  /-- Any number of texts one after another. -/
  | many (p : Pattern)

namespace Pattern

/-- The empty text is in the pattern. -/
def isNullable : Pattern → Bool
  | never => false
  | nothing => true
  | one _ => false
  | either p q => isNullable p || isNullable q
  | followed p q => isNullable p && isNullable q
  | many _ => true

/-- Either of two patterns, where one that has no text is dropped. -/
def or : Pattern → Pattern → Pattern
  | never, q => q
  | p, never => p
  | p, q => either p q

/-- One pattern after another, where one that has no text leaves none. -/
def next : Pattern → Pattern → Pattern
  | never, _ => never
  | nothing, q => q
  | p, q => followed p q

/-- What may follow a character. -/
def derive (c : Char) : Pattern → Pattern
  | never => never
  | nothing => never
  | one members => if members c then nothing else never
  | either p q => (derive c p).or (derive c q)
  | followed p q =>
    let first := (derive c p).next q
    if isNullable p then first.or (derive c q) else first
  | many p => (derive c p).next (many p)

/-- The text is in the pattern. -/
def accepts (p : Pattern) : List Char → Bool
  | [] => p.isNullable
  | c :: cs => (p.derive c).accepts cs

/-! ## Building patterns -/

/-- Patterns one after another. -/
def all : List Pattern → Pattern
  | [] => nothing
  | p :: ps => p.next (all ps)

/-- Any of some patterns. -/
def any : List Pattern → Pattern
  | [] => never
  | p :: ps => p.or (any ps)

/-- One character of a text. -/
def oneOf (members : String) : Pattern := one fun c => members.toList.contains c

/-- A text as it stands. -/
def word (text : String) : Pattern := all (text.toList.map fun c => one (· == c))

/-- Any of some texts. -/
def words (texts : List String) : Pattern := any (texts.map word)

/-- A pattern or the empty text. -/
def optional (p : Pattern) : Pattern := p.or nothing

/-- A pattern at least once. -/
def repeated (p : Pattern) : Pattern := p.next (many p)

end Pattern

end Conformance.Text
