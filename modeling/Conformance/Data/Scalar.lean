import Conformance.Number.Shortest
import Conformance.Calendar.Text
import Conformance.Text.Json

/-!
# Scalars

The values without parts: null, booleans, numbers, texts, the two reserved markers, byte strings,
dates and times.  Authored documents and live values share them.

Two equalities are kept apart.  `Scalar.equal` is equality of values; it crosses kinds, so that
true equals one and a marker equals the text of its name, and no not-a-number equals anything.
`Scalar.same` also holds between two such numbers from one place; it decides membership in lists
and mappings.
-/

namespace Conformance

/-- The reserved markers of expected values. -/
inductive Sentinel
  /-- The operation has to fail. -/
  | error
  /-- Anything but a failure. -/
  | any
deriving DecidableEq, Repr, Inhabited

/-- Name of a marker, which is also its text. -/
def Sentinel.name : Sentinel → String
  | .error => "ERROR"
  | .any => "ANY"

/-- The marker of a name. -/
def Sentinel.ofName? (name : String) : Option Sentinel :=
  if name = "ERROR" then some .error else if name = "ANY" then some .any else none

/-- A value without parts. -/
inductive Scalar
  | null
  | bool (b : Bool)
  | int (i : Int)
  | float (x : Binary64)
  | str (s : String)
  | sentinel (s : Sentinel)
  | bytes (b : List UInt8)
  | date (d : Date)
  | time (t : Time)
  | datetime (t : DateTime)
deriving DecidableEq, Repr, Inhabited

namespace Scalar

/-- A boolean as a number. -/
def ofBool (b : Bool) : Int := if b then 1 else 0

/-- Text of a scalar that is a text: a string or a marker. -/
def text? : Scalar → Option String
  | .str s => some s
  | .sentinel s => some s.name
  | _ => none

/-- Equality of values. -/
def equal : Scalar → Scalar → Bool
  | .null, .null => true
  | .bool a, .bool b => a == b
  | .bool a, .int b => ofBool a == b
  | .bool a, .float b => b.equalInt (ofBool a)
  | .int a, .bool b => a == ofBool b
  | .int a, .int b => a == b
  | .int a, .float b => b.equalInt a
  | .float a, .bool b => a.equalInt (ofBool b)
  | .float a, .int b => a.equalInt b
  | .float a, .float b => a.equal b
  | .str a, .str b => a == b
  | .str a, .sentinel b => a == b.name
  | .sentinel a, .str b => a.name == b
  | .sentinel a, .sentinel b => a == b
  | .bytes a, .bytes b => a == b
  | .date a, .date b => a == b
  | .time a, .time b => a.equal b
  | .datetime a, .datetime b => a.equal b
  | _, _ => false

/-- Equality as a member of a list or mapping: equal, or the same not-a-number. -/
def same (a b : Scalar) : Bool :=
  match a, b with
  | .float x, .float y => x.same y
  | a, b => a.equal b

/-- The value is a text equal to the name of the failure marker. -/
def isError (s : Scalar) : Bool := s.text? == some Sentinel.error.name

/-- Name of a scalar's type in messages. -/
def typeName : Scalar → String
  | .null => "NoneType"
  | .bool _ => "bool"
  | .int _ => "int"
  | .float _ => "float"
  | .str _ => "str"
  | .sentinel _ => "Sentinel"
  | .bytes _ => "bytes"
  | .date _ => "datetime.date"
  | .time _ => "datetime.time"
  | .datetime _ => "datetime.datetime"

/-- The scalar as messages show it. -/
def shown : Scalar → List Char
  | .null => "None".toList
  | .bool true => "True".toList
  | .bool false => "False".toList
  | .int i => integer i
  | .float x => x.render
  | .str s => Text.quoted s.toList
  | .sentinel s => "<Sentinel.".toList ++ s.name.toList ++ ": '".toList ++ s.name.toList ++ "'>".toList
  | .bytes b => Text.quotedBytes b
  | .date d => d.shown
  | .time t => t.shown
  | .datetime t => t.shown

/-- The scalar as plain text. -/
def plain : Scalar → List Char
  | .str s => s.toList
  | .sentinel s => s.name.toList
  | .date d => d.iso
  | .time t => t.iso
  | .datetime t => t.isoWith ' '
  | s => s.shown

/-- JSON text of a float: the names of the special values differ from their plain text. -/
def jsonFloat : Binary64 → List Char
  | .nan _ => "NaN".toList
  | .infinite false => "Infinity".toList
  | .infinite true => "-Infinity".toList
  | x => x.render

/-- JSON text of the scalars that JSON has. -/
def json? : Scalar → Option (List Char)
  | .null => some "null".toList
  | .bool true => some "true".toList
  | .bool false => some "false".toList
  | .int i => some (integer i)
  | .float x => some (jsonFloat x)
  | .str s => some (Text.json s.toList)
  | .sentinel s => some (Text.json s.name.toList)
  | _ => none

end Scalar

end Conformance
