import Conformance.Data.Render
import Conformance.Text.Utf8

/-!
# Faults

Everything that can go wrong, as causes.  The wording is in `Fault.message`, the class name that
reports show is `Fault.kind`, and `Fault.family` is the coarse class that decides who handles a
fault: only authoring faults (`Family.specification`) end the run of a specification in an
orderly way.
-/

namespace Conformance

/-- The coarse classes of faults that handlers distinguish. -/
inductive Family
  | specification
  | lookup
  | attribute
  | type
  | value
  | system
  | yaml
  | other
deriving DecidableEq, Repr, Inhabited

/-- Why a document entry is no feature. -/
inductive Malformed
  /-- The entry is neither a text nor a mapping of one entry. -/
  | shape (entry : String)
  /-- The key of the entry is no text. -/
  | keyType (key : String)
  /-- The key does not follow the grammar. -/
  | keyText (key : String)
deriving DecidableEq, Repr, Inhabited

/-- A cause of failure. -/
inductive Fault
  /-- A document entry does not follow the feature grammar. -/
  | malformed (why : Malformed)
  /-- The package of a specification cannot be loaded. -/
  | invalidPackage (package reason : String)
  /-- A bound constant is assigned again. -/
  | constantReassigned (path : String)
  /-- The target of an assignment cannot be bound. -/
  | invalidAssignment (path reason : String)
  /-- Hook source does not load. -/
  | hooksUnloadable (file reason : String)
  /-- Nothing is bound at a path. -/
  | unbound (path : String)
  /-- The empty path names nothing. -/
  | emptyPath
  /-- The value at a path is called and cannot be. -/
  | notCallable (path : String)
  /-- A value of a type that cannot be called is called. -/
  | uncallableType (typeName : String)
  /-- A text is no whole number in a base. -/
  | notInteger (base : Nat) (text : String)
  /-- A text is no number. -/
  | notNumber (text : String)
  /-- A text is no truth value. -/
  | notBoolean (text : String)
  /-- A number is read from a text without characters. -/
  | noCharacters
  /-- An escape names no character. -/
  | escapeRange
  /-- An offset from universal time is a day or more. -/
  | offsetRange (seconds : Int)
  /-- A list is assigned past its end. -/
  | indexRange
  /-- A list is assigned at an index beyond any list. -/
  | indexSize
  /-- A value has no such attribute. -/
  | noAttribute (typeName name : String)
  /-- An attribute of a value is computed from it and cannot be set. -/
  | attributeComputed (typeName name : String)
  /-- A method of a value cannot be replaced. -/
  | attributeReadOnly (typeName name : String)
  /-- A reference is not open to attributes. -/
  | frozenField (name : String)
  /-- A marker keeps the attributes it is made of. -/
  | markerField (name : String)
  /-- An instant lies outside the calendar. -/
  | dateRange
  /-- A value that contains itself is followed to its end. -/
  | endless
  /-- A value of this type cannot be a mapping key. -/
  | unhashable (typeName : String)
  /-- A mapping key of this type has no JSON name. -/
  | jsonKey (typeName : String)
  /-- Numbers that name no date. -/
  | date (why : Date.Fault)
  /-- Numbers that name no time of day. -/
  | clock (why : Clock.Fault)
  /-- A directory is read as a file. -/
  | isDirectory (path : String)
  /-- Nothing is stored at a path. -/
  | noFile (path : String)
  /-- Bytes that are no text. -/
  | undecodable (why : Text.Utf8Fault)
  /-- A text is no YAML. -/
  | yaml
  /-- Raised by the implementation under test or by the platform. -/
  | raised (family : Family) (kind message : String)
deriving DecidableEq, Repr, Inhabited

namespace Malformed

/-- Wording of a malformed entry. -/
def message : Malformed → String
  | .shape entry => "Feature must be a string or a single-key mapping: " ++ entry
  | .keyType key => "Feature key must be a string: " ++ key
  | .keyText key => "Non-valid feature: " ++ key

end Malformed

namespace Fault

/-- A text between quotes. -/
def quote (text : String) : String := String.ofList (Text.quoted text.toList)

/-- Most characters that a message shows of a text that is no whole number, quotes included. -/
def shownLimit : Nat := 200

/-- A package name between quotes.  A name that is a marker is shown as the marker, which is what
declaring it gives. -/
def quotePackage (package : String) : String :=
  match Sentinel.ofName? package with
  | some s => String.ofList (Scalar.sentinel s).shown
  | none => quote package

/-- Where in bytes a fault lies: the byte, if it is one, or the positions of all. -/
def bytesShown (position : Nat) (byte : UInt8) (count : Nat) : String :=
  if count ≤ 1 then
    "byte 0x" ++ String.ofList (Text.hexPadded 2 byte.toNat) ++ " in position " ++
      String.ofList (numeral position)
  else
    "bytes in position " ++ String.ofList (numeral position) ++ "-" ++
      String.ofList (numeral (position + count - 1))

/-- Wording of bytes that are no text. -/
def undecodableMessage (why : Text.Utf8Fault) : String :=
  let (shown, reason) := match why with
    | .start position byte => (bytesShown position byte 1, "invalid start byte")
    | .continuation position byte good =>
      (bytesShown position byte (good + 1), "invalid continuation byte")
    | .ending position byte present =>
      (bytesShown position byte present, "unexpected end of data")
  "'utf-8' codec can't decode " ++ shown ++ ": " ++ reason

/-- Wording of a fault. -/
def message : Fault → String
  | .malformed why => why.message
  | .invalidPackage package reason =>
    "Can't load package " ++ quotePackage package ++ ": " ++ reason
  | .constantReassigned path => "Can't update the constant " ++ path
  | .invalidAssignment path reason => "Can't assign " ++ path ++ ": " ++ reason
  | .hooksUnloadable file reason => "Failed to load hooks from " ++ file ++ ": " ++ reason
  | .unbound path => "'" ++ path ++ "' is not bound"
  | .emptyPath => "Empty path"
  | .notCallable path => "'" ++ path ++ "' is not callable"
  | .uncallableType typeName => "'" ++ typeName ++ "' object is not callable"
  | .notInteger base text =>
    "invalid literal for int() with base " ++ String.ofList (numeral base) ++ ": " ++
      String.ofList ((Text.quoted text.toList).take shownLimit)
  | .notNumber text => "could not convert string to float: " ++ quote text
  | .notBoolean text => quote text
  | .noCharacters => "string index out of range"
  | .escapeRange => "chr() arg not in range(0x110000)"
  | .offsetRange seconds =>
    "offset must be a timedelta strictly between -timedelta(hours=24) and timedelta(hours=24), not " ++
      String.ofList (durationShown (1000000 * seconds)) ++ "."
  | .indexRange => "list assignment index out of range"
  | .indexSize => "cannot fit 'int' into an index-sized integer"
  | .noAttribute typeName name =>
    "'" ++ typeName ++ "' object has no attribute '" ++ name ++ "'"
  | .attributeComputed typeName name =>
    "attribute '" ++ name ++ "' of '" ++ typeName ++ "' objects is not writable"
  | .attributeReadOnly typeName name =>
    "'" ++ typeName ++ "' object attribute '" ++ name ++ "' is read-only"
  | .frozenField name => "cannot assign to field " ++ quote name
  | .markerField name => "<enum 'Sentinel'> cannot set attribute '" ++ name ++ "'"
  | .dateRange => "date value out of range"
  | .endless => "maximum recursion depth exceeded"
  | .unhashable typeName => "unhashable type: '" ++ typeName ++ "'"
  | .jsonKey typeName => "keys must be str, int, float, bool or None, not " ++ typeName
  | .date (.year year) => "year " ++ String.ofList (numeral year) ++ " is out of range"
  | .date .month => "month must be in 1..12"
  | .date .day => "day is out of range for month"
  | .clock .hour => "hour must be in 0..23"
  | .clock .minute => "minute must be in 0..59"
  | .clock .second => "second must be in 0..59"
  | .isDirectory path => "[Errno 21] Is a directory: " ++ quote path
  | .noFile path => "[Errno 2] No such file or directory: " ++ quote path
  | .undecodable why => undecodableMessage why
  | .yaml => ""
  | .raised _ _ message => message

/-- Class name of a fault. -/
def kind : Fault → String
  | .malformed _ => "MalformedFeature"
  | .invalidPackage _ _ => "InvalidPackage"
  | .constantReassigned _ => "ConstantReassignment"
  | .invalidAssignment _ _ => "InvalidAssignment"
  | .hooksUnloadable _ _ => "SpecificationError"
  | .unbound _ | .emptyPath => "LookupError"
  | .notCallable _ | .uncallableType _ | .unhashable _ | .jsonKey _ => "TypeError"
  | .notInteger _ _ | .notNumber _ | .escapeRange | .offsetRange _ | .date _ | .clock _ =>
    "ValueError"
  | .notBoolean _ => "KeyError"
  | .indexRange | .indexSize | .noCharacters => "IndexError"
  | .noAttribute _ _ | .attributeComputed _ _ | .attributeReadOnly _ _ | .markerField _ =>
    "AttributeError"
  | .frozenField _ => "FrozenInstanceError"
  | .dateRange => "OverflowError"
  | .endless => "RecursionError"
  | .isDirectory _ => "IsADirectoryError"
  | .noFile _ => "FileNotFoundError"
  | .undecodable _ => "UnicodeDecodeError"
  | .yaml => "YAMLError"
  | .raised _ kind _ => kind

/-- Coarse class of a fault. -/
def family : Fault → Family
  | .malformed _ | .invalidPackage _ _ | .constantReassigned _ | .invalidAssignment _ _
  | .hooksUnloadable _ _ => .specification
  | .unbound _ | .emptyPath | .indexRange | .indexSize | .notBoolean _ | .noCharacters => .lookup
  | .notCallable _ | .uncallableType _ | .unhashable _ | .jsonKey _ => .type
  | .notInteger _ _ | .notNumber _ | .escapeRange | .offsetRange _ | .date _ | .clock _
  | .undecodable _ => .value
  | .isDirectory _ | .noFile _ => .system
  | .noAttribute _ _ | .attributeComputed _ _ | .attributeReadOnly _ _ | .frozenField _
  | .markerField _ => .attribute
  | .dateRange | .endless => .other
  | .yaml => .yaml
  | .raised family _ _ => family

/-- Class name and wording in one line.  A YAML fault has no wording of its own. -/
def describe : Fault → String
  | .yaml => Fault.yaml.kind
  | fault => fault.kind ++ ": " ++ fault.message

/-- A mistake of the specification's author. -/
def isAuthoring (fault : Fault) : Bool := fault.family == .specification

end Fault

end Conformance
