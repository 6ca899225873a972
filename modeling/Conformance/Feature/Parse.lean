import Conformance.Data.Named
import Conformance.Fault
import Conformance.Feature.Basic
import Conformance.Feature.Key

/-!
# Reading features

An entry is a text, which is a comment, or a mapping of one entry, whose key says what to do and
whose value is the expected value, the value to bind or the list of a call.  In a call list,
`==: v` gives the expected value, `name=: v` a keyword argument, and everything else is a
positional argument; the three kinds may be mixed in any order.
-/

namespace Conformance

/-- One item of a call list. -/
inductive CallItem
  | positional (value : Literal)
  | keyword (name : String) (value : Literal)
  | expected (value : Literal)
deriving Repr, Inhabited

namespace CallItem

/-- Name of a keyword key: at least one character and then a final `=`. -/
def keywordName? (key : String) : Option String :=
  match key.toList.reverse with
  | '=' :: c :: rest => some (String.ofList (c :: rest).reverse)
  | _ => none

/-- The kind of an item. -/
def ofLiteral (item : Literal) : CallItem :=
  match item with
  | .map [(key, value)] =>
    match key.text? with
    | none => .positional item
    | some text =>
      if text = "==" then .expected value
      else match keywordName? text with
        | some name => .keyword name value
        | none => .positional item
  | item => .positional item

end CallItem

/-- What the items of a call list have given so far. -/
structure CallList where
  args : List Literal
  kwargs : List (String × Literal)
  expected : Literal
deriving Repr, Inhabited

namespace CallList

/-- A list without items. -/
def empty : CallList := ⟨[], [], .null⟩

/-- Takes one more item.  The value of a keyword or the expected value replaces an earlier one;
a keyword keeps its place. -/
def add (list : CallList) (item : Literal) : CallList :=
  match CallItem.ofLiteral item with
  | .positional value => { list with args := list.args ++ [value.tag] }
  | .keyword name value => { list with kwargs := setNamed list.kwargs name value.tag }
  | .expected value => { list with expected := value }

/-- Takes the items one after another. -/
def read (items : List Literal) : CallList := items.foldl add empty

end CallList

namespace Feature

/-- An expected value: a text that names a marker becomes the marker, other values are tagged. -/
def tagExpected (value : Literal) : Literal :=
  match value.text?.bind Sentinel.ofName? with
  | some s => .scalar (.sentinel s)
  | none => value.tag

/-- Reading of the list of a call. -/
def callAction (assign : Option String) (property : String) (items : List Literal) : Action :=
  let list := CallList.read items
  .call assign property list.args list.kwargs (tagExpected list.expected)

/-- What a key of a given form does with the value on its right. -/
def actionOf (form : FeatureKey.Form) (right : Literal) : Action :=
  match form with
  | .value target => .bind target (tagExpected right)
  | .read assign property => .read assign property (tagExpected right)
  | .operand assign property =>
    match right with
    | .list items => callAction assign property items
    | right => .read assign property (tagExpected right)

/-- A feature with the text of its action. -/
def ofAction (skip : Bool) (action : Action) : Feature :=
  ⟨String.ofList action.render, skip, action⟩

/-- The comment of a text entry. -/
def ofComment (entry target : String) : Feature :=
  let (filter, text) := FeatureKey.comment entry.toList
  ofAction (Filter.skips? filter target) (.comment (String.ofList text))

/-- The feature of a key and the value on its right. -/
def ofEntry (key : Key) (right : Literal) (target : String) : Except Fault Feature :=
  match key.text? with
  | none => .error (.malformed (.keyType (String.ofList key.shown)))
  | some text =>
    match FeatureKey.read? text with
    | none => .error (.malformed (.keyText (String.ofList key.shown)))
    | some (filter, form) =>
      let action := actionOf form right
      match action.unwritable? with
      | some bad => .error (.jsonKey bad.shortTypeName)
      | none => .ok (ofAction (Filter.skips? filter target) action)

/-- The feature of a document entry. -/
def parse (entry : Literal) (target : String) : Except Fault Feature :=
  match entry with
  | .map [(key, right)] => ofEntry key right target
  | entry =>
    match entry.text? with
    | some text => .ok (ofComment text target)
    | none => .error (.malformed (.shape (String.ofList entry.shown)))

end Feature

end Conformance
