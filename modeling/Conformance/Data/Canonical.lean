import Conformance.Data.Datum

/-!
# Canonical form of data

Outcomes are compared in canonical form: tuples become lists, markers their text, dates and times
their ISO text, a date and time with an offset that of its instant in universal time.  Mappings
are rebuilt under the canonical forms of their keys, where a later key with the same form
replaces the value of an earlier one.  What contains itself has no canonical form.

`Datum.strict` then tells booleans apart from the numbers they equal.
-/

namespace Conformance

namespace Scalar

/-- Canonical form of a scalar. -/
def canonical : Scalar → Except Fault Scalar
  | .sentinel s => .ok (.str s.name)
  | .date d => .ok (.str (String.ofList d.iso))
  | .time t => .ok (.str (String.ofList t.iso))
  | .datetime t =>
    match t.offset with
    | none => .ok (.str (String.ofList t.iso))
    | some _ =>
      match t.toUniversal? with
      | some u => .ok (.str (String.ofList u.iso))
      | none => .error .dateRange
  | s => .ok s

end Scalar

namespace Key

mutual

/-- What the canonical form of a key is, where a tuple gives a list, which is no key. -/
def canonical : Key → Except Fault (Option Key)
  | .scalar s => s.canonical.map (fun c => some (.scalar c))
  | .tuple items => (canonicalAll items).map (fun _ => none)
  | k => .ok (some k)

/-- Whether keys have canonical forms as parts of a tuple. -/
def canonicalAll : List Key → Except Fault Unit
  | [] => .ok ()
  | k :: ks => do
    let _ ← canonical k
    canonicalAll ks

end

/-- The key with booleans told apart from numbers. -/
def strict : Key → Key
  | .scalar (.bool b) => .flag b
  | k => k

end Key

namespace Datum

mutual

/-- Canonical form of a datum. -/
def canonical : Datum → Except Fault Datum
  | .scalar s => s.canonical.map .scalar
  | .tuple items => (canonicalAll items).map .list
  | .list items => (canonicalAll items).map .list
  | .map entries => (canonicalEntries [] entries).map .map
  | .endless _ => .error .endless
  | d => .ok d

/-- Canonical forms of data. -/
def canonicalAll : List Datum → Except Fault (List Datum)
  | [] => .ok []
  | d :: ds => do
    let c ← canonical d
    let cs ← canonicalAll ds
    return c :: cs

/-- Entries under the canonical forms of their keys, after those already there. -/
def canonicalEntries (done : Entries Datum) : List (Key × Datum) → Except Fault (Entries Datum)
  | [] => .ok done
  | (k, d) :: es => do
    let key ← k.canonical
    let value ← canonical d
    match key with
    | some key => canonicalEntries (done.set key value) es
    | none => .error (.unhashable "list")

end

mutual

/-- The datum with booleans told apart from numbers, as far as canonical forms reach. -/
def strict : Datum → Datum
  | .scalar (.bool b) => .flag b
  | .list items => .list (strictAll items)
  | .map entries => .map (strictEntries entries)
  | d => d

/-- Data with booleans told apart from numbers. -/
def strictAll : List Datum → List Datum
  | [] => []
  | d :: ds => strict d :: strictAll ds

/-- Entries with booleans told apart from numbers. -/
def strictEntries : List (Key × Datum) → List (Key × Datum)
  | [] => []
  | (k, d) :: es => (k.strict, strict d) :: strictEntries es

end

/-! ## JSON text -/

mutual

/-- JSON text of a datum, where what JSON does not have stands as the JSON string of how
messages show it; nothing if a mapping key has no JSON name. -/
def json? : Datum → Option (List Char)
  | .scalar s => some (s.json?.getD (Text.json s.shown))
  | .flag b => (Scalar.bool b).json?
  | .tuple items => (jsonAll? items).map bracketed
  | .list items => (jsonAll? items).map bracketed
  | .map entries => (jsonEntries? entries).map braced
  | d => some (Text.json d.shown)

/-- JSON texts of data. -/
def jsonAll? : List Datum → Option (List (List Char))
  | [] => some []
  | d :: ds => do
    let t ← json? d
    let ts ← jsonAll? ds
    return t :: ts

/-- JSON members of entries. -/
def jsonEntries? : List (Key × Datum) → Option (List (List Char))
  | [] => some []
  | (k, d) :: es => do
    let name ← k.jsonName?
    let t ← json? d
    let ts ← jsonEntries? es
    return member name t :: ts

end

/-- The text of a value in the detail of a failed comparison: JSON of its canonical form, or, if
that does not exist, the value as messages show it.  An instant outside the calendar and a value
that contains itself are faults of their own. -/
def detail (d : Datum) : Except Fault String :=
  match d.canonical with
  | .ok c => .ok (String.ofList ((c.json?).getD d.shown))
  | .error fault =>
    if fault.family = .type || fault.family = .value then .ok (String.ofList d.shown)
    else .error fault

end Datum

end Conformance
