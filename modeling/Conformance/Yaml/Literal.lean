import Conformance.Data.Literal
import Conformance.Text.Base64
import Conformance.Yaml.Node
import Conformance.Yaml.Schema.Number
import Conformance.Yaml.Schema.Timestamp

/-!
# Values of nodes

The value of a node follows its kind.  A mapping takes in the entries of mappings under merge
keys, in front of its own; a later entry of the same key wins.  As one of the pairs of a sequence
it stands for its single entry as it is written.

Of several faults the least deep one counts, and of those the first: a collection is filled only
after everything on its own level has been read.  `Graded` values carry faults with their depth.
-/

namespace Conformance.Yaml

/-- A value, or a fault with its depth below the node that was asked for. -/
abbrev Graded (α : Type) := Except (Nat × Fault) α

namespace Graded

/-- The fault of less depth, or the first. -/
def earlier (f g : Nat × Fault) : Nat × Fault := if g.1 < f.1 then g else f

/-- Two values, or the earlier fault. -/
def both {α β γ : Type} (f : α → β → γ) : Graded α → Graded β → Graded γ
  | .ok a, .ok b => .ok (f a b)
  | .error e, .ok _ => .error e
  | .ok _, .error e => .error e
  | .error e, .error e' => .error (earlier e e')

/-- Faults one level further down. -/
def deeper {α : Type} : Graded α → Graded α
  | .ok a => .ok a
  | .error (depth, fault) => .error (depth + 1, fault)

/-- A fault on the level of the node itself. -/
def fail {α : Type} (fault : Fault) : Graded α := .error (0, fault)

/-- A value, or a fault on the level of the node itself. -/
def here {α : Type} : Except Fault α → Graded α
  | .ok a => .ok a
  | .error fault => fail fault

/-- Without the depth of a fault. -/
def flat {α : Type} : Graded α → Except Fault α
  | .ok a => .ok a
  | .error (_, fault) => .error fault

end Graded

/-! ## Scalars -/

/-- The truth value of a text. -/
def readBool (text : List Char) : Except Fault Bool :=
  let word := String.ofList (Text.lower text)
  if ["yes", "true", "on"].contains word then .ok true
  else if ["no", "false", "off"].contains word then .ok false
  else .error (.notBoolean word)

/-- The bytes of a text in base 64. -/
def readBinary (text : List Char) : Except Fault (List UInt8) :=
  if text.all (fun c => c.toNat < 128) then
    match Text.base64? text with
    | some bytes => .ok bytes
    | none => .error .yaml
  else .error .yaml

/-- The scalar of a kind with a text. -/
def scalarOf (tag : Tag) (text : String) : Except Fault Scalar :=
  match tag with
  | .null => .ok .null
  | .bool => (readBool text.toList).map .bool
  | .int => (readInt text.toList).map .int
  | .float => (readFloat text.toList).map .float
  | .str => .ok (.str text)
  | .timestamp => readTimestamp text.toList
  | .binary => (readBinary text.toList).map .bytes
  | _ => .error .yaml

/-- Kinds of scalars. -/
def Tag.isScalar : Tag → Bool
  | .null | .bool | .int | .float | .str | .timestamp | .binary => true
  | _ => false

/-- Kinds of collections, which are filled later. -/
def Tag.isCollection : Tag → Bool
  | .sequence | .mapping | .pairs => true
  | _ => false

namespace Node

/-- Kind of a node. -/
def tag : Node → Tag
  | scalar t _ => t
  | sequence t _ => t
  | mapping t _ => t

mutual

/-- The text of a node that is read as a scalar: of a mapping, that of its default value. -/
def text? : Node → Option String
  | scalar _ text => some text
  | sequence _ _ => none
  | mapping _ entries => defaultText? entries

/-- The text under the key for the value of a whole mapping. -/
def defaultText? : List (Node × Node) → Option String
  | [] => none
  | (k, v) :: rest => if k.tag = .default then text? v else defaultText? rest

end

/-! ## Collections -/

/-- An entry of a mapping that is read. -/
abbrev Entry := Graded Literal × Graded Literal

/-- A node that is read. -/
structure Reading where
  value : Graded Literal
  /-- The entries of a mapping. -/
  entries? : Option (List Entry)
  /-- The entries that the node brings in as the value of a merge key. -/
  merged? : Option (List Entry)
  /-- What the node is as one of the pairs of a sequence. -/
  pair : Graded Literal

/-- A key and its value in a mapping, both read. -/
structure EntryReading where
  node : Node
  key : Graded Literal
  value : Reading

/-- A key: the value has to be a scalar. -/
def keyOf : Graded Literal → Graded Key
  | .ok (.scalar s) => .ok (.scalar s)
  | .ok _ => .fail .yaml
  | .error (0, fault) => .fail fault
  | .error (_ + 1, _) => .fail .yaml

/-- Values in a row. -/
def items : List (Graded Literal) → Graded (List Literal)
  | [] => .ok []
  | v :: vs => Graded.both (· :: ·) v (items vs)

/-- Entries in a row. -/
def pairs : List Entry → Graded (List (Key × Literal))
  | [] => .ok []
  | (k, v) :: rest => Graded.both (· :: ·) (Graded.both Prod.mk (keyOf k) v) (pairs rest)

/-- The value of a collection of some kind: what it holds if it is of that kind, the scalar that
stands for it if it is read as a scalar. -/
def collected (node : Node) (kind : Tag) (content : Graded Literal) : Graded Literal :=
  if node.tag = kind then content.deeper
  else if node.tag.isScalar then
    match node.text? with
    | some text => .here ((scalarOf node.tag text).map .scalar)
    | none => .fail .yaml
  else if node.tag.isCollection then (Graded.fail .yaml).deeper
  else .fail .yaml

/-- The value of a mapping with given entries, unless a merge key is not well used. -/
def mappingValue (entries? : Option (List Entry)) : Graded Literal :=
  match entries? with
  | some entries => (pairs entries).map fun es => .map (Entries.ofList es)
  | none => .fail .yaml

/-- The entries of mappings, those of the last one first. -/
def mergedAll? : List Reading → Option (List Entry)
  | [] => some []
  | r :: rs => do return (← mergedAll? rs) ++ (← r.entries?)

/-- The value of a key as it stands in a mapping: there the default mark is a text. -/
def keyValue (k : Node) (read : Graded Literal) : Graded Literal :=
  if k.tag = .default then
    match k.text? with
    | some text => .ok (.str text)
    | none => .fail .yaml
  else read

/-- The entries of a mapping: those under merge keys, and the others. -/
def splitEntries? : List EntryReading → Option (List Entry × List Entry)
  | [] => some ([], [])
  | e :: rest =>
    if e.node.tag = .merge then do
      let here ← e.value.merged?
      let (merged, own) ← splitEntries? rest
      return (here ++ merged, own)
    else do
      let (merged, own) ← splitEntries? rest
      return (merged, (keyValue e.node e.key, e.value.value) :: own)

/-- The only entry of a mapping as a pair. -/
def pairOf : List EntryReading → Graded Literal
  | [e] => Graded.both (fun key value => .tuple [key, value]) e.key e.value.value
  | _ => .fail .yaml

/-- The value of a sequence with parts that are read. -/
def sequenceValue (tag : Tag) (readings : List Reading) : Graded Literal :=
  let parts := readings.map fun r => if tag = .pairs then r.pair else r.value
  (items parts).map .list

mutual

/-- Reads a node. -/
def read : Node → Reading
  | scalar tag text =>
    ⟨if tag.isCollection then (Graded.fail .yaml).deeper
      else .here ((scalarOf tag text).map .scalar), none, none, .fail .yaml⟩
  | sequence tag nodes =>
    let readings := readAll nodes
    let kind := if tag = .pairs then Tag.pairs else .sequence
    ⟨collected (sequence tag nodes) kind (sequenceValue tag readings), none, mergedAll? readings,
      .fail .yaml⟩
  | mapping tag nodes =>
    let readings := readEntries nodes
    let entries? := (splitEntries? readings).map fun (merged, own) => merged ++ own
    ⟨collected (mapping tag nodes) .mapping (mappingValue entries?), entries?, entries?,
      pairOf readings⟩

/-- Reads nodes. -/
def readAll : List Node → List Reading
  | [] => []
  | node :: nodes => read node :: readAll nodes

/-- Reads the keys and values of a mapping. -/
def readEntries : List (Node × Node) → List EntryReading
  | [] => []
  | (k, v) :: rest => ⟨k, (read k).value, read v⟩ :: readEntries rest

end

/-- The value of a document. -/
def literal (node : Node) : Except Fault Literal := node.read.value.flat

end Node

end Conformance.Yaml
