import Conformance.Data.Named
import Conformance.Yaml.Literal
import Conformance.Yaml.Schema.Plain
import Conformance.Yaml.TokenStream

/-!
# Documents

The documents of a text, one after another.  A document that cannot be read is the last: nothing
behind it is looked at.  A character that may not stand in a text spoils all of it.
-/

namespace Conformance.Yaml

/-- Tokens not yet used, and what is known while a document is read. -/
structure Reader where
  tokens : List Token
  /-- The fault behind the last token. -/
  fault : Fault
  /-- Anchored nodes by name; one that is still open has no node. -/
  anchors : List (String × Option Node)
  /-- Expansions of tag handles. -/
  handles : List (String × String)

/-- A step of reading. -/
abbrev Read := StateT Reader (Except Fault)

namespace Read

/-- The next token. -/
def peek : Read Token := fun r =>
  match r.tokens with
  | t :: _ => .ok (t, r)
  | [] => .error r.fault

/-- Passes over the next token. -/
def skip : Read Unit := fun r => .ok ((), { r with tokens := r.tokens.tail })

/-- The next token, passed over. -/
def take : Read Token := do
  let t ← peek
  skip
  return t

/-- The text breaks a rule. -/
def refuse {α : Type} : Read α := throw Fault.yaml

/-- Passes over a token that has to be there. -/
def expect (t : Token) : Read Unit := do
  if (← peek) = t then skip else refuse

/-- Whether one of some tokens is the next. -/
def atAny (tokens : List Token) : Read Bool := do return tokens.contains (← peek)

end Read

/-! ## Nodes -/

/-- Handles that need no directive. -/
def defaultHandles : List (String × String) := [("!", "!"), ("!!", Tag.family)]

/-- The tag that a written one means. -/
def expand (t : WrittenTag) : Read String :=
  match t with
  | .full tag => return tag
  | .short handle suffix => do
    match named? (← get).handles handle with
    | some expansion => return expansion ++ suffix
    | none => Read.refuse

/-- The anchor that may stand here. -/
def anchor? : Read (Option String) := do
  match ← Read.peek with
  | .anchor name => do
    Read.skip
    return some name
  | _ => return none

/-- The tag that may stand here. -/
def tag? : Read (Option String) := do
  match ← Read.peek with
  | .tag t => do
    Read.skip
    return some (← expand t)
  | _ => return none

/-- Anchor and tag of a node, in either order. -/
def properties : Read (Option String × Option String) := do
  match ← anchor? with
  | some name => return (some name, ← tag?)
  | none =>
    match ← tag? with
    | some tag => return (← anchor?, some tag)
    | none => return (none, none)

/-- The tag that leaves the kind of a node open. -/
def openTag : String := "!"

/-- Kind of a scalar. -/
def scalarTag (tag : Option String) (text : String) (plain : Bool) : Tag :=
  match tag with
  | none => if plain then plainTag text.toList else .str
  | some tag => if tag = openTag then plainTag text.toList else .ofText tag

/-- Kind of a collection that is of some kind by itself. -/
def collectionTag (tag : Option String) (own : Tag) : Tag :=
  match tag with
  | none => own
  | some tag => if tag = openTag then own else .ofText tag

/-- A node without content. -/
def emptyNode : Node := .scalar .null ""

/-- Remembers an anchored node. -/
def bindAnchor (anchor : Option String) (node : Option Node) : Read Unit :=
  match anchor with
  | some name => modify fun r => { r with anchors := setNamed r.anchors name node }
  | none => return ()

/-- Starts an anchored node: a name is used once. -/
def openAnchor (anchor : Option String) : Read Unit := do
  if let some name := anchor then
    if ((← get).anchors.any (·.1 == name)) then Read.refuse
  bindAnchor anchor none

/-- The node that an alias names. -/
def aliased (name : String) : Read Node := do
  match named? (← get).anchors name with
  | some (some node) => return node
  | _ => Read.refuse

/-- Where a node stands: whether blocks may start here, and whether a block sequence may without
being indented. -/
structure Place where
  block : Bool
  sequence : Bool
deriving DecidableEq

/-- Inside a flow collection. -/
def Place.inFlow : Place := ⟨false, false⟩

/-- An entry of a block sequence, or a whole document. -/
def Place.inBlock : Place := ⟨true, false⟩

/-- A key or a value of a block mapping. -/
def Place.inMapping : Place := ⟨true, true⟩

mutual

/-- A node. -/
def readNode : Nat → Place → Read Node
  | 0, _ => Read.refuse
  | fuel + 1, place => do
    if let .alias name ← Read.peek then
      Read.skip
      return ← aliased name
    let (anchor, tag) ← properties
    openAnchor anchor
    let node ← readContent fuel place (anchor.isSome || tag.isSome) tag
    bindAnchor anchor (some node)
    return node

/-- The content of a node, whose properties are read. -/
def readContent : Nat → Place → Bool → Option String → Read Node
  | 0, _, _, _ => Read.refuse
  | fuel + 1, place, marked, tag => do
    match ← Read.peek with
    | .scalar text plain =>
      Read.skip
      return .scalar (scalarTag tag text plain) text
    | .flowSequenceStart =>
      Read.skip
      return .sequence (collectionTag tag .sequence) (← readFlowItems fuel true)
    | .flowMappingStart =>
      Read.skip
      return .mapping (collectionTag tag .mapping) (← readFlowEntries fuel true)
    | t =>
      if t = .blockEntry && place.sequence then
        return .sequence (collectionTag tag .sequence) (← readLooseItems fuel)
      else if t = .blockSequenceStart && place.block then
        Read.skip
        return .sequence (collectionTag tag .sequence) (← readItems fuel)
      else if t = .blockMappingStart && place.block then
        Read.skip
        return .mapping (collectionTag tag .mapping) (← readEntries fuel)
      else if marked then return .scalar (scalarTag tag "" true) ""
      else Read.refuse

/-- A node, or one without content if one of some tokens is next. -/
def readUnless : Nat → List Token → Place → Read Node
  | 0, _, _ => Read.refuse
  | fuel + 1, ends, place => do
    if ← Read.atAny ends then return emptyNode else readNode fuel place

/-- Items of a block sequence up to its end. -/
def readItems : Nat → Read (List Node)
  | 0 => Read.refuse
  | fuel + 1 => do
    match ← Read.take with
    | .blockEntry =>
      let item ← readUnless fuel [.blockEntry, .blockEnd] .inBlock
      return item :: (← readItems fuel)
    | .blockEnd => return []
    | _ => Read.refuse

/-- Items of a block sequence that is not indented. -/
def readLooseItems : Nat → Read (List Node)
  | 0 => Read.refuse
  | fuel + 1 => do
    if (← Read.peek) = .blockEntry then
      Read.skip
      let item ← readUnless fuel [.blockEntry, .key, .value, .blockEnd] .inBlock
      return item :: (← readLooseItems fuel)
    else return []

/-- Entries of a block mapping up to its end. -/
def readEntries : Nat → Read (List (Node × Node))
  | 0 => Read.refuse
  | fuel + 1 => do
    match ← Read.take with
    | .key =>
      let key ← readUnless fuel [.key, .value, .blockEnd] .inMapping
      let value ← readValue fuel [.key, .value, .blockEnd] .inMapping
      return (key, value) :: (← readEntries fuel)
    | .blockEnd => return []
    | _ => Read.refuse

/-- The value behind a key, if there is one. -/
def readValue : Nat → List Token → Place → Read Node
  | 0, _, _ => Read.refuse
  | fuel + 1, ends, place => do
    if (← Read.peek) = .value then
      Read.skip
      readUnless fuel ends place
    else return emptyNode

/-- Items of a flow sequence up to its end. -/
def readFlowItems : Nat → Bool → Read (List Node)
  | 0, _ => Read.refuse
  | fuel + 1, first => do
    if (← Read.peek) = .flowSequenceEnd then
      Read.skip
      return []
    if !first then Read.expect .flowEntry
    match ← Read.peek with
    | .flowSequenceEnd =>
      Read.skip
      return []
    | .key =>
      Read.skip
      let key ← readUnless fuel [.value, .flowEntry, .flowSequenceEnd] .inFlow
      let value ← readValue fuel [.flowEntry, .flowSequenceEnd] .inFlow
      return .mapping .mapping [(key, value)] :: (← readFlowItems fuel false)
    | _ =>
      let item ← readNode fuel .inFlow
      return item :: (← readFlowItems fuel false)

/-- Entries of a flow mapping up to its end. -/
def readFlowEntries : Nat → Bool → Read (List (Node × Node))
  | 0, _ => Read.refuse
  | fuel + 1, first => do
    if (← Read.peek) = .flowMappingEnd then
      Read.skip
      return []
    if !first then Read.expect .flowEntry
    match ← Read.peek with
    | .flowMappingEnd =>
      Read.skip
      return []
    | .key =>
      Read.skip
      let key ← readUnless fuel [.value, .flowEntry, .flowMappingEnd] .inFlow
      let value ← readValue fuel [.flowEntry, .flowMappingEnd] .inFlow
      return (key, value) :: (← readFlowEntries fuel false)
    | _ =>
      let key ← readNode fuel .inFlow
      return (key, emptyNode) :: (← readFlowEntries fuel false)

end

/-! ## Documents -/

/-- Directives before a document: at most one version, which has to be a first one, and each tag
handle once. -/
def readDirectives : Nat → Bool → List (String × String) → Read (List (String × String))
  | 0, _, _ => Read.refuse
  | fuel + 1, versioned, handles => do
    match ← Read.peek with
    | .directive d =>
      Read.skip
      match d with
      | .version major =>
        if versioned || major ≠ 1 then Read.refuse else readDirectives fuel true handles
      | .handle handle expansion =>
        if (named? handles handle).isSome then Read.refuse
        else readDirectives fuel versioned (handles ++ [(handle, expansion)])
      | .other => readDirectives fuel versioned handles
    | _ => return handles ++ defaultHandles

/-- Passes over marks of the end of a document. -/
def skipDocumentEnds : Nat → Read Unit
  | 0 => Read.refuse
  | fuel + 1 => do
    if (← Read.peek) = .documentEnd then
      Read.skip
      skipDocumentEnds fuel

/-- Whether the next document starts with its content, without a mark. -/
def isBare : Token → Bool
  | .directive _ | .documentStart | .streamEnd => false
  | _ => true

/-- The content of a document that starts with a mark. -/
def readMarked (fuel : Nat) : Read Node := do
  modify fun r => { r with handles := [] }
  let handles ← readDirectives fuel false []
  modify fun r => { r with handles }
  Read.expect .documentStart
  match ← Read.peek with
  | .directive _ | .documentStart | .documentEnd | .streamEnd => return emptyNode
  | _ => readNode fuel .inBlock

/-- The next document, if there is one.  Only the first may go without a mark. -/
def readDocument (fuel : Nat) (first : Bool) : Read (Option Node) := do
  modify fun r => { r with anchors := [], handles := defaultHandles }
  let node ← if first && isBare (← Read.peek) then readNode fuel .inBlock else do
    skipDocumentEnds fuel
    if (← Read.peek) = .streamEnd then return none
    readMarked fuel
  if (← Read.peek) = .documentEnd then Read.skip
  return some node

/-- The values of documents from here on. -/
def documentsFrom (fuel : Nat) : Nat → Bool → Reader → List (Except Fault Literal)
  | 0, _, _ => []
  | count + 1, first, r =>
    match (readDocument fuel first).run r with
    | .error fault => [.error fault]
    | .ok (none, _) => []
    | .ok (some node, r) =>
      match node.literal with
      | .error fault => [.error fault]
      | .ok v => .ok v :: documentsFrom fuel count false r

/-- A character that may stand in a text. -/
def isAllowed (c : Char) : Bool :=
  let n := c.toNat
  n == 9 || n == 10 || n == 13 || (32 ≤ n && n ≤ 126) || n == 0x85 ||
    (0xA0 ≤ n && n ≤ 0xD7FF) || (0xE000 ≤ n && n ≤ 0xFFFD) || 0x10000 ≤ n

/-- The values of the documents of a text. -/
def documents (text : List Char) : List (Except Fault Literal) :=
  if !text.all isAllowed then [.error .yaml]
  else
    let stream := TokenStream.ofText text
    let count := stream.tokens.length + 1
    documentsFrom (4 * count) count true ⟨stream.tokens, stream.fault, [], []⟩

end Conformance.Yaml
