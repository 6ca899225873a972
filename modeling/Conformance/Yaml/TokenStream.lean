import Conformance.Yaml.Property
import Conformance.Yaml.Scalar.Block
import Conformance.Yaml.Scalar.Plain

/-!
# Token streams

The tokens of a text.  Outside flow collections indentation opens and closes blocks.  A colon
makes a key of a node that began earlier on its line, so a node that may turn out to be a key is
remembered with the place of its first token, and the mark of the key is put in there later.

A text that does not go on well has tokens up to a fault.  A node that may still turn out to be
a key at the fault is not among them.
-/

namespace Conformance.Yaml

/-- A node that may turn out to be a key. -/
structure OpenKey where
  /-- Number of flow collections around it. -/
  level : Nat
  /-- Number of tokens before it. -/
  token : Nat
  /-- It starts a line of a block mapping, so it has to be a key. -/
  required : Bool
  index : Nat
  line : Nat
  column : Nat
deriving Repr, Inhabited

/-- A text read so far. -/
structure Scan where
  cursor : Cursor
  tokens : Array Token
  /-- Number of flow collections around the cursor. -/
  flow : Nat
  /-- Columns of the blocks around the cursor, the innermost first. -/
  blocks : List Nat
  /-- Nodes that may turn out to be keys, the innermost first. -/
  keys : List OpenKey
  /-- A key may start here. -/
  keyAllowed : Bool
deriving Repr, Inhabited

/-- Greatest distance between the start of a key and its colon. -/
def keyReach : Nat := 1024

namespace Scan

/-- A text before anything is read. -/
def start (text : List Char) : Scan := ⟨.ofText text, #[], 0, [], [], true⟩

/-- Least column of what stands inside the innermost block. -/
def least (s : Scan) : Nat :=
  match s.blocks with
  | [] => 0
  | column :: _ => column + 1

/-- Adds a token. -/
def push (s : Scan) (t : Token) : Scan := { s with tokens := s.tokens.push t }

/-- Moves on. -/
def at_ (s : Scan) (c : Cursor) : Scan := { s with cursor := c }

/-- A node at a place is no key any more: its line has ended, or it is too far away. -/
def isPast (c : Cursor) (k : OpenKey) : Bool := k.line != c.line || keyReach < c.index - k.index

/-- Drops nodes that are no keys any more, unless one of them has to be a key. -/
def dropPast (s : Scan) : Except Fault Scan :=
  let past := s.keys.filter (isPast s.cursor)
  if past.any (·.required) then .error .yaml
  else .ok { s with keys := s.keys.filter (fun k => !isPast s.cursor k) }

/-- The node of the innermost flow collection that may turn out to be a key. -/
def openKey? (s : Scan) : Option OpenKey := s.keys.find? (fun k => k.level == s.flow)

/-- Without the node of the innermost flow collection, which must not have to be a key. -/
def closeKey (s : Scan) : Except Fault Scan :=
  match s.openKey? with
  | some k =>
    if k.required then .error .yaml
    else .ok { s with keys := s.keys.filter (fun k => k.level != s.flow) }
  | none => .ok s

/-- Remembers the node that starts here, if it may be a key. -/
def openKey (s : Scan) : Except Fault Scan := do
  if !s.keyAllowed then return s
  let s ← s.closeKey
  let required := s.flow == 0 && s.blocks.head? == some s.cursor.column
  let key := OpenKey.mk s.flow s.tokens.size required s.cursor.index s.cursor.line s.cursor.column
  return { s with keys := key :: s.keys }

/-- Ends the blocks that are indented by more than a column. -/
def closeBlocks (above : Nat → Bool) (s : Scan) : Scan :=
  let closed := s.blocks.takeWhile above
  { s with
    blocks := s.blocks.dropWhile above
    tokens := s.tokens ++ (closed.map fun _ => Token.blockEnd).toArray }

/-- Ends the blocks that the cursor has left. -/
def dedent (s : Scan) : Scan :=
  if s.flow == 0 then s.closeBlocks (fun column => s.cursor.column < column) else s

/-- Ends all blocks, before a mark that ends a document. -/
def leaveBlocks (s : Scan) : Except Fault Scan := do
  let s ← (if s.flow == 0 then s.closeBlocks (fun _ => true) else s).closeKey
  return { s with keyAllowed := false }

/-- A block starts at a column. -/
def opensBlock (s : Scan) (column : Nat) : Bool := s.least ≤ column

/-- Starts a block at the cursor, if it is indented by more than the one around it. -/
def openBlock (s : Scan) (t : Token) : Scan :=
  if s.opensBlock s.cursor.column then
    { s with blocks := s.cursor.column :: s.blocks, tokens := s.tokens.push t }
  else s

/-- Skips spaces, comments and line breaks.  Outside flow collections a key may start behind a
line break. -/
def skipGap : Nat → Scan → Scan
  | 0, s => s
  | fuel + 1, s =>
    let c := s.cursor.skipSpaces.skipComment
    match c.lineBreak? with
    | none => s.at_ c
    | some (_, c) => skipGap fuel { s.at_ c with keyAllowed := s.keyAllowed || s.flow == 0 }

/-- Goes to the next token. -/
def advance (s : Scan) : Scan :=
  let s := if s.cursor.index == 0 && startsIn (· == byteOrderMark) s.cursor.rest then
    s.at_ s.cursor.next else s
  skipGap (s.cursor.rest.length + 1) s

/-! ## One token -/

/-- A token of a number of characters. -/
def mark (s : Scan) (t : Token) (length : Nat) : Scan := (s.push t).at_ (s.cursor.forward length)

/-- The mark of the start or the end of a document. -/
def documentMark (s : Scan) (t : Token) : Except Fault Scan := do
  return (← s.leaveBlocks).mark t 3

/-- A directive. -/
def directive (s : Scan) : Except Fault Scan := do
  let s ← s.leaveBlocks
  let (d, c) ← readDirective s.cursor
  return (s.push (.directive d)).at_ c

/-- The start of a flow collection. -/
def flowStart (s : Scan) (t : Token) : Except Fault Scan := do
  let s ← s.openKey
  return { s.mark t 1 with flow := s.flow + 1, keyAllowed := true }

/-- The end of a flow collection. -/
def flowEnd (s : Scan) (t : Token) : Except Fault Scan := do
  let s ← s.closeKey
  return { s.mark t 1 with flow := s.flow - 1, keyAllowed := false }

/-- The mark between entries of a flow collection. -/
def flowEntry (s : Scan) : Except Fault Scan := do
  return { (← s.closeKey).mark .flowEntry 1 with keyAllowed := true }

/-- The mark in front of an entry of a block sequence. -/
def blockEntry (s : Scan) : Except Fault Scan := do
  if s.flow == 0 && !s.keyAllowed then throw .yaml
  let s := if s.flow == 0 then s.openBlock .blockSequenceStart else s
  return { (← s.closeKey).mark .blockEntry 1 with keyAllowed := true }

/-- The mark in front of a key. -/
def key (s : Scan) : Except Fault Scan := do
  if s.flow == 0 && !s.keyAllowed then throw .yaml
  let s := if s.flow == 0 then s.openBlock .blockMappingStart else s
  return { (← s.closeKey).mark .key 1 with keyAllowed := s.flow == 0 }

/-- Makes a key of the node that was remembered. -/
def foundKey (s : Scan) (k : OpenKey) : Scan :=
  let opens := s.flow == 0 && s.opensBlock k.column
  let marks := if opens then [Token.blockMappingStart, .key] else [.key]
  { s with
    keys := s.keys.filter (fun k => k.level != s.flow)
    tokens := s.tokens.extract 0 k.token ++ marks.toArray ++ s.tokens.extract k.token s.tokens.size
    blocks := if opens then k.column :: s.blocks else s.blocks
    keyAllowed := false }

/-- The mark in front of a value. -/
def value (s : Scan) : Except Fault Scan := do
  match s.openKey? with
  | some k => return (s.foundKey k).mark .value 1
  | none =>
    if s.flow == 0 && !s.keyAllowed then throw .yaml
    let s := if s.flow == 0 then s.openBlock .blockMappingStart else s
    return { (← s.closeKey).mark .value 1 with keyAllowed := s.flow == 0 }

/-- A token that may start a key, read by a reader. -/
def node {α : Type} (s : Scan) (read : Cursor → Except Fault (α × Cursor)) (token : α → Token) :
    Except Fault Scan := do
  let s ← s.openKey
  let (a, c) ← read s.cursor
  return { (s.push (token a)).at_ c with keyAllowed := false }

/-- A quoted scalar. -/
def quoted (s : Scan) : Except Fault Scan :=
  s.node readQuoted fun text => .scalar (String.ofList text) false

/-- A block scalar. -/
def block (s : Scan) : Except Fault Scan := do
  let s ← s.closeKey
  let (text, c) ← readBlock s.least s.cursor
  return { (s.push (.scalar (String.ofList text) false)).at_ c with keyAllowed := true }

/-- A plain scalar. -/
def plain (s : Scan) : Except Fault Scan := do
  let s ← s.openKey
  let p := readPlain (s.flow != 0) s.least s.cursor
  return { (s.push (.scalar (String.ofList p.text) true)).at_ p.after with keyAllowed := p.broken }

/-- A character that starts no plain scalar by itself. -/
def isIndicator (c : Char) : Bool :=
  "-?:,[]\x7b\x7d#&*!|>\x27\"%@\x60".toList.contains c

/-- A plain scalar starts here. -/
def startsPlain (s : Scan) : Bool :=
  match s.cursor.rest with
  | [] => false
  | c :: rest =>
    (!isGap c && !isIndicator c) ||
      (!endsOr isGap rest && (c == '-' || (s.flow == 0 && (c == '?' || c == ':'))))

/-- The mark here stands alone, or inside a flow collection. -/
def standsAlone (s : Scan) (rest : List Char) : Bool := s.flow != 0 || endsOr isGap rest

/-- Reads the token that starts at the cursor. -/
def token (s : Scan) (c : Char) (rest : List Char) : Except Fault Scan :=
  if c == '%' && s.cursor.column == 0 then s.directive
  else if s.cursor.column == 0 && s.cursor.standsMark '-' then s.documentMark .documentStart
  else if s.cursor.column == 0 && s.cursor.standsMark '.' then s.documentMark .documentEnd
  else if c == '[' then s.flowStart .flowSequenceStart
  else if c == '\x7b' then s.flowStart .flowMappingStart
  else if c == ']' then s.flowEnd .flowSequenceEnd
  else if c == '\x7d' then s.flowEnd .flowMappingEnd
  else if c == ',' then s.flowEntry
  else if c == '-' && endsOr isGap rest then s.blockEntry
  else if c == '?' && s.standsAlone rest then s.key
  else if c == ':' && s.standsAlone rest then s.value
  else if c == '*' then s.node readAnchor .alias
  else if c == '&' then s.node readAnchor .anchor
  else if c == '!' then s.node readTag .tag
  else if s.flow == 0 && (c == '|' || c == '>') then s.block
  else if c == '\x27' || c == '"' then s.quoted
  else if s.startsPlain then s.plain
  else .error .yaml

/-- Ends the text. -/
def finish (s : Scan) : Except Fault Scan := do
  return (← s.leaveBlocks).push .streamEnd

/-- Reads one token, and the ends of blocks before it.  The result tells whether it is the last. -/
def step (s : Scan) : Except Fault (Scan × Bool) := do
  let s := (← s.advance.dropPast).dedent
  match s.cursor.rest with
  | [] => return (← s.finish, true)
  | c :: rest => return (← s.token c rest, false)

/-- The tokens that nothing further on can change. -/
def settled (s : Scan) : List Token :=
  let pending := s.keys.filter (fun k => !isPast s.cursor k)
  s.tokens.toList.take ((pending.map (·.token)).foldl min s.tokens.size)

end Scan

/-- The tokens of a text, and the fault behind the last of them. -/
structure TokenStream where
  tokens : List Token
  fault : Fault
deriving Repr, Inhabited

namespace TokenStream

/-- The tokens of a text that is read so far. -/
def ofScan : Nat → Scan → TokenStream
  | 0, s => ⟨s.settled, .yaml⟩
  | fuel + 1, s =>
    match s.step with
    | .error fault => ⟨s.settled, fault⟩
    | .ok (s, true) => ⟨s.tokens.toList, .yaml⟩
    | .ok (s, false) => ofScan fuel s

/-- The tokens of a text.  Each but the last takes at least one character. -/
def ofText (text : List Char) : TokenStream := ofScan (text.length + 2) (.start text)

end TokenStream

end Conformance.Yaml
