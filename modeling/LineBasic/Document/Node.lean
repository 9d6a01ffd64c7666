import LineBasic.Document.Lexer
import LineBasic.Document.Scalar

namespace LineBasic.Document

-- A part of a document with the line it starts on, counted from one, and its tag in the short
-- form. An alias stands for the anchored node of the given number.
inductive Node where
  | scalar (line : Nat) (tag : Bytes) (value : Bytes)
  | sequence (line : Nat) (tag : Bytes) (items : List Node)
  | mapping (line : Nat) (tag : Bytes) (entries : List (Node × Node))
  | reference (line : Nat) (name : Bytes) (number : Nat)

namespace Node

def line : Node → Nat
  | .scalar line _ _ => line
  | .sequence line _ _ => line
  | .mapping line _ _ => line
  | .reference line _ _ => line

def tagOr (tag : Option Bytes) (ordinary : Bytes) : Bytes :=
  match tag with
  | none => ordinary
  | some tag => if tag = [33] then ordinary else Scalar.shortTag tag

-- A text without quotes tells its tag itself.
def ofText (line : Nat) (tag : Option Bytes) (isPlain : Bool) (value : Bytes) : Node :=
  let ordinary := if isPlain then Scalar.plainTag value else Bytes.ofString "!!str"
  .scalar line (tagOr tag ordinary) value

def empty (line : Nat) : Node :=
  .ofText (line + 1) none true []

end Node

-- The place in the text, the handles for tags, the names of the anchors with their numbers, the
-- last one first, and the nodes that have them. Nothing in the text is nested deeper or has more
-- parts than `bound`.
structure Feed where
  lexer : Lexer
  handles : List (Bytes × Bytes)
  anchors : List (List Char × Nat)
  anchored : List (Nat × Node)
  bound : Nat

abbrev Parser := StateT Feed (Except Malformed)

namespace Parser

def fail {α : Type} (token : Token) (reason : String) : Parser α :=
  throw ⟨token.line, reason⟩

-- The next token. An error that comes within two tokens after it is noticed already.
def peek : Parser Token := do
  let feed ← get
  let lexer ← feed.lexer.prepare (feed.lexer.rest.length + 4)
  set { feed with lexer := lexer }
  return lexer.waiting[0]?.getD ⟨.streamEnd, lexer.line⟩

def advance : Parser Unit :=
  modify fun feed => { feed with lexer := feed.lexer.take }

-- A child, unless the next token is one of those that show that there is none. Then the child is
-- taken to stand on the given line, or where the token stands.
def childUnless (absent : List Sign) (line : Option Nat) (child : Parser Node) : Parser Node := do
  let token ← peek
  if absent.contains token.sign then return .empty (line.getD token.line) else child

def valueUnless (absent : List Sign) (child : Parser Node) : Parser Node := do
  let token ← peek
  if token.sign = .value then
    advance
    childUnless absent none child
  else return .empty token.line

def blockItems (child : Parser Node) : Nat → Parser (List Node)
  | 0 => return []
  | fuel + 1 => do
    let token ← peek
    match token.sign with
    | .item =>
      advance
      let node ← childUnless [.item, .blockEnd] none child
      return node :: (← blockItems child fuel)
    | .blockEnd =>
      advance
      return []
    | _ => fail token "did not find expected '-' indicator"

-- The items of a sequence that is not indented more than the mapping it belongs to.
def indentlessItems (child : Parser Node) : Nat → Parser (List Node)
  | 0 => return []
  | fuel + 1 => do
    let token ← peek
    if token.sign = .item then
      advance
      let node ← childUnless [.item, .key, .value, .blockEnd] none child
      return node :: (← indentlessItems child fuel)
    else return []

def blockEntries (child : Parser Node) : Nat → Parser (List (Node × Node))
  | 0 => return []
  | fuel + 1 => do
    let token ← peek
    match token.sign with
    | .key =>
      advance
      let key ← childUnless [.key, .value, .blockEnd] (some token.line) child
      let value ← valueUnless [.key, .value, .blockEnd] child
      return (key, value) :: (← blockEntries child fuel)
    | .blockEnd =>
      advance
      return []
    | _ => fail token "did not find expected key"

-- A comma, which must stand before every part of a flow collection but the first.
def comma (first : Bool) (reason : String) : Parser Unit := do
  let token ← peek
  if first then return ()
  else if token.sign = .separator then advance
  else fail token reason

-- The key of a pair in a flow sequence. The token that shows that there is none is passed over.
def pairKey (child : Parser Node) : Parser Node := do
  let token ← peek
  if [Sign.value, .separator, .flowSequenceEnd].contains token.sign then
    advance
    return .empty token.line
  else child

-- The items of a flow sequence. A key with a value is a mapping of its own.
def flowItems (child : Parser Node) : Nat → Bool → Parser (List Node)
  | 0, _ => return []
  | fuel + 1, first => do
    let token ← peek
    if token.sign = .flowSequenceEnd then
      advance
      return []
    comma first "did not find expected ',' or ']'"
    let token ← peek
    match token.sign with
    | .flowSequenceEnd =>
      advance
      return []
    | .key =>
      advance
      let key ← pairKey child
      let value ← valueUnless [.separator, .flowSequenceEnd] child
      let pair := Node.mapping (token.line + 1) (Bytes.ofString "!!map") [(key, value)]
      return pair :: (← flowItems child fuel false)
    | _ =>
      let node ← child
      return node :: (← flowItems child fuel false)

def flowEntries (child : Parser Node) : Nat → Bool → Parser (List (Node × Node))
  | 0, _ => return []
  | fuel + 1, first => do
    let token ← peek
    if token.sign = .flowMappingEnd then
      advance
      return []
    comma first "did not find expected ',' or '\x7d'"
    let token ← peek
    match token.sign with
    | .flowMappingEnd =>
      advance
      return []
    | .key =>
      advance
      let key ← childUnless [.value, .separator, .flowMappingEnd] none child
      let value ← valueUnless [.separator, .flowMappingEnd] child
      return (key, value) :: (← flowEntries child fuel false)
    | _ =>
      let key ← child
      return (key, .empty (← peek).line) :: (← flowEntries child fuel false)

def fullTag (token : Token) (handle rest : Bytes) : Parser Bytes := do
  if handle.isEmpty then return rest
  else match (← get).handles.lookup handle with
    | some front => return front ++ rest
    | none => fail token "found undefined tag handle"

def properties :
    Nat → Option (List Char) → Option Bytes → Parser (Option (List Char) × Option Bytes)
  | 0, anchor, tag => return (anchor, tag)
  | fuel + 1, anchor, tag => do
    let token ← peek
    match token.sign, anchor, tag with
    | .anchor name, none, _ =>
      advance
      properties fuel (some name) tag
    | .tag handle rest, _, none =>
      advance
      properties fuel anchor (some (← fullTag token handle rest))
    | _, _, _ => return (anchor, tag)

def ofChars (text : List Char) : Bytes :=
  text.flatMap String.utf8EncodeChar

def openAnchor (name : List Char) : Parser Nat := do
  let feed ← get
  let number := feed.anchors.length
  set { feed with anchors := (name, number) :: feed.anchors }
  return number

-- A node nested less than `depth` deep. In flow collections there are no blocks; the value of a
-- key may be a sequence that is not indented. A name can be used inside the node that has it.
def node : Nat → Bool → Bool → Parser Node
  | 0, _, _ => do fail (← peek) "did not find expected node content"
  | depth + 1, inBlock, indentless => do
    let start ← peek
    let count := (← get).bound
    let line := start.line + 1
    match start.sign with
    | .reference name =>
      advance
      match (← get).anchors.lookup name with
      | some number => return .reference line (ofChars name) number
      | none => fail start "unknown anchor referenced"
    | _ =>
      let (anchor, tag) ← properties 2 none none
      let token ← peek
      let number ← anchor.mapM openAnchor
      let listTag := Node.tagOr tag (Bytes.ofString "!!seq")
      let mapTag := Node.tagOr tag (Bytes.ofString "!!map")
      let found ← match token.sign with
        | .scalar isPlain text =>
          advance
          pure (Node.ofText line tag isPlain (ofChars text))
        | .flowSequence =>
          advance
          pure (.sequence line listTag (← flowItems (node depth false false) count true))
        | .flowMapping =>
          advance
          pure (.mapping line mapTag (← flowEntries (node depth false false) count true))
        | sign =>
          if sign = .item ∧ indentless then
            pure (.sequence line listTag (← indentlessItems (node depth true false) count))
          else if sign = .blockSequence ∧ inBlock then
            advance
            pure (.sequence line listTag (← blockItems (node depth true false) count))
          else if sign = .blockMapping ∧ inBlock then
            advance
            pure (.mapping line mapTag (← blockEntries (node depth true true) count))
          else if anchor.isSome || tag.isSome then pure (.ofText line tag true [])
          else fail token "did not find expected node content"
      if let some number := number then
        modify fun feed => { feed with anchored := (number, found) :: feed.anchored }
      return found

def commonHandles : List (Bytes × Bytes) :=
  [([33], [33]), ([33, 33], Bytes.ofString "tag:yaml.org,2002:")]

-- The directives in front of a document. Only one version of the format is known.
def directives : Nat → Bool → Parser Unit
  | 0, _ => return ()
  | fuel + 1, versioned => do
    let token ← peek
    match token.sign with
    | .version major minor =>
      if versioned then fail token "found duplicate %YAML directive"
      else if major ≠ 1 ∨ minor ≠ 1 then fail token "found incompatible YAML document"
      advance
      directives fuel true
    | .tagHandle handle front =>
      let feed ← get
      if (feed.handles.lookup handle).isSome then fail token "found duplicate %TAG directive"
      set { feed with handles := (handle, front) :: feed.handles }
      advance
      directives fuel versioned
    | _ => modify fun feed => { feed with handles := feed.handles ++ commonHandles }

def startsDocument : Sign → Bool
  | .version _ _ | .tagHandle _ _ | .documentStart => true
  | _ => false

def endsDocument (sign : Sign) : Bool :=
  startsDocument sign || sign == .documentEnd || sign == .streamEnd

-- The first document, if there is any. What follows it is not read.
def document : Parser (Option Node) := do
  let bound := (← get).bound
  let token ← peek
  if token.sign = .streamEnd then return none
  let declared := startsDocument token.sign
  directives bound false
  let token ← peek
  if declared then
    if token.sign = .documentStart then advance
    else fail token "did not find expected <document start>"
  let token ← peek
  let root ←
    if declared && endsDocument token.sign then pure (.empty token.line)
    else node bound true false
  let _ ← peek
  return some root

end Parser

structure Tree where
  root : Node
  anchored : List (Nat × Node)

namespace Tree

def target (t : Tree) : Node → Node
  | .reference line _ number => (t.anchored.lookup number).getD (.empty (line - 1))
  | node => node

def read? (text : Bytes) : Except Malformed (Option Tree) := do
  let source := Source.ofBytes text
  let (root, feed) ← Parser.document.run ⟨.start source, [], [], [], source.chars.length + 2⟩
  return root.map fun root => ⟨root, feed.anchored⟩

end Tree

end LineBasic.Document
