import LineBasic.Document.Source

namespace LineBasic.Document

def isBlank (c : Char) : Bool :=
  c == ' ' || c == '\t'

def isBreak (c : Char) : Bool :=
  c == '\n' || c == '\r' || c.toNat == 0x85 || c.toNat == 0x2028 || c.toNat == 0x2029

-- The text ends here, or goes on with a blank or a line break.
def gapAhead : List Char → Bool
  | [] => true
  | c :: _ => isBlank c || isBreak c

def breakChar (c : Char) : Char :=
  if c == '\r' || c.toNat == 0x85 then '\n' else c

def dividerAhead (text : List Char) : Bool :=
  ("---".toList.isPrefixOf text || "...".toList.isPrefixOf text) && gapAhead (text.drop 3)

-- A scalar or collection that becomes a key if a colon follows it on the same line. One that
-- stands where a key must stand is required.
structure KeyCandidate where
  token : Nat
  required : Bool
  index : Nat
  line : Nat
  column : Nat

-- A place in a document with the tokens before it that nobody has taken yet. The text ends with a
-- fault if it cannot be read to its end. Nothing but blanks has come since the last line break if
-- `afterBreak` holds. The key candidates are those of the open flow collections, the innermost
-- first, and of the block around them. Lines that start among the first `marked` characters are
-- taken to start with a byte order mark.
structure Lexer where
  rest : List Char
  fault : Option Malformed
  marked : Nat
  index : Nat
  line : Nat
  column : Nat
  afterBreak : Bool
  taken : Nat
  waiting : Array Token
  indent : Int
  indents : List Int
  keyAllowed : Bool
  keys : List (Option KeyCandidate)

namespace Lexer

def start (source : Source) : Lexer :=
  ⟨source.chars, source.fault, source.marked, 0, 0, 0, false, 0, #[], -1, [], true, [none]⟩

def inFlow (l : Lexer) : Bool :=
  1 < l.keys.length

def fail {α : Type} (l : Lexer) (reason : String) : Except Malformed α :=
  .error ⟨l.line, reason⟩

def skip (l : Lexer) (n : Nat) : Lexer :=
  { l with
    rest := l.rest.drop n
    index := l.index + n
    column := l.column + n
    afterBreak := l.afterBreak && (l.rest.take n).all isBlank }

def skipBreak (l : Lexer) : Lexer :=
  let n := if ['\r', '\n'].isPrefixOf l.rest then 2 else 1
  { l with
    rest := l.rest.drop n
    index := l.index + n
    line := l.line + 1
    column := 0
    afterBreak := true }

def emit (l : Lexer) (sign : Sign) : Lexer :=
  { l with waiting := l.waiting.push ⟨sign, l.line⟩ }

def count (l : Lexer) : Nat :=
  l.taken + l.waiting.size

def insert (l : Lexer) (number : Nat) (token : Token) : Lexer :=
  let place := number - l.taken
  { l with waiting := l.waiting.take place ++ #[token] ++ l.waiting.drop place }

-- Opens a block at a column unless one of that depth is open.
def roll (l : Lexer) (column number : Nat) (sign : Sign) (line : Nat) : Lexer :=
  if !l.inFlow && decide (l.indent < column) then
    { l.insert number ⟨sign, line⟩ with indent := column, indents := l.indent :: l.indents }
  else l

def unrollAll (column : Int) : List Int → Lexer → Lexer
  | [], l => l
  | outer :: rest, l =>
    if column < l.indent then
      unrollAll column rest { l.emit .blockEnd with indent := outer, indents := rest }
    else l

def unroll (l : Lexer) (column : Int) : Lexer :=
  if l.inFlow then l else unrollAll column l.indents l

def currentKey (l : Lexer) : Option KeyCandidate :=
  l.keys.head?.join

def setKey (l : Lexer) (key : Option KeyCandidate) : Lexer :=
  { l with keys := key :: l.keys.drop 1 }

-- Gives up the current candidate, which is an error if it was required.
def dropKey (l : Lexer) : Except Malformed Lexer :=
  match l.currentKey with
  | some ⟨_, true, _, _, _⟩ => l.fail "could not find expected ':'"
  | _ => .ok (l.setKey none)

def saveKey (l : Lexer) : Except Malformed Lexer :=
  if l.keyAllowed then do
    let required := !l.inFlow && decide (l.indent = l.column)
    let l ← l.dropKey
    .ok (l.setKey (some ⟨l.count, required, l.index, l.line, l.column⟩))
  else .ok l

-- A candidate, if it lies on the same line and not too far back.
def validKey (l : Lexer) : Option KeyCandidate → Except Malformed (Option KeyCandidate)
  | none => .ok none
  | some key =>
    if key.line < l.line || key.index + 1024 < l.index then
      if key.required then l.fail "could not find expected ':'" else .ok none
    else .ok (some key)

def skipLine (l : Lexer) : Lexer :=
  l.skip (l.rest.takeWhile (!isBreak ·)).length

def skipTo (index : Nat) : Nat → Lexer → Lexer
  | 0, l => l
  | fuel + 1, l =>
    match l.rest with
    | c :: _ =>
      if index ≤ l.index then l
      else skipTo index fuel (if isBreak c then l.skipBreak else l.skip 1)
    | [] => l

-- How far the sign of a comment is away, if nothing else stands before it.
def commentAhead (isGap : Char → Bool) (l : Lexer) : Option Nat :=
  let gap := ((l.rest.take 512).takeWhile isGap).length
  if gap < 512 && (l.rest.drop gap).head? == some '#' then some gap else none

-- Moves over a comment and over the comments on the lines after it, however they are indented.
def skipComments : Nat → Lexer → Lexer
  | 0, l => l
  | fuel + 1, l =>
    let l := l.skipLine
    match l.commentAhead fun c => isBlank c || c == '\n' || c == '\r' with
    | some gap => skipComments fuel (skipTo (l.index + gap) gap l)
    | none => l

def skipLineComment (l : Lexer) : Lexer :=
  if !l.afterBreak && (l.commentAhead isBlank).isSome then l.skipLine else l

-- Moves over what is taken for a byte order mark at the start of a line. Too near to the end of
-- the marked characters there is none, except at the very front.
def skipMark (l : Lexer) : Lexer :=
  let isMarked := l.marked != 0 && (l.index == 0 || decide (l.index + 3 ≤ l.marked))
  if l.column == 0 && isMarked then l.skip 1 else l

-- Moves over blanks, comments and up to `fuel` line breaks. Where a key may start, a tab is no
-- blank.
def skipGap : Nat → Lexer → Lexer
  | 0, l => l
  | fuel + 1, l =>
    let blank c := c == ' ' || (c == '\t' && (l.inFlow || !l.keyAllowed))
    let l := l.skipMark
    let l := l.skip (l.rest.takeWhile blank).length
    let l := if l.rest.head? == some '#' then skipComments (l.rest.length + 1) l else l
    match l.rest with
    | c :: _ =>
      if isBreak c then skipGap fuel { l.skipBreak with keyAllowed := l.keyAllowed || !l.inFlow }
      else l
    | [] => l

-- The blanks and line breaks read since the last character of a scalar. Line breaks fold.
structure Fold where
  blanks : List Char
  broken : Bool
  first : Option Char
  others : List Char

namespace Fold

def none : Fold :=
  ⟨[], false, .none, []⟩

def isNone (f : Fold) : Bool :=
  f.blanks.isEmpty && !f.broken

def blank (f : Fold) (c : Char) : Fold :=
  if f.broken then f else { f with blanks := f.blanks ++ [c] }

def newline (f : Fold) (c : Char) : Fold :=
  if f.broken then { f with others := f.others ++ [breakChar c] }
  else ⟨[], true, some (breakChar c), []⟩

-- One line break is a space, more of them are one less.
def text (f : Fold) : List Char :=
  if !f.broken then f.blanks
  else if f.first == some '\n' then if f.others.isEmpty then [' '] else f.others
  else f.first.toList ++ f.others

end Fold

def isFlowEnd (c : Char) : Bool :=
  [',', '?', '[', ']', '\x7b', '\x7d'].contains c

-- The rest of a plain scalar, its characters in reverse, and whether a line break came last.
def plain : Nat → Lexer → List Char → Fold → Except Malformed (Lexer × List Char × Bool)
  | 0, l, out, fold => .ok (l, out, fold.broken)
  | fuel + 1, l, out, fold =>
    match l.rest with
    | [] => .ok (l, out, fold.broken)
    | c :: after =>
      if isBlank c then
        if fold.broken && c == '\t' && decide (l.column < l.indent + 1) then
          l.fail "found a tab character that violates indentation"
        else plain fuel (l.skip 1) out (fold.blank c)
      else if isBreak c then plain fuel l.skipBreak out (fold.newline c)
      else
        let outdented := !l.inFlow && decide (l.column < l.indent + 1)
        let divider := l.column == 0 && dividerAhead l.rest
        let atWord := !fold.isNone && (outdented || divider || c == '#')
        let ends := (c == ':' && gapAhead after) || (l.inFlow && isFlowEnd c)
        if atWord || ends then .ok (l, out, fold.broken)
        else plain fuel (l.skip 1) (c :: fold.text.reverse ++ out) .none

def hexValue? (c : Char) : Option Nat :=
  if c.isDigit then some (c.toNat - 48)
  else if 'a' ≤ c ∧ c ≤ 'f' then some (c.toNat - 87)
  else if 'A' ≤ c ∧ c ≤ 'F' then some (c.toNat - 55)
  else none

def hexNumber? (digits : List Char) : Option Nat :=
  digits.foldlM (fun n c => (hexValue? c).map (n * 16 + ·)) 0

def escaped? : Char → Option Char
  | '0' => some '\x00'
  | 'a' => some '\x07'
  | 'b' => some '\x08'
  | 't' => some '\t'
  | '\t' => some '\t'
  | 'n' => some '\n'
  | 'v' => some '\x0b'
  | 'f' => some '\x0c'
  | 'r' => some '\r'
  | 'e' => some '\x1b'
  | ' ' => some ' '
  | '"' => some '"'
  | '\'' => some '\''
  | '\\' => some '\\'
  | 'N' => some '\u0085'
  | '_' => some '\u00a0'
  | 'L' => some '\u2028'
  | 'P' => some '\u2029'
  | _ => none

def codeLength : Char → Nat
  | 'x' => 2
  | 'u' => 4
  | 'U' => 8
  | _ => 0

-- The character of an escape and how many characters the escape has after the backslash.
def escape (l : Lexer) : List Char → Except Malformed (Char × Nat)
  | [] => l.fail "found unknown escape character"
  | c :: after =>
    match escaped? c with
    | some e => .ok (e, 1)
    | none =>
      let length := codeLength c
      if length = 0 then l.fail "found unknown escape character"
      else match hexNumber? (after.take length) with
        | none => l.fail "did not find expected hexdecimal number"
        | some code =>
          if (after.take length).length < length then
            l.fail "did not find expected hexdecimal number"
          else if code.isValidChar then .ok (Char.ofNat code, length + 1)
          else l.fail "found invalid Unicode character escape code"

-- The rest of a quoted scalar, its characters in reverse.
def quoted (single : Bool) : Nat → Lexer → List Char → Fold → Except Malformed (Lexer × List Char)
  | 0, l, _, _ => l.fail "found unexpected end of stream"
  | fuel + 1, l, out, fold =>
    match l.rest with
    | [] => l.fail "found unexpected end of stream"
    | c :: after =>
      if isBlank c then quoted single fuel (l.skip 1) out (fold.blank c)
      else if isBreak c then quoted single fuel l.skipBreak out (fold.newline c)
      else if l.column == 0 && dividerAhead l.rest then l.fail "found unexpected document indicator"
      else
        let out := fold.text.reverse ++ out
        if single then
          if c == '\'' then
            if after.head? == some '\'' then quoted single fuel (l.skip 2) ('\'' :: out) .none
            else .ok (l.skip 1, out)
          else quoted single fuel (l.skip 1) (c :: out) .none
        else if c == '"' then .ok (l.skip 1, out)
        else if c == '\\' then
          if (after.head?.map isBreak).getD false then
            quoted single fuel (l.skip 1).skipBreak out ⟨[], true, none, []⟩
          else do
            let (e, length) ← escape l after
            quoted single fuel (l.skip (length + 1)) (e :: out) .none
        else quoted single fuel (l.skip 1) (c :: out) .none

-- Empty lines of a block scalar, the line breaks among them in reverse, and how deep its deepest
-- space was. An indentation of zero is still to be found.
def emptyLines (indent : Nat) :
    Nat → Lexer → List Char → Nat → Except Malformed (Lexer × List Char × Nat)
  | 0, l, breaks, deepest => .ok (l, breaks, deepest)
  | fuel + 1, l, breaks, deepest =>
    let spaces := (l.rest.takeWhile (· == ' ')).length
    let l := l.skip (if indent = 0 then spaces else min spaces (indent - l.column))
    let deepest := max deepest l.column
    match l.rest with
    | c :: _ =>
      if c == '\t' && (indent == 0 || decide (l.column < indent)) then
        l.fail "found a tab character where an indentation space is expected"
      else if isBreak c then emptyLines indent fuel l.skipBreak (breakChar c :: breaks) deepest
      else .ok (l, breaks, deepest)
    | [] => .ok (l, breaks, deepest)

-- The lines of a block scalar: its characters in reverse, the last line break, and the empty
-- lines after it in reverse.
def blockLines (literal : Bool) (indent : Nat) :
    Nat → Lexer → List Char → List Char → List Char → Bool →
      Except Malformed (Lexer × List Char × List Char × List Char)
  | 0, l, out, last, breaks, _ => .ok (l, out, last, breaks)
  | fuel + 1, l, out, last, breaks, afterBlank =>
    match l.rest with
    | [] => .ok (l, out, last, breaks)
    | c :: _ =>
      if l.column ≠ indent then .ok (l, out, last, breaks)
      else do
        let folds := !literal && !afterBlank && !isBlank c && last == ['\n']
        let joint := if folds then (if breaks.isEmpty then [' '] else []) else last
        let line := l.rest.takeWhile (!isBreak ·)
        let out := line.reverse ++ (breaks ++ (joint ++ out))
        let l := l.skip line.length
        let last := (l.rest.head?.map breakChar).toList
        let l := if l.rest.isEmpty then l else l.skipBreak
        let (l, breaks, _) ← emptyLines indent (l.rest.length + 1) l [] 0
        blockLines literal indent fuel l out last breaks (isBlank c)

def skipBlanks (l : Lexer) : Lexer :=
  l.skip (l.rest.takeWhile isBlank).length

-- Moves over a comment and a line break, before which nothing else may stand.
def lineEnd (l : Lexer) : Except Malformed Lexer :=
  let l := l.skipBlanks
  let l := if l.rest.head? == some '#' then l.skipLine else l
  match l.rest with
  | [] => .ok l
  | c :: _ =>
    if isBreak c then .ok l.skipBreak else l.fail "did not find expected comment or line break"

-- How a block scalar ends: without line breaks, with one, or with all of them.
inductive Chomp where
  | strip
  | clip
  | keep

def chomp? : Char → Option Chomp
  | '+' => some .keep
  | '-' => some .strip
  | _ => none

-- The marks after the sign of a block scalar, in either order: its end and its indentation.
def blockHeader (l : Lexer) : Except Malformed (Lexer × Chomp × Nat) :=
  let digit? (c : Char) := if c.isDigit then some (c.toNat - 48) else none
  let front? {α : Type} (f : Char → Option α) (l : Lexer) := l.rest.head?.bind f
  let (l, chomp, indent) : Lexer × Option Chomp × Option Nat :=
    match front? chomp? l with
    | some chomp =>
      match front? digit? (l.skip 1) with
      | some n => (l.skip 2, some chomp, some n)
      | none => (l.skip 1, some chomp, none)
    | none =>
      match front? digit? l with
      | some n =>
        match front? chomp? (l.skip 1) with
        | some chomp => (l.skip 2, some chomp, some n)
        | none => (l.skip 1, none, some n)
      | none => (l, none, none)
  if indent == some 0 then l.fail "found an indentation indicator equal to 0"
  else do
    let l ← l.lineEnd
    .ok (l, chomp.getD .clip, indent.getD 0)

def blockScalar (literal : Bool) (l : Lexer) : Except Malformed (Lexer × List Char) := do
  let fuel := l.rest.length + 1
  let (l, chomp, increment) ← blockHeader (l.skip 1)
  let given := if increment = 0 then 0 else ((max l.indent 0) + increment).toNat
  let (l, breaks, deepest) ← emptyLines given fuel l [] 0
  let indent := if given = 0 then max 1 (max deepest (l.indent + 1).toNat) else given
  let (l, out, last, breaks) ← blockLines literal indent fuel l [] [] breaks false
  match chomp with
  | .strip => .ok (l, out)
  | .clip => .ok (l, last ++ out)
  | .keep => .ok (l, breaks ++ (last ++ out))

def isNameChar (c : Char) : Bool :=
  c.isAlphanum || c == '_' || c == '-'

def endsAnchor (c : Char) : Bool :=
  ['?', ':', ',', ']', '\x7d', '%', '@', '\x60'].contains c

def anchorName (l : Lexer) : Except Malformed (Lexer × List Char) :=
  let l := l.skip 1
  let name := l.rest.takeWhile isNameChar
  let l := l.skip name.length
  let ends := gapAhead l.rest || (l.rest.head?.map endsAnchor).getD false
  if name.isEmpty || !ends then
    l.fail "did not find expected alphabetic or numeric character"
  else .ok (l, name)

def isUriChar (c : Char) : Bool :=
  isNameChar c || ";/?:@&=+$,.!~*'()[]".toList.contains c

-- The bytes of one character, each written as a percent sign and two digits.
def uriEscape : Nat → Nat → Lexer → Bytes → Except Malformed (Lexer × Bytes)
  | 0, _, l, out => .ok (l, out)
  | _ + 1, 0, l, out => .ok (l, out)
  | fuel + 1, more, l, out =>
    match l.rest, hexNumber? ((l.rest.drop 1).take 2) with
    | '%' :: _ :: _ :: _, some code =>
      let octet := code.toUInt8
      if out.isEmpty then
        match Encoding.announced? octet with
        | some (width, _) => uriEscape fuel (width - 1) (l.skip 3) [octet]
        | none => l.fail "found an incorrect leading UTF-8 octet"
      else if octet &&& 0xC0 != 0x80 then l.fail "found an incorrect trailing UTF-8 octet"
      else uriEscape fuel (more - 1) (l.skip 3) (out ++ [octet])
    | _, _ => l.fail "did not find URI escaped octet"

def uri : Nat → Lexer → Bytes → Except Malformed (Lexer × Bytes)
  | 0, l, out => .ok (l, out)
  | fuel + 1, l, out =>
    match l.rest with
    | '%' :: _ => do
      let (l, octets) ← uriEscape 5 1 l []
      uri fuel l (out ++ octets)
    | c :: _ => if isUriChar c then uri fuel (l.skip 1) (out ++ [c.toNat.toUInt8]) else .ok (l, out)
    | [] => .ok (l, out)

def fullUri (l : Lexer) : Except Malformed (Lexer × Bytes) := do
  let (l, out) ← uri (l.rest.length + 1) l []
  if out.isEmpty then l.fail "did not find expected tag URI" else .ok (l, out)

-- An exclamation mark and a word, with a second mark if it is a handle.
def tagHandle (l : Lexer) : Lexer × Bytes × Bool :=
  let word := (l.rest.drop 1).takeWhile isNameChar
  let closed := (l.rest.drop (word.length + 1)).head? == some '!'
  let length := word.length + (if closed then 2 else 1)
  (l.skip length, (l.rest.take length).map fun c => c.toNat.toUInt8, closed)

-- A tag in full between angles, with a handle of its own, or with the shortest handle. The
-- shortest handle alone is the tag of nothing special.
def tagSign (l : Lexer) : Except Malformed (Lexer × Sign) := do
  let (l, sign) ←
    if (l.rest.drop 1).head? == some '<' then
      let (l, name) ← (l.skip 2).fullUri
      if l.rest.head? == some '>' then pure (l.skip 1, Sign.tag [] name)
      else l.fail "did not find the expected '>'"
    else
      let (l, handle, closed) := l.tagHandle
      if closed then
        let (l, name) ← l.fullUri
        pure (l, .tag handle name)
      else
        let (l, name) ← uri (l.rest.length + 1) l (handle.drop 1)
        pure (l, if name.isEmpty then .tag [] [33] else .tag [33] name)
  if gapAhead l.rest then .ok (l, sign)
  else l.fail "did not find expected whitespace or line break"

def versionNumber (l : Lexer) : Except Malformed (Lexer × Nat) :=
  let digits := l.rest.takeWhile Char.isDigit
  if digits.isEmpty then l.fail "did not find expected version number"
  else if 2 < digits.length then l.fail "found extremely long version number"
  else .ok (l.skip digits.length, digits.foldl (fun n c => n * 10 + (c.toNat - 48)) 0)

def versionSign (l : Lexer) : Except Malformed (Lexer × Sign) := do
  let (l, major) ← l.versionNumber
  if l.rest.head? != some '.' then l.fail "did not find expected digit or '.' character"
  else
    let (l, minor) ← (l.skip 1).versionNumber
    .ok (l, .version major minor)

def tagHandleSign (l : Lexer) : Except Malformed (Lexer × Sign) := do
  if l.rest.head? != some '!' then l.fail "did not find expected '!'"
  else
    let (l, handle, closed) := l.tagHandle
    if !closed && handle != [33] then l.fail "did not find expected '!'"
    else if !(l.rest.head?.map isBlank).getD false then l.fail "did not find expected whitespace"
    else
      let (l, front) ← l.skipBlanks.fullUri
      if gapAhead l.rest then .ok (l, .tagHandle handle front)
      else l.fail "did not find expected whitespace or line break"

-- A line that starts with a percent sign: the version of the format, or a handle for tags.
def directive (l : Lexer) : Except Malformed Lexer := do
  let l ← (l.unroll (-1)).dropKey
  let after := { l with keyAllowed := false }.skip 1
  let name := after.rest.takeWhile isNameChar
  let after := after.skip name.length
  if name.isEmpty then after.fail "could not find expected directive name"
  else if !gapAhead after.rest then after.fail "found unexpected non-alphabetical character"
  else
    let (after, sign) ←
      if name = "YAML".toList then after.skipBlanks.versionSign
      else if name = "TAG".toList then after.skipBlanks.tagHandleSign
      else after.fail "found unknown directive name"
    let after ← after.lineEnd
    .ok { after with waiting := after.waiting.push ⟨sign, l.line⟩ }

def divider (l : Lexer) (sign : Sign) : Except Malformed Lexer := do
  let l ← (l.unroll (-1)).dropKey
  .ok ({ l.emit sign with keyAllowed := false }.skip 3)

def openFlow (l : Lexer) (sign : Sign) : Except Malformed Lexer := do
  let l ← l.saveKey
  .ok ({ l.emit sign with keys := none :: l.keys, keyAllowed := true }.skip 1)

def closeFlow (l : Lexer) (sign : Sign) : Except Malformed Lexer := do
  let l ← l.dropKey
  let keys := if l.inFlow then l.keys.drop 1 else l.keys
  .ok ({ l.emit sign with keys := keys, keyAllowed := false }.skip 1)

def flowSeparator (l : Lexer) : Except Malformed Lexer := do
  let l ← l.dropKey
  .ok ({ l.emit .separator with keyAllowed := true }.skip 1)

def blockMark (l : Lexer) (block sign : Sign) (allowed : Bool) : Except Malformed Lexer := do
  if !l.inFlow && !l.keyAllowed then
    l.fail "block sequence entries are not allowed in this context"
  else
    let l ← (l.roll l.column l.count block l.line).dropKey
    .ok ({ l.emit sign with keyAllowed := allowed }.skip 1)

-- A colon after a key. The key gets its mark now, and its mapping if it is the first one.
def valueMark (l : Lexer) : Except Malformed Lexer := do
  match ← l.validKey l.currentKey with
  | some key =>
    let l := l.insert key.token ⟨.key, key.line⟩
    let l := l.roll key.column key.token .blockMapping key.line
    .ok ({ (l.setKey none).emit .value with keyAllowed := false }.skip 1)
  | none =>
    if !l.inFlow && !l.keyAllowed then
      l.fail "mapping values are not allowed in this context"
    else
      let l := l.roll l.column l.count .blockMapping l.line
      .ok ({ (l.setKey none).emit .value with keyAllowed := !l.inFlow }.skip 1)

def part (l : Lexer) (scan : Lexer → Except Malformed (Lexer × Sign)) : Except Malformed Lexer := do
  let l ← l.saveKey
  let (after, sign) ← scan { l with keyAllowed := false }
  .ok { after with waiting := after.waiting.push ⟨sign, l.line⟩ }

def plainScalar (l : Lexer) : Except Malformed (Lexer × Sign) := do
  let (l, out, broken) ← plain (l.rest.length + 1) l [] .none
  .ok ({ l with keyAllowed := broken || l.keyAllowed }, .scalar true out.reverse)

def quotedScalar (single : Bool) (l : Lexer) : Except Malformed (Lexer × Sign) := do
  let (l, out) ← quoted single (l.rest.length + 1) (l.skip 1) [] .none
  .ok (l, .scalar false out.reverse)

def blockText (l : Lexer) (literal : Bool) : Except Malformed Lexer := do
  let l ← l.dropKey
  let (after, out) ← blockScalar literal { l with keyAllowed := true }
  .ok { after with waiting := after.waiting.push ⟨.scalar false out.reverse, l.line⟩ }

def named (scan : Lexer → Except Malformed (Lexer × List Char)) (sign : List Char → Sign)
    (l : Lexer) : Except Malformed (Lexer × Sign) := do
  let (l, name) ← scan l
  .ok (l, sign name)

def mark (l : Lexer) (c : Char) (after : List Char) : Except Malformed Lexer :=
  let gap := gapAhead after
  match c with
  | '[' => l.openFlow .flowSequence
  | '\x7b' => l.openFlow .flowMapping
  | ']' => l.closeFlow .flowSequenceEnd
  | '\x7d' => l.closeFlow .flowMappingEnd
  | ',' => l.flowSeparator
  | '*' => l.part (named anchorName .reference)
  | '&' => l.part (named anchorName .anchor)
  | '!' => l.part tagSign
  | '\'' => l.part (quotedScalar true)
  | '"' => l.part (quotedScalar false)
  | _ =>
    if c == '-' && gap then l.blockMark .blockSequence .item true
    else if c == '?' && (l.inFlow || gap) then l.blockMark .blockMapping .key (!l.inFlow)
    else if c == ':' && (l.inFlow || gap) then l.valueMark
    else if c == '|' && !l.inFlow then l.blockText true
    else if c == '>' && !l.inFlow then l.blockText false
    else if isBlank c || ['|', '>', '#', '%', '@', '\x60'].contains c then
      l.fail "found character that cannot start any token"
    else l.part plainScalar

-- The next token, at a place where no gap is, with the comment after it. What follows the sign of
-- an item belongs to the item.
def next (l : Lexer) (c : Char) (after : List Char) : Except Malformed Lexer :=
  if l.column == 0 && c == '%' then l.directive
  else if l.column == 0 && dividerAhead l.rest then
    l.divider (if c == '-' then .documentStart else .documentEnd)
  else do
    let l ← l.mark c after
    .ok (if l.waiting.back?.map Token.sign == some .item then l else l.skipLineComment)

def finish (l : Lexer) : Except Malformed Lexer := do
  let l ← (l.unroll (-1)).dropKey
  .ok (l.emit .streamEnd)

-- Stops at the fault of the text if fewer than `needed` characters come before it.
def checkFault (l : Lexer) (needed : Nat) : Except Malformed Unit :=
  match l.fault with
  | some malformed => if (l.rest.drop (needed - 1)).isEmpty then .error malformed else .ok ()
  | none => .ok ()

def fetch (l : Lexer) : Except Malformed Lexer := do
  let l := skipGap (l.rest.length + 1) l
  let l := l.unroll l.column
  l.checkFault 4
  match l.rest with
  | [] => l.finish
  | c :: after =>
    let l ← l.next c after
    l.checkFault 1
    .ok l

-- The first waiting token may still turn out to start a key.
def awaitsKey (l : Lexer) : Except Malformed Bool := do
  let first := l.keys.find? fun key => key.map KeyCandidate.token == some l.taken
  .ok (← l.validKey first.join).isSome

-- Reads until three tokens are waiting and the first of them stays the first.
def prepare : Nat → Lexer → Except Malformed Lexer
  | 0, l => .ok l
  | fuel + 1, l => do
    if 3 ≤ l.waiting.size && !(← l.awaitsKey) then .ok l else prepare fuel (← l.fetch)

def take (l : Lexer) : Lexer :=
  { l with taken := l.taken + 1, waiting := l.waiting.drop 1 }

end Lexer

end LineBasic.Document
