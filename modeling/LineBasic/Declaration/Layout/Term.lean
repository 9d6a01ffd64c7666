import LineBasic.Declaration.Writer

namespace LineBasic.Declaration

-- The writers that call each other, as far as what they write is nested less than some depth. A
-- term stands beside an operator of the given strength, and within the given depth of operators.
-- A statement may be the last one before a closing brace.
structure Layout where
  term : Nat → Nat → Term → Writer Unit
  statement : Bool → Statement → Writer Unit

namespace Layout

open Writer

def empty : Layout :=
  ⟨fun _ _ _ => return, fun _ _ => return⟩

def unaryStrength : Nat :=
  6

def highestStrength : Nat :=
  7

def whole (l : Layout) (term : Term) : Writer Unit :=
  l.term 0 1 term

-- A number in its usual form: small letters, and no zeros in front of an imaginary integer.
def usualNumber (text : String) : String :=
  let lowerLast (letter : Char) (cs : List Char) : List Char :=
    let after := (cs.reverse.takeWhile (· != letter)).reverse
    if after.length < cs.length then
      cs.take (cs.length - after.length - 1) ++ letter.toLower :: after
    else cs
  String.ofList <|
    match text.toList with
    | '0' :: 'x' :: rest | '0' :: 'X' :: rest => '0' :: 'x' :: lowerLast 'P' rest
    | '0' :: 'o' :: rest | '0' :: 'O' :: rest => '0' :: 'o' :: rest
    | '0' :: 'b' :: rest | '0' :: 'B' :: rest => '0' :: 'b' :: rest
    | cs =>
      if cs.length < 2 then cs
      else if cs.contains 'E' then lowerLast 'E' cs
      else if cs.getLast? == some 'i' && !cs.any fun c => c == '.' || c == 'e' then
        let digits := cs.dropWhile fun c => c == '0' || c == '_'
        if digits == ['i'] then ['0', 'i'] else digits
      else cs

def literal (kind : LiteralKind) (text : String) : Writer Unit := do
  let isNumber := kind != .text && kind != .character
  let shown := if isNumber && !(← get).isTrial then usualNumber text else text
  put (.literal kind shown)

-- The terms of a list after the first one, which starts on the given line. The gap is still to be
-- written before the first line break. Gives the gap that is left.
def moreTerms (l : Layout) (depth : Nat) : Gap → Nat → List Term → Writer Gap
  | before, _, [] => return before
  | before, line, term :: rest => do
    let start := term.place.line
    let breaks := decide (0 < line) && decide (line < start)
    if !breaks then moveTo term.place
    mark ","
    let broken ← if breaks then breakTo start 0 before true else pure false
    if !broken then gap .blank
    l.term 0 depth term
    moreTerms l depth (if broken then .ignored else before) start rest

-- A list of terms with commas. Lines are broken as in the text, after `opening` too, and then they
-- may be indented. Where `closing` is on a line of its own, the list may end with a comma.
def terms (l : Layout) (opening : Place) (list : List Term) (depth : Nat) (indents closes : Bool)
    (closing : Place) : Writer Unit := do
  match list with
  | [] => return
  | first :: rest =>
    let line := first.place.line
    let last := ((list.getLast?).map Term.endLine).getD line
    if opening.isKnown && opening.line == line && line == last then
      l.term 0 depth first
      let _ ← moreTerms l depth .ignored 0 rest
    else
      let before : Gap := if indents then .indent else .ignored
      let below := opening.isKnown && decide (opening.line < line)
      let broken ← if below then breakTo line 0 before true else pure false
      l.term 0 depth first
      let before ← moreTerms l depth (if broken then .ignored else before) line rest
      let comma := closes && closing.isKnown && decide ((← get).source.line < closing.line)
      if comma then mark ","
      if indents && before == .ignored then gap .unindent
      if comma then gap .feed

def labels (l : Layout) (list : List Label) (indents : Bool) : Writer Unit :=
  terms l .unknown (list.map .name) 1 indents false .unknown

-- The parameters of a function or of a type after the line of what comes before. The gap is still
-- to be written before the first line break. Gives the gap that is left and the last line.
def moreParameters (l : Layout) : Bool → Gap → Nat → List Field → Writer (Gap × Nat)
  | _, before, line, [] => return (before, line)
  | isFirst, before, line, field :: rest => do
    let start := field.place.line
    let breaks := decide (0 < line) && decide (line < start)
    if !isFirst then
      if !breaks then moveTo field.place
      mark ","
    let broken ← if breaks then breakTo start 0 before true else pure false
    if !broken && !isFirst then gap .blank
    let before : Gap := if broken then .ignored else before
    if !field.labels.isEmpty then
      l.labels field.labels (before == .indent)
      gap .blank
    l.whole field.type.unwrapped
    moreParameters l false before field.type.endLine rest

-- Parameters in their brackets. A closing bracket on a line of its own stays there.
def parameters (l : Layout) (opening closing : String) (fields : Fields) : Writer Unit := do
  markAt fields.opening opening
  if !fields.list.isEmpty then
    let (before, line) ← moreParameters l true .indent fields.opening.line fields.list
    if 0 < line && line < fields.closing.line then
      mark ","
      let _ ← breakTo fields.closing.line 0 .ignored true
    if before == .ignored then gap .unindent
  markAt fields.closing closing

-- Parameters and results. One result without a name needs no parentheses.
def signature (l : Layout) (s : Signature) : Writer Unit := do
  l.parameters "(" ")" s.parameters
  match s.results.list with
  | [] => return
  | [.mk [] type _ _] =>
    gap .blank
    l.whole type.unwrapped
  | _ =>
    gap .blank
    l.parameters "(" ")" s.results

-- One field without a tag and a remark may stay on one line if its type is short.
def staysShort (l : Layout) (fields : Fields) : Bool :=
  match fields.list with
  | [.mk labels type .absent false] =>
    let names := labels.foldl (fun size label => size + label.text.utf8ByteSize) 0
    let limit := if labels.isEmpty then 30 else 29
    decide (fields.weight ≤ limit + names) && (size? limit (l.whole type)).isSome
  | _ => false

def method (l : Layout) : Field → Writer Unit
  | .mk (label :: _) (.function _ s) _ _ => do
    name label
    l.signature s
  | .mk _ type _ _ => l.whole type

def field (l : Layout) (tab : Gap) : Field → Writer Unit
  | .mk labels type tag hasRemark => do
    if !labels.isEmpty then
      l.labels labels false
      gap tab
    l.whole type
    let columns := if labels.isEmpty then 2 else 1
    let columns ← if tag.isAbsent then pure columns else do
      if !labels.isEmpty && tab == .softTab then gap tab
      gap tab
      l.whole tag
      pure 0
    if hasRemark then
      for _ in List.range columns do
        gap tab

def fields (l : Layout) (isRecord : Bool) (fs : Fields) : Writer Unit := do
  let hasNotes := (← get).hasNoteBefore fs.closing
  let onOne := !hasNotes && fs.opening.line == fs.closing.line
  match fs.list with
  | [] =>
    if !onOne then gap .blank
    markAt fs.opening "\x7b"
    if !onOne then gap .indent
    if hasNotes then gap .feed
    if !onOne then
      gap .unindent
      gap .feed
    markAt fs.closing "\x7d"
  | first :: _ =>
    if onOne && l.staysShort fs then
      markAt fs.opening "\x7b"
      gap .blank
      if isRecord then l.field .blank first else l.method first
      gap .blank
      markAt fs.closing "\x7d"
    else
      gap .blank
      markAt fs.opening "\x7b"
      gap .indent
      gap .feed
      let tab : Gap := if fs.list.length = 1 then .blank else .softTab
      onLines none (fs.list.map fun f =>
        (f.place.line, if isRecord then l.field tab f else l.method f))
      gap .unindent
      gap .feed
      markAt fs.closing "\x7d"

def statementsInLine (l : Layout) : List Statement → Writer Unit
  | [] => return
  | [last] => l.statement true last
  | statement :: rest => do
    l.statement false statement
    mark ";"
    gap .blank
    statementsInLine l rest

def labelCount : Statement → Nat
  | .labeled _ _ inner => labelCount inner + 1
  | _ => 0

-- Statements on lines of their own. A statement of several lines ends the columns, and so do all
-- if `apart` holds. `left` is the number of statements that are left, the empty ones among them.
def statementsOnLines (l : Layout) (apart beforeBrace : Bool) :
    Option Nat → Nat → List Statement → Writer Unit
  | _, _, [] => return
  | before, left, statement :: rest => do
    match statement with
    | .empty _ => statementsOnLines l apart beforeBrace before left rest
    | statement =>
      let line := (← get).out.line
      let endsColumns := apart || (before.map fun start => decide (start < line)).getD true
      let _ ← breakTo statement.place.line 1 .ignored endsColumns
      let start ← startLine (l.statement (beforeBrace && left == 1) statement)
      statementsOnLines l apart beforeBrace (some (start + labelCount statement)) (left - 1) rest

def statements (l : Layout) (indents beforeBrace : Bool) (list : List Statement) :
    Writer Unit := do
  if indents then gap .indent
  statementsOnLines l (!indents) beforeBrace none list.length list
  if indents then gap .unindent

def block (l : Layout) (indents : Bool) (b : Block) : Writer Unit := do
  markAt b.opening "\x7b"
  l.statements indents true b.statements
  let _ ← breakTo b.closing.line 1 .ignored false
  markAt b.closing "\x7d"

-- The size of a block in one line with the comments in it, if it can be in one.
def blockSize? (l : Layout) (limit : Nat) (b : Block) (notes : Nat) : Option Nat :=
  if b.opening.line != b.closing.line || decide (5 < b.statements.length)
      || decide (limit < b.weight) then none
  else
    let sizes := b.statements.mapM fun statement => size? limit (l.statement false statement)
    sizes.map fun sizes => sizes.foldl (· + ·) (notes + 2 * (b.statements.length - 1))

-- The body of a function. If it is short together with what comes before, it stays on one line,
-- after the given gap. The size of what comes before is known if that is on one line.
def body (l : Layout) (header : Option Nat) (before : Gap) (b : Block) : Writer Unit := do
  let page ← get
  modify fun p => { p with level := 0 }
  let size := do
    let size ← l.blockSize? 100 b (page.noteSizeBefore b.closing)
    some ((← header) + size)
  if (size.map fun size => decide (size ≤ 100)).getD false then
    gap before
    markAt b.opening "\x7b"
    if !b.statements.isEmpty then
      gap .blank
      l.statementsInLine b.statements
      gap .blank
    closingMark b.closing false
  else
    gap .blank
    l.block true b
  modify fun p => { p with level := page.level }

-- The size on the page from a column on, if the page is still on the line of the text where that
-- column is.
def sizeFrom (place : Place) (column : Nat) : Writer (Option Nat) := do
  let p ← get
  return if place.line = p.source.line then some (p.out.column - column) else none

def strengthOf : Term → Nat
  | .binary _ _ operator _ => strength operator
  | _ => 0

-- Which of the two strengths that differ in their layout occur in a term, and the strength up to
-- which operators need blanks to be told apart.
def mixture : Term → Bool × Bool × Nat
  | .binary left _ operator right =>
    let own := strength operator
    let (left4, left5, leftProblem) :=
      if own ≤ strengthOf left then mixture left else (false, false, 0)
    let (right4, right5, rightProblem) :=
      if own < strengthOf right then mixture right else (false, false, 0)
    let problem :=
      match right with
      | .star _ _ => if operator = "/" then 5 else 0
      | .unary _ sign _ =>
        if ["&&", "&^"].contains (operator ++ sign) then 5
        else if ["++", "--"].contains (operator ++ sign) then 4
        else 0
      | _ => 0
    (own == 4 || left4 || right4, own == 5 || left5 || right5,
      max problem (max leftProblem rightProblem))
  | _ => (false, false, 0)

-- Operators weaker than this have blanks around them.
def blankLimit (depth : Nat) (term : Term) : Nat :=
  let (has4, has5, problem) := mixture term
  if 0 < problem then problem + 1
  else if depth = 1 then (if has4 && has5 then 5 else 6)
  else 4

def reduced (depth : Nat) : Nat :=
  max 1 (depth - 1)

def binary (l : Layout) (least depth : Nat) (left : Term) (place : Place) (operator : String)
    (right : Term) : Writer Unit := do
  let own := strength operator
  let term := Term.binary left place operator right
  if own < least then
    mark "("
    l.term 0 (reduced depth) term
    mark ")"
  else
    let blanks := decide (own < blankLimit depth term)
    l.term own (if strengthOf left = own then depth else depth + 1) left
    if blanks then gap .blank
    let before := (← get).source.line
    let line := right.place.line
    markAt place operator
    let breaks := before != line && decide (0 < before) && decide (0 < line)
    let broken ← if breaks then breakTo line 1 .indent true else pure false
    if blanks && !broken then gap .blank
    l.term (own + 1) (depth + 1) right
    if broken then gap .unindent

-- A member of something. Where it comes on a later line, it is indented, and the indentation is
-- left to the call of the member. Says whether there is one left.
def member (l : Layout) (depth : Nat) (target : Term) (label : Label) (isCalled : Bool) :
    Writer Bool := do
  l.term highestStrength depth target
  mark "."
  let broken := decide ((← get).source.line < label.place.line)
  if broken then
    gap .indent
    gap .newline
  name label
  if broken && !isCalled then gap .unindent
  return broken && isCalled

-- The bounds of a slice. Blanks stand around the colons if there are two bounds and one of them
-- has operators.
def bounds (l : Layout) (depth : Nat) (list : List Term) : Writer Unit := do
  let given := list.filter fun term => !term.isAbsent
  let blanks := decide (depth ≤ 1) && decide (1 < given.length)
    && given.any fun term => decide (0 < strengthOf term)
  let rec more : Term → List Term → Writer Unit
    | _, [] => return
    | before, term :: rest => do
      if blanks && !before.isAbsent then gap .blank
      mark ":"
      if blanks && !term.isAbsent then gap .blank
      if !term.isAbsent then l.term 0 (depth + 1) term
      more term rest
  match list with
  | [] => return
  | first :: rest =>
    if !first.isAbsent then l.term 0 (depth + 1) first
    more first rest

def isBareType : Term → Bool
  | .function _ _ => true
  | .channel _ .receive _ _ => true
  | _ => false

def call (l : Layout) (depth : Nat) (callee : Term) (opening : Place) (arguments : List Term)
    (dots closing : Place) : Writer Unit := do
  let depth := if 1 < arguments.length then depth + 1 else depth
  if isBareType callee then mark "("
  let indented ← match callee with
    | .select target label => do
      moveTo callee.place
      l.member depth target label true
    | callee => do
      l.term highestStrength depth callee
      pure false
  if isBareType callee then mark ")"
  markAt opening "("
  if dots.isKnown then
    l.terms opening arguments depth true false dots
    markAt dots "..."
    if dots.line < closing.line then
      mark ","
      gap .feed
  else l.terms opening arguments depth true true closing
  markAt closing ")"
  if indented then gap .unindent

def composite (l : Layout) (depth : Nat) (type : Term) (opening : Place) (elements : List Term)
    (closing : Place) : Writer Unit := do
  if !type.isAbsent then l.term highestStrength depth type
  modify fun p => { p with level := p.level + 1 }
  markAt opening "\x7b"
  l.terms opening elements 1 true true closing
  gap .indent
  gap .unindent
  closingMark closing (!elements.isEmpty)
  modify fun p => { p with level := p.level - 1 }

-- A part in parentheses if it stands beside an operator that is too strong for it.
def guarded (least : Nat) (part : Writer Unit) : Writer Unit := do
  if unaryStrength < least then
    mark "("
    part
    mark ")"
  else part

def writeTerm (l : Layout) (least depth : Nat) (term : Term) : Writer Unit := do
  moveTo term.place
  match term with
  | .absent => return
  | .name label => name label
  | .literal _ kind text => literal kind text
  | .composite type opening elements closing => l.composite depth type opening elements closing
  | .closure place s b =>
    mark "func"
    let column := (← get).out.column - 4
    l.signature s
    l.body (← sizeFrom place column) .blank b
  | .paren _ (.paren opening inner closing) _ => l.term 0 depth (.paren opening inner closing)
  | .paren _ inner closing =>
    mark "("
    l.term 0 (reduced depth) inner
    markAt closing ")"
  | .select target label =>
    let _ ← l.member depth target label false
  | .index target opening indices closing =>
    l.term highestStrength 1 target
    markAt opening "["
    match indices with
    | [only] => l.term 0 (depth + 1) only
    | indices => l.terms opening indices (depth + 1) true true closing
    markAt closing "]"
  | .slice target opening low high max closing =>
    l.term highestStrength 1 target
    markAt opening "["
    l.bounds depth (if max.isAbsent then [low, high] else [low, high, max])
    markAt closing "]"
  | .assertion target opening type closing =>
    l.term highestStrength depth target
    mark "."
    markAt opening "("
    if type.isAbsent then mark "type" else l.whole type
    markAt closing ")"
  | .call callee opening arguments dots closing =>
    l.call depth callee opening arguments dots closing
  | .star _ inner => guarded least do
    mark "*"
    l.whole inner
  | .unary _ operator inner => guarded least do
    mark operator
    l.term unaryStrength depth inner
  | .binary left place operator right => l.binary least depth left place operator right
  | .pair key colon value =>
    l.whole key
    markAt colon ":"
    gap .softTab
    l.whole value
  | .array _ length element =>
    mark "["
    l.whole length
    mark "]"
    l.whole element
  | .ellipsis _ element =>
    mark "..."
    l.whole element
  | .record _ fs =>
    mark "struct"
    l.fields true fs
  | .function _ s =>
    mark "func"
    l.signature s
  | .interface _ fs =>
    mark "interface"
    l.fields false fs
  | .table _ key value =>
    mark "map"
    mark "["
    l.whole key
    mark "]"
    l.whole value
  | .channel _ direction arrow element =>
    match direction with
    | .both => mark "chan"
    | .receive =>
      mark "<-"
      mark "chan"
    | .send =>
      mark "chan"
      markAt arrow "<-"
    gap .blank
    l.whole element

end Layout

end LineBasic.Declaration
