import LineBasic.Declaration.Layout.Term

namespace LineBasic.Declaration.Layout

open Writer

def isTypeName : Term → Bool
  | .name _ => true
  | .select target _ => isTypeName target
  | _ => false

mutual

-- Values in braces after a name are in a term, outside of parentheses.
def hasBareValues : Term → Bool
  | .composite type _ _ _ => isTypeName type
  | .select target _ => hasBareValues target
  | .index target _ indices _ => hasBareValues target || anyHasBareValues indices
  | .slice target _ low high max _ =>
    hasBareValues target || hasBareValues low || hasBareValues high || hasBareValues max
  | .assertion target _ type _ => hasBareValues target || hasBareValues type
  | .call callee _ arguments _ _ => hasBareValues callee || anyHasBareValues arguments
  | .star _ inner => hasBareValues inner
  | .unary _ _ inner => hasBareValues inner
  | .binary left _ _ right => hasBareValues left || hasBareValues right
  | .pair key _ value => hasBareValues key || hasBareValues value
  | .array _ length element => hasBareValues length || hasBareValues element
  | .table _ key value => hasBareValues key || hasBareValues value
  | .channel _ _ _ element => hasBareValues element
  | _ => false

def anyHasBareValues : List Term → Bool
  | [] => false
  | term :: rest => hasBareValues term || anyHasBareValues rest

end

-- A term before a block needs no parentheses around it, unless they keep its braces apart from
-- those of the block.
def beforeBlock : Term → Term
  | .paren opening inner closing =>
    if hasBareValues inner then .paren opening inner closing else beforeBlock inner
  | term => term

-- What stands between the first word of a statement and its block. A loop has two semicolons if
-- it has one.
def header (l : Layout) (isLoop : Bool) (init : Statement) (condition : Term)
    (post : Statement) : Writer Unit := do
  let isAbsent (statement : Statement) : Bool :=
    match statement with
    | .absent => true
    | _ => false
  gap .blank
  let plain := isAbsent init && isAbsent post
  if !plain then
    l.statement false init
    mark ";"
    gap .blank
  l.whole (beforeBlock condition)
  let blank ←
    if !plain && isLoop then do
      mark ";"
      gap .blank
      l.statement false post
      pure (!isAbsent post)
    else pure (!condition.isAbsent)
  if blank then gap .blank

-- Terms on several lines look better if all of them are indented, unless each starts where the
-- one before it ends and at most one is on several lines itself.
def wantsIndent (list : List Term) : Bool :=
  let rec scan : Nat → Nat → List Term → Bool
    | _, count, [] => decide (1 < count)
    | line, count, term :: rest =>
      if line < term.place.line then true
      else scan term.endLine (if term.place.line < term.endLine then count + 1 else count) rest
  match list with
  | first :: _ :: _ =>
    let last := ((list.getLast?).map Term.endLine).getD 0
    decide (first.place.line < last) && scan first.place.line 0 list
  | _ => false

def giveBack (l : Layout) (results : List Term) : Writer Unit := do
  mark "return"
  if !results.isEmpty then
    gap .blank
    if wantsIndent results then
      gap .indent
      l.terms .unknown results 1 false false .unknown
      gap .unindent
    else l.terms .unknown results 1 true false .unknown

-- A statement after its label. The label is less indented. An empty statement is written unless
-- a closing brace follows.
def labeled (l : Layout) (beforeBrace : Bool) (label : Label) (colon : Place)
    (statement : Statement) : Writer Unit := do
  gap .unindent
  name label
  markAt colon ":"
  gap .indent
  match statement with
  | .empty place =>
    if !beforeBrace then
      gap .newline
      markAt place ";"
    else moveTo place
  | statement =>
    let _ ← breakTo statement.place.line 1 .ignored true
    l.statement beforeBrace statement

def typeSpec (l : Layout) (isAlone : Bool) (label : Label) (parameters : Fields) (equals : Place)
    (type : Term) : Writer Unit := do
  name label
  if parameters.opening.isKnown then l.parameters "[" "]" parameters
  gap (if isAlone then .blank else .softTab)
  if equals.isKnown then
    mark "="
    gap .blank
  l.whole type

def valueSpec (l : Layout) (indents : Bool) (labels : List Label) (type : Term)
    (values : List Term) : Writer Unit := do
  l.labels labels indents
  if !type.isAbsent then
    gap .blank
    l.whole type
  if !values.isEmpty then
    gap .blank
    mark "="
    gap .blank
    l.terms .unknown values 1 true false .unknown

-- Values with their names among others. The column of the types may be kept although the type is
-- left out.
def valueRow (l : Layout) (keepsType : Bool) (labels : List Label) (type : Term)
    (values : List Term) (hasRemark : Bool) : Writer Unit := do
  l.labels labels false
  let hasType := keepsType || !type.isAbsent
  if hasType then gap .softTab
  l.whole type
  if !values.isEmpty then
    gap .softTab
    mark "="
    gap .blank
    l.terms .unknown values 1 true false .unknown
  if hasRemark then
    for _ in List.range (3 - (if hasType then 1 else 0) - (if values.isEmpty then 0 else 1)) do
      gap .softTab

def spec (l : Layout) (isAlone indents : Bool) : Spec → Writer Unit
  | .type label parameters equals type _ => l.typeSpec isAlone label parameters equals type
  | .value labels type values _ => l.valueSpec indents labels type values

def hasValues : Spec → Bool
  | .value _ _ values _ => !values.isEmpty
  | .type .. => false

def hasType : Spec → Bool
  | .value _ type _ _ => !type.isAbsent
  | .type .. => false

-- For each declaration of values, whether the column of the types is kept: where one declaration
-- with values has a type, those next to it keep the column.
def keptTypes (specs : List Spec) : List (Spec × Bool) :=
  (specs.splitBy fun a b => hasValues a && hasValues b).flatMap fun run =>
    run.map fun s => (s, hasValues s && run.any hasType)

def specPlace : Spec → Place
  | .type label _ _ _ _ => label.place
  | .value labels _ _ _ => ((labels.head?).map Label.place).getD .unknown

def specRow (l : Layout) (isAlone keepsType : Bool) : Spec → Writer Unit
  | .type label parameters equals type _ => l.typeSpec isAlone label parameters equals type
  | .value labels type values hasRemark =>
    if isAlone then l.valueSpec false labels type values
    else l.valueRow keepsType labels type values hasRemark

def group (l : Layout) (place : Place) (keyword : String) (opening : Place) (specs : List Spec)
    (closing : Place) : Writer Unit := do
  markAt place keyword
  gap .blank
  if opening.isKnown then
    markAt opening "("
    if !specs.isEmpty then
      gap .indent
      gap .feed
      onLines none ((keptTypes specs).map fun (s, keepsType) =>
        ((specPlace s).line, l.specRow (specs.length == 1) keepsType s))
      gap .unindent
      gap .feed
    markAt closing ")"
  else
    match specs with
    | s :: _ => l.spec true true s
    | [] => return

def function (l : Layout) (place : Place) (receiver : Fields) (label : Label)
    (parameters : Fields) (s : Signature) (body : Statement) : Writer Unit := do
  markAt place "func"
  gap .blank
  let column := (← get).out.column - 5
  if receiver.opening.isKnown then
    l.parameters "(" ")" receiver
    gap .blank
  name label
  if parameters.opening.isKnown then l.parameters "[" "]" parameters
  l.signature s
  match body with
  | .block b => l.body (← sizeFrom place column) .softTab b
  | _ => return

def item (l : Layout) : Item → Writer Unit
  | .group place keyword opening specs closing _ => l.group place keyword opening specs closing
  | .function place receiver label parameters s body _ =>
    l.function place receiver label parameters s body

def writeStatement (l : Layout) (beforeBrace : Bool) (statement : Statement) : Writer Unit := do
  moveTo statement.place
  match statement with
  | .absent | .empty _ => return
  | .expression term => l.term 0 1 term
  | .send channel arrow value =>
    l.term 0 1 channel
    gap .blank
    markAt arrow "<-"
    gap .blank
    l.term 0 1 value
  | .step term place operator =>
    l.term 0 2 term
    markAt place operator
  | .assign targets place operator values =>
    let depth := if 1 < targets.length && 1 < values.length then 2 else 1
    l.terms statement.place targets depth true false place
    gap .blank
    markAt place operator
    gap .blank
    l.terms place values depth true false .unknown
  | .spawn _ keyword call =>
    mark keyword
    gap .blank
    l.whole call
  | .giveBack _ results => l.giveBack results
  | .jump _ keyword label =>
    mark keyword
    if !label.isAbsent then
      gap .blank
      l.whole label
  | .block b => l.block true b
  | .labeled label colon inner => l.labeled beforeBrace label colon inner
  | .declare declared => l.item declared
  | .choice _ init condition b otherwise =>
    mark "if"
    l.header false init condition .absent
    l.block true b
    match otherwise with
    | .absent => return
    | otherwise =>
      gap .blank
      mark "else"
      gap .blank
      l.statement beforeBrace otherwise
  | .switch _ init subject b =>
    mark "switch"
    l.header false init subject .absent
    l.block false b
  | .typeSwitch _ init subject b =>
    mark "switch"
    match init with
    | .absent => pure ()
    | init =>
      gap .blank
      l.statement false init
      mark ";"
    gap .blank
    l.statement false subject
    gap .blank
    l.block false b
  | .select _ b =>
    mark "select"
    gap .blank
    if b.statements.isEmpty && !(← get).hasNoteBefore b.closing then
      markAt b.opening "\x7b"
      markAt b.closing "\x7d"
    else l.block false b
  | .clause place items colon inner =>
    if items.isEmpty then mark "default"
    else
      mark "case"
      gap .blank
      l.terms place items 1 true false colon
    markAt colon ":"
    l.statements true beforeBrace inner
  | .transfer _ transfer colon inner =>
    match transfer with
    | .absent => mark "default"
    | transfer =>
      mark "case"
      gap .blank
      l.statement false transfer
    markAt colon ":"
    l.statements true beforeBrace inner
  | .loop _ init condition post b =>
    mark "for"
    l.header true init condition post
    l.block true b
  | .range _ key value operatorPlace operator subject b =>
    mark "for"
    gap .blank
    if !key.isAbsent then
      l.whole key
      if !value.isAbsent then
        moveTo value.place
        mark ","
        gap .blank
        l.whole value
      gap .blank
      markAt operatorPlace operator
      gap .blank
    mark "range"
    gap .blank
    l.whole (beforeBlock subject)
    gap .blank
    l.block true b

def ofDepth : Nat → Layout
  | 0 => .empty
  | depth + 1 =>
    let l := ofDepth depth
    ⟨l.writeTerm, l.writeStatement⟩

def spansLines : Item → Bool
  | .function place _ _ _ _ (.block b) _ => decide (place.line < b.closing.line)
  | .function place _ _ _ s _ _ => decide (place.line < s.endLine)
  | _ => false

-- Declarations. One of another kind than the one before it, or with comments above it, comes
-- after a blank line.
def items (l : Layout) : String → List Item → Writer Unit
  | _, [] => return
  | before, first :: rest => do
    let least := if before != first.keyword || first.hasLead then 2 else 1
    let _ ← breakTo first.place.line least .ignored (spansLines first)
    l.item first
    items l first.keyword rest

end LineBasic.Declaration.Layout
