import LineBasic.Declaration.Parser.Term

namespace LineBasic.Declaration.Parser

def assignments : List String :=
  [":=", "=", "+=", "-=", "*=", "/=", "%=", "&=", "|=", "^=", "<<=", ">>=", "&^="]

-- A statement that can stand before a block. A range is one only where it may be, and then it is
-- marked by the result.
def simple (g : Grammar) (ranges : Bool) : Parser (Statement × Bool) := do
  let targets ← g.terms
  let mark ← peek
  match mark.lexeme, targets with
  | .mark operator, first :: more =>
    if assignments.contains operator then
      advance
      if ranges && (operator == ":=" || operator == "=") && (← skip? "range") then
        return (.assign targets mark.place operator [← g.term], true)
      else return (.assign targets mark.place operator (← g.terms), false)
    else if !more.isEmpty then failure
    else if ← skip? "<-" then return (.send first mark.place (← g.term), false)
    else if operator == "++" || operator == "--" then
      advance
      return (.step first mark.place operator, false)
    else return (.expression first, false)
  | _, [first] => return (.expression first, false)
  | _, _ => failure

def simpleOnly (g : Grammar) : Parser Statement := do
  return (← simple g false).1

-- A condition must be a term.
def asTerm : Statement → Option Term
  | .absent => some .absent
  | .expression term => some term
  | _ => none

-- A term with a colon after it is a label if it is a name.
def simpleOrLabel (g : Grammar) : Parser Statement := do
  let statement ← simpleOnly g
  let mark ← peek
  match statement with
  | .expression (.name label) =>
    if ← skip? ":" then return .labeled label mark.place (← g.statement)
    else
      let _ ← semicolon
      return statement
  | _ =>
    let _ ← semicolon
    return statement

def isCall : Term → Bool
  | .call _ _ _ _ _ => true
  | _ => false

def spawned (g : Grammar) (place : Place) (keyword : String) : Parser Statement := do
  let call ← g.term
  let _ ← semicolon
  if isCall call then return .spawn place keyword call else failure

def returned (g : Grammar) (place : Place) : Parser Statement := do
  let results ← if (← isAtSemicolon) || (← isAt "\x7d") then pure [] else g.terms
  let _ ← semicolon
  return .giveBack place results

def jumped (place : Place) (keyword : String) : Parser Statement := do
  let named := keyword == "goto" || ((keyword == "continue" || keyword == "break") && (← isAtName))
  let label ← if named then pure (.name (← label)) else pure Term.absent
  let _ ← semicolon
  return .jump place keyword label

def choiceHeader (g : Grammar) : Parser (Statement × Term) := do
  if ← isAt "\x7b" then failure
  let (init, condition) ← beforeBlock do
    let first ← if ← isAtSemicolon then pure .absent else simpleOnly g
    if ← isAt "\x7b" then pure (Statement.absent, first)
    else
      let explicit ← isAt ";"
      if !(← isAtSemicolon) then failure
      advance
      if !explicit && (← isAt "\x7b") then failure
      pure (first, ← simpleOnly g)
  return (init, ← liftM (asTerm condition))

def choice (g : Grammar) : Nat → Place → Parser Statement
  | 0, _ => failure
  | fuel + 1, place => do
    let (init, condition) ← choiceHeader g
    let body ← block g
    if ← skip? "else" then
      let mark ← peek
      if ← skip? "if" then return .choice place init condition body (← choice g fuel mark.place)
      else
        let otherwise ← block g
        let _ ← semicolon
        return .choice place init condition body (.block otherwise)
    else
      let _ ← semicolon
      return .choice place init condition body .absent

def clauseBody (g : Grammar) : Parser (List Statement) := do
  let more : Parser Bool := do
    return !((← isAtAny ["case", "default", "\x7d"]) || (← isAtEnd))
  many more g.statement (← count)

def clauses (clause : Parser Statement) : Parser Block := do
  let opening ← expect "\x7b"
  let list ← many (isAtAny ["case", "default"]) clause (← count)
  let closing ← expect "\x7d"
  let _ ← semicolon
  return .mk opening list closing 0

def switchClause (g : Grammar) : Parser Statement := do
  let mark ← peek
  let items ← if ← skip? "case" then g.terms else do
    let _ ← expect "default"
    pure []
  let colon ← expect ":"
  return .clause mark.place items colon (← clauseBody g)

def selectClause (g : Grammar) : Parser Statement := do
  let mark ← peek
  let transfer ← if ← skip? "case" then simpleOnly g else do
    let _ ← expect "default"
    pure .absent
  let colon ← expect ":"
  match transfer with
  | .absent | .expression _ | .send _ _ _ | .assign _ _ _ [_] =>
    return .transfer mark.place transfer colon (← clauseBody g)
  | _ => failure

def asksType : Term → Bool
  | .assertion _ _ .absent _ => true
  | _ => false

def isTypeSwitch : Statement → Bool
  | .expression term => asksType term
  | .assign [_] _ ":=" [term] => asksType term
  | _ => false

def switched (g : Grammar) (place : Place) : Parser Statement := do
  let (init, subject) ← beforeBlock do
    let first ← if (← isAt "\x7b") || (← isAtSemicolon) then pure .absent else simpleOnly g
    if ← isAtSemicolon then
      advance
      let second ← if ← isAt "\x7b" then pure .absent else simpleOnly g
      pure (first, second)
    else pure (Statement.absent, first)
  let body ← clauses (switchClause g)
  if isTypeSwitch subject then return .typeSwitch place init subject body
  else return .switch place init (← liftM (asTerm subject)) body

def looped (g : Grammar) (place : Place) : Parser Statement := do
  let header : Parser (Statement × Statement × Statement × Bool) := beforeBlock do
    if ← isAt "\x7b" then return (.absent, .absent, .absent, false)
    else if ← skip? "range" then
      return (.absent, .assign [] .unknown "" [← g.term], .absent, true)
    else
      let (first, isRange) ← if ← isAtSemicolon then pure (.absent, false) else simple g true
      if !isRange && (← isAtSemicolon) then
        advance
        if ← isAt "\x7b" then failure
        let condition ← if ← isAtSemicolon then pure .absent else simpleOnly g
        let _ ← semicolon
        let post ← if ← isAt "\x7b" then pure .absent else simpleOnly g
        return (first, condition, post, false)
      else return (.absent, first, .absent, isRange)
  let (init, condition, post, isRange) ← header
  let body ← block g
  let _ ← semicolon
  if isRange then
    match condition with
    | .assign [] _ _ [subject] => return .range place .absent .absent .unknown "" subject body
    | .assign [key] at_ operator [subject] =>
      return .range place key .absent at_ operator subject body
    | .assign [key, value] at_ operator [subject] =>
      return .range place key value at_ operator subject body
    | _ => failure
  else return .loop place init (← liftM (asTerm condition)) post body

def typeSpec (g : Grammar) : Parser Spec := do
  let name ← label
  let mark ← peek
  if ← skip? "=" then
    let type ← g.type
    return .type name .none mark.place type (← semicolon)
  else if ← isAt "[" then
    let feed ← get
    let generic := do
      let parameters ← nested (parameters g "[" "]" false true)
      let equals ← peek
      let isOther ← skip? "="
      let type ← g.type
      return Spec.type name parameters (if isOther then equals.place else .unknown) type
        (← semicolon)
    match generic.run feed with
    | some (spec, rest) =>
      set rest
      return spec
    | none =>
      let type ← g.type
      return .type name .none .unknown type (← semicolon)
  else
    let type ← g.type
    return .type name .none .unknown type (← semicolon)

def valueSpec (g : Grammar) (isVariable : Bool) : Parser Spec := do
  let names ← commaItems label (← count)
  let bare := (← isAt "=") || (← isAtSemicolon) || (← isAt ")")
  let type ← if bare && (!isVariable || (← isAt "=")) then pure .absent else g.type
  let values ← if ← skip? "=" then g.terms else pure []
  return .value names type values (← semicolon)

def spec (g : Grammar) (keyword : String) : Parser Spec :=
  if keyword == "type" then typeSpec g else valueSpec g (keyword == "var")

def declarationGroup (g : Grammar) (keyword : String) : Parser Item := do
  let mark ← peek
  let place ← expect keyword
  let opening ← peek
  if ← skip? "(" then
    let more : Parser Bool := do return !((← isAt ")") || (← isAtEnd))
    let specs ← many more (spec g keyword) (← count)
    let closing ← expect ")"
    let _ ← semicolon
    return .group place keyword opening.place specs closing mark.hasLead
  else return .group place keyword .unknown [← spec g keyword] .unknown mark.hasLead

def statement (g : Grammar) : Parser Statement := do
  let mark ← peek
  match mark.lexeme with
  | .lineEnd | .mark ";" =>
    advance
    return .empty mark.place
  | .mark "\x7b" =>
    let inner ← block g
    let _ ← semicolon
    return .block inner
  | .mark "\x7d" => return .empty mark.place
  | .mark "if" =>
    advance
    choice g (← count) mark.place
  | .mark "switch" =>
    advance
    switched g mark.place
  | .mark "select" =>
    advance
    return .select mark.place (← clauses (selectClause g))
  | .mark "for" =>
    advance
    looped g mark.place
  | .mark "return" =>
    advance
    returned g mark.place
  | .mark keyword =>
    if keyword == "go" || keyword == "defer" then
      advance
      spawned g mark.place keyword
    else if ["break", "continue", "goto", "fallthrough"].contains keyword then
      advance
      jumped mark.place keyword
    else if ["const", "type", "var"].contains keyword then
      return .declare (← declarationGroup g keyword)
    else simpleOrLabel g
  | _ => simpleOrLabel g

def grammar : Nat → Grammar
  | 0 => .empty
  | depth + 1 =>
    let g := grammar depth
    ⟨type? g, unary g, binary g, statement g⟩

def function (g : Grammar) : Parser Item := do
  let mark ← peek
  let place ← expect "func"
  let receiver ← if ← isAt "(" then parameters g "(" ")" true false else pure .none
  let name ← label
  let generic := (← isAt "[") && !receiver.opening.isKnown
  let typeParameters ← if generic then nested (parameters g "[" "]" false true) else pure .none
  let signature ← signature g
  let body ←
    if ← isAt "\x7b" then
      let body ← block g
      let _ ← semicolon
      pure (Statement.block body)
    else
      let _ ← semicolon
      if ← isAt "\x7b" then failure
      pure .absent
  return .function place receiver name typeParameters signature body mark.hasLead

def item (g : Grammar) : Parser Item := do
  if ← isAt "func" then function g
  else if ← isAt "type" then declarationGroup g "type"
  else if ← isAt "var" then declarationGroup g "var"
  else declarationGroup g "const"

def file (notes : List (List Note)) : Parser File := do
  let weight ← count
  let g := grammar (weight + 2)
  let place ← expect "package"
  let package ← label
  let _ ← semicolon
  let more : Parser Bool := do return !(← isAtEnd)
  let items ← many more (item g) weight
  return ⟨place, package, items, notes, weight⟩

end LineBasic.Declaration.Parser
