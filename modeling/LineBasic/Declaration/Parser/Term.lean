import LineBasic.Declaration.Parser.Type

namespace LineBasic.Declaration.Parser

def block (g : Grammar) : Parser Block := do
  let opening ← expect "\x7b"
  let more : Parser Bool := do
    return !((← isAtAny ["case", "default", "\x7d"]) || (← isAtEnd))
  let (statements, weight) ← weighed do many more g.statement (← count)
  return .mk opening statements (← expect "\x7d") weight

def functionTerm (g : Grammar) (place : Place) : Parser Term := do
  let signature ← signature g
  if ← isAt "\x7b" then return .closure place signature (← nested (block g))
  else return .function place signature

def operand (g : Grammar) : Parser Term := do
  let mark ← peek
  match mark.lexeme with
  | .name _ => return .name (← label)
  | .literal kind text =>
    advance
    return .literal mark.place kind text
  | .mark "(" =>
    advance
    let inner ← nested g.term
    return .paren mark.place inner (← expect ")")
  | .mark "func" =>
    advance
    functionTerm g mark.place
  | _ =>
    let type ← type? g
    if type.isAbsent then failure else return type

-- A member of something, or its value as one of another type. A type switch asks for no type.
def selected (g : Grammar) (target : Term) : Parser Term := do
  let mark ← peek
  if ← skip? "(" then
    let type ← if ← skip? "type" then pure .absent else g.type
    return .assertion target mark.place type (← expect ")")
  else return .select target (← label)

def bound (g : Grammar) : Parser Term := do
  if ← isAtAny [":", "]"] then return .absent else g.term

-- What stands in brackets after a term: an index, the bounds of a slice, or types. A third bound
-- needs the second one.
def indexed (g : Grammar) (target : Term) : Parser Term := do
  let opening ← expect "["
  if ← isAt "]" then failure
  modify fun feed => { feed with level := feed.level + 1 }
  let low ← bound g
  let build : Place → Term ←
    if ← skip? ":" then
      let high ← bound g
      if ← skip? ":" then
        let max ← bound g
        if high.isAbsent || max.isAbsent then failure
        else pure fun closing => .slice target opening low high max closing
      else pure fun closing => .slice target opening low high .absent closing
    else if ← skip? "," then
      let more ← commaList "]" g.type (← count)
      pure fun closing => .index target opening (low :: more) closing
    else pure fun closing => .index target opening [low] closing
  modify fun feed => { feed with level := feed.level - 1 }
  return build (← expect "]")

-- The arguments of a call. Dots may stand after the last one.
def arguments (g : Grammar) : Nat → Parser (List Term × Place)
  | 0 => failure
  | fuel + 1 => do
    if ← isAt ")" then return ([], .unknown)
    let argument ← g.term
    let mark ← peek
    if ← skip? "..." then
      let _ ← skip? ","
      return ([argument], mark.place)
    else if ← skip? "," then
      let (more, dots) ← arguments g fuel
      return (argument :: more, dots)
    else if ← isAt ")" then return ([argument], .unknown)
    else failure

def called (g : Grammar) (callee : Term) : Parser Term := do
  let opening ← expect "("
  let (list, dots) ← nested do arguments g (← count)
  return .call callee opening list dots (← expect ")")

-- Values in braces. One of them may have braces of its own and no type, so the nesting of such
-- values is limited by `fuel`.
def composite (g : Grammar) : Nat → Term → Parser Term
  | 0, _ => failure
  | fuel + 1, type => do
    let opening ← expect "\x7b"
    let value : Parser Term := do
      if ← isAt "\x7b" then composite g fuel .absent else g.term
    let element : Parser Term := do
      let key ← value
      let mark ← peek
      if ← skip? ":" then return .pair key mark.place (← value) else return key
    let elements ← nested do commaList "\x7d" element (← count)
    return .composite type opening elements (← expect "\x7d")

-- Whether a brace after a term starts the values of a composite. After a name it does not where a
-- block may start.
def takesValues (level : Int) : Term → Bool
  | .name _ | .select _ _ | .index _ _ _ _ => decide (0 ≤ level)
  | .array _ _ _ | .record _ _ | .table _ _ _ => true
  | _ => false

def primary (g : Grammar) : Nat → Term → Parser Term
  | 0, term => return term
  | fuel + 1, term => do
    if ← skip? "." then primary g fuel (← selected g term)
    else if ← isAt "[" then primary g fuel (← indexed g term)
    else if ← isAt "(" then primary g fuel (← called g term)
    else if (← isAt "\x7b") && takesValues (← get).level term.unwrapped then
      match term with
      | .paren _ _ _ => failure
      | _ => primary g fuel (← composite g (← count) term)
    else return term

-- An arrow before a channel type belongs to the type, and so does each arrow in it to the next
-- type in it.
def receiving (arrow : Place) : Term → Option Term
  | .channel _ .both _ element => some (.channel arrow .receive arrow element)
  | .channel _ .send inner element => do
    let element ← receiving inner element
    some (.channel arrow .receive arrow element)
  | _ => none

def isChannel : Term → Bool
  | .channel _ _ _ _ => true
  | _ => false

def unary (g : Grammar) : Parser Term := do
  let mark ← peek
  if ← isAtAny ["+", "-", "!", "^", "&", "~"] then
    advance
    match mark.lexeme with
    | .mark operator => return .unary mark.place operator (← g.unary)
    | _ => failure
  else if ← skip? "<-" then
    let inner ← g.unary
    if isChannel inner then liftM (receiving mark.place inner)
    else return .unary mark.place "<-" inner
  else if ← skip? "*" then return .star mark.place (← g.unary)
  else
    let term ← operand g
    primary g (← count) term

-- The operators after a term that bind at least as strongly as `least`.
def operations (g : Grammar) (least : Nat) : Nat → Term → Parser Term
  | 0, term => return term
  | fuel + 1, left => do
    let mark ← peek
    match mark.lexeme with
    | .mark operator =>
      if 0 < strength operator ∧ least ≤ strength operator then
        advance
        let right ← g.binary (strength operator + 1)
        operations g least fuel (.binary left mark.place operator right)
      else return left
    | _ => return left

def binary (g : Grammar) (least : Nat) : Parser Term := do
  let first ← unary g
  operations g least (← count) first

end LineBasic.Declaration.Parser
