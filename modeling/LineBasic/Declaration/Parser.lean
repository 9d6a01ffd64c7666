import LineBasic.Declaration

namespace LineBasic.Declaration

-- The pieces still to be read, and the level of nesting. Below level zero a brace after a name
-- starts a block.
structure Feed where
  marks : List Mark
  level : Int

abbrev Parser := StateT Feed Option

namespace Parser

def peek : Parser Mark := do
  return (← get).marks.headD ⟨.textEnd, .unknown, false, false⟩

def advance : Parser Unit :=
  modify fun feed => { feed with marks := feed.marks.drop 1 }

def count : Parser Nat := do
  return (← get).marks.length

def isAt (text : String) : Parser Bool := do
  return (← peek).is text

def isAtAny (texts : List String) : Parser Bool := do
  let mark ← peek
  return texts.any mark.is

def isAtName : Parser Bool := do
  match (← peek).lexeme with
  | .name _ => return true
  | _ => return false

def isAtSemicolon : Parser Bool := do
  return (← peek).isSemicolon

def isAtEnd : Parser Bool := do
  return (← peek).lexeme == .textEnd

def skip? (text : String) : Parser Bool := do
  if ← isAt text then
    advance
    return true
  else return false

def expect (text : String) : Parser Place := do
  let mark ← peek
  if mark.is text then
    advance
    return mark.place
  else failure

def label : Parser Label := do
  let mark ← peek
  match mark.lexeme with
  | .name text =>
    advance
    return ⟨mark.place, text⟩
  | _ => failure

-- The end of a declaration, a field or a statement. Before a closing bracket nothing need be
-- there. Says whether a remark follows.
def semicolon : Parser Bool := do
  let mark ← peek
  if mark.is ")" || mark.is "\x7d" then return false
  else if mark.is ";" then
    advance
    return (← peek).hasRemark
  else if mark.lexeme == .lineEnd then
    advance
    return mark.hasRemark
  else failure

-- How many bytes a piece takes in any layout. Some pieces may be left out.
def leastSize : Lexeme → Nat
  | .name text | .literal _ text => text.utf8ByteSize
  | .mark text => if ["(", ")", ",", ";"].contains text then 0 else text.utf8ByteSize
  | _ => 0

def weighed {α : Type} (parser : Parser α) : Parser (α × Nat) := do
  let before := (← get).marks
  let a ← parser
  let read := before.take (before.length - (← count))
  return (a, read.foldl (fun size mark => size + leastSize mark.lexeme) 0)

def nested {α : Type} (parser : Parser α) : Parser α := do
  modify fun feed => { feed with level := feed.level + 1 }
  let a ← parser
  modify fun feed => { feed with level := feed.level - 1 }
  return a

-- Reads where a brace starts a block.
def beforeBlock {α : Type} (parser : Parser α) : Parser α := do
  let level := (← get).level
  modify fun feed => { feed with level := -1 }
  let a ← parser
  modify fun feed => { feed with level := level }
  return a

def many {α : Type} (more : Parser Bool) (item : Parser α) : Nat → Parser (List α)
  | 0 => return []
  | fuel + 1 => do
    if ← more then
      let a ← item
      return a :: (← many more item fuel)
    else return []

-- Items with commas between them up to a closing mark, which is not passed. A comma may come after
-- the last one.
def commaList {α : Type} (closing : String) (item : Parser α) : Nat → Parser (List α)
  | 0 => return []
  | fuel + 1 => do
    if ← isAt closing then return []
    let a ← item
    if ← skip? "," then return a :: (← commaList closing item fuel)
    else if ← isAt closing then return [a]
    else failure

def commaItems {α : Type} (item : Parser α) : Nat → Parser (List α)
  | 0 => return []
  | fuel + 1 => do
    let a ← item
    if ← skip? "," then return a :: (← commaItems item fuel)
    else return [a]

end Parser

-- The parsers that call each other, as far as their results are nested less than some depth. A
-- type that is not there is absent. A binary term holds no operator that binds more loosely than
-- the given strength.
structure Grammar where
  type? : Parser Term
  unary : Parser Term
  binary : Nat → Parser Term
  statement : Parser Statement

namespace Grammar

def empty : Grammar :=
  ⟨failure, failure, fun _ => failure, failure⟩

def type (g : Grammar) : Parser Term := do
  let term ← g.type?
  if term.isAbsent then failure else return term

def term (g : Grammar) : Parser Term :=
  g.binary 1

def terms (g : Grammar) : Parser (List Term) := do
  Parser.commaItems g.term (← Parser.count)

end Grammar

end LineBasic.Declaration
