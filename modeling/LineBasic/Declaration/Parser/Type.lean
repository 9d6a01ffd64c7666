import LineBasic.Declaration.Parser

namespace LineBasic.Declaration.Parser

def typeName (first : Label) : Parser Term := do
  if ← skip? "." then return .select (.name first) (← label)
  else return .name first

def typeInstance (g : Grammar) (type : Term) : Parser Term := do
  let opening ← expect "["
  let arguments ← nested do commaList "]" g.type (← count)
  let closing ← expect "]"
  if arguments.isEmpty then failure else return .index type opening arguments closing

def qualifiedName (g : Grammar) (first : Label) : Parser Term := do
  let type ← typeName first
  if ← isAt "[" then typeInstance g type else return type

def arrayType (g : Grammar) (opening : Place) : Parser Term := do
  let length ← nested do
    let mark ← peek
    if ← skip? "..." then return .ellipsis mark.place .absent
    else if ← isAt "]" then return .absent
    else g.term
  let _ ← expect "]"
  return .array opening length (← g.type)

-- What a name and a bracket after it are: the name of something with an array type, or a type
-- with arguments.
def arrayOrInstance (g : Grammar) (first : Label) : Parser (Option Label × Term) := do
  let opening ← expect "["
  let arguments ← nested do
    if ← isAt "]" then return []
    else commaList "]" g.term (← count)
  let closing ← expect "]"
  match arguments with
  | [] => return (some first, .array opening .absent (← g.type))
  | [length] =>
    let element ← g.type?
    if element.isAbsent then return (none, .index (.name first) opening arguments closing)
    else return (some first, .array opening length element)
  | _ => return (none, .index (.name first) opening arguments closing)

def tag : Parser Term := do
  let mark ← peek
  match mark.lexeme with
  | .literal .text text =>
    advance
    return .literal mark.place .text text
  | _ => return .absent

def isAtTag : Parser Bool := do
  match (← peek).lexeme with
  | .literal .text _ => return true
  | _ => return false

def fieldType (g : Grammar) : Parser (List Label × Term) := do
  let mark ← peek
  if ← skip? "*" then return ([], .star mark.place (← qualifiedName g (← label)))
  else
    let first ← label
    if ← isAt "." then return ([], ← qualifiedName g first)
    else if (← isAtTag) || (← isAtSemicolon) || (← isAt "\x7d") then return ([], .name first)
    else if ← skip? "," then
      let more ← commaItems label (← count)
      return (first :: more, ← g.type)
    else if ← isAt "[" then
      let (name, type) ← arrayOrInstance g first
      return (name.toList, type)
    else return ([first], ← g.type)

def field (g : Grammar) : Parser Field := do
  let (labels, type) ← fieldType g
  let tag ← tag
  return .mk labels type tag (← semicolon)

def braced (fields : Parser (List Field)) : Parser Fields := do
  let opening ← expect "\x7b"
  let (list, weight) ← weighed fields
  return .mk opening list (← expect "\x7d") weight

def recordType (g : Grammar) (place : Place) : Parser Term := do
  let startsField : Parser Bool := do return (← isAtName) || (← isAt "*")
  return .record place (← braced do many startsField (field g) (← count))

def typeBound (g : Grammar) : Parser Term := do
  let mark ← peek
  if ← skip? "~" then return .unary mark.place "~" (← g.type) else g.type

def moreBounds (g : Grammar) : Nat → Term → Parser Term
  | 0, first => return first
  | fuel + 1, first => do
    let mark ← peek
    if ← skip? "|" then moreBounds g fuel (.binary first mark.place "|" (← typeBound g))
    else return first

def typeBounds (g : Grammar) (first : Term) : Parser Term := do
  moreBounds g (← count) first

-- A parameter, a name or a type or both. Only the parameters of types may have bounds.
def parameter (g : Grammar) (bounds : Bool) : Parser (Option Label × Term) := do
  let mark ← peek
  let bounded (first : Term) : Parser Term := if bounds then typeBounds g first else return first
  if bounds && (← isAt "~") then return (none, ← typeBounds g (← typeBound g))
  else if ← skip? "..." then return (none, .ellipsis mark.place (← g.type))
  else if !(← isAtName) then return (none, ← bounded (← g.type))
  else
    let first ← label
    let dots ← peek
    if ← isAt "[" then
      let (name, type) ← arrayOrInstance g first
      return (name, ← bounded type)
    else if ← isAt "." then return (none, ← bounded (← qualifiedName g first))
    else if ← skip? "..." then return (some first, .ellipsis dots.place (← g.type))
    else if bounds && (← isAt "~") then return (some first, ← typeBounds g (← typeBound g))
    else if bounds && (← isAt "|") then return (none, ← typeBounds g (.name first))
    else
      let type ← g.type?
      if type.isAbsent then return (some first, .absent) else return (some first, ← bounded type)

-- Parameters that have names take the type of the next one that has a type. The names so far come
-- in reverse.
def shareTypes : List Label → List (Option Label × Term) → Option (List Field)
  | [], [] => some []
  | _ :: _, [] => none
  | waiting, (name, type) :: rest =>
    match name, type with
    | some name, .absent => shareTypes (name :: waiting) rest
    | some name, type => do
      let fields ← shareTypes [] rest
      some (.mk (name :: waiting).reverse type .absent false :: fields)
    | none, _ => none

-- Without any name that has a type, names are types.
def unnamed (list : List (Option Label × Term)) : List Field :=
  list.map fun (name, type) =>
    match name with
    | some name => .mk [] (.name name) .absent false
    | none => .mk [] type .absent false

def isDots : Term → Bool
  | .ellipsis _ _ => true
  | _ => false

-- Dots stand only before the type of the last parameter.
def dotsFit (allowed : Bool) (list : List (Option Label × Term)) : Bool :=
  !list.dropLast.any (fun par => isDots par.2) &&
    (allowed || !((list.getLast?.map fun par => isDots par.2).getD false))

def parameters (g : Grammar) (opening closing : String) (dots bounds : Bool) : Parser Fields := do
  let start ← expect opening
  let list ← commaList closing (parameter g bounds) (← count)
  let stop ← expect closing
  let isNamed (par : Option Label × Term) := par.1.isSome && !par.2.isAbsent
  if !dotsFit dots list then failure
  else if list.any isNamed then
    return .mk start (← liftM (shareTypes [] list)) stop 0
  else if bounds then failure
  else return .mk start (unnamed list) stop 0

-- The results of a function, one of them without parentheses.
def results (g : Grammar) : Parser Fields := do
  if ← isAt "(" then parameters g "(" ")" false false
  else
    let type ← g.type?
    if type.isAbsent then return .none
    else return .mk .unknown [.mk [] type .absent false] .unknown 0

def signature (g : Grammar) : Parser Signature := do
  let parameters ← parameters g "(" ")" true false
  let results ← results g
  let line :=
    if results.closing.isKnown then results.closing.line
    else match results.list with
      | field :: _ => field.type.endLine
      | [] => parameters.closing.line
  return .mk parameters results line

def element (g : Grammar) : Parser Field := do
  let embed (type : Term) : Parser Field := do
    let type ← typeBounds g type
    return .mk [] type .absent (← semicolon)
  if !(← isAtName) then embed (← typeBound g)
  else
    let first ← label
    if ← isAt "(" then
      let signature ← signature g
      return .mk [first] (.function .unknown signature) .absent (← semicolon)
    else if ← isAt "[" then
      let opening ← expect "["
      let arguments ← nested do
        let head ← g.term
        if ← skip? "," then return head :: (← commaList "]" g.type (← count))
        else return [head]
      embed (.index (.name first) opening arguments (← expect "]"))
    else embed (← qualifiedName g first)

def interfaceType (g : Grammar) (place : Place) : Parser Term := do
  let startsElement : Parser Bool := do
    return (← isAtName) || (← isAtAny ["~", "*", "[", "(", "<-", "struct", "func", "interface",
      "map", "chan"])
  return .interface place (← braced do many startsElement (element g) (← count))

def type? (g : Grammar) : Parser Term := do
  let mark ← peek
  match mark.lexeme with
  | .name _ => qualifiedName g (← label)
  | .mark "[" =>
    advance
    arrayType g mark.place
  | .mark "struct" =>
    advance
    recordType g mark.place
  | .mark "*" =>
    advance
    return .star mark.place (← g.type)
  | .mark "func" =>
    advance
    return .function mark.place (← signature g)
  | .mark "interface" =>
    advance
    interfaceType g mark.place
  | .mark "map" =>
    advance
    let _ ← expect "["
    let key ← g.type
    let _ ← expect "]"
    return .table mark.place key (← g.type)
  | .mark "chan" =>
    advance
    let arrow ← peek
    if ← skip? "<-" then return .channel mark.place .send arrow.place (← g.type)
    else return .channel mark.place .both .unknown (← g.type)
  | .mark "<-" =>
    advance
    let _ ← expect "chan"
    return .channel mark.place .receive mark.place (← g.type)
  | .mark "(" =>
    advance
    let inner ← g.type
    return .paren mark.place inner (← expect ")")
  | _ => return .absent

end LineBasic.Declaration.Parser
