import LineBasic.Block
import LineBasic.Expr.Parser

namespace LineBasic.Block

-- Reads the statements of a body. The names are those of the labels declared before it.
abbrev BodyParser := List Bytes → List Token → Except Failure (Parsed Block)

def expectVariable (s : Scan) : List Token → Except Failure (Parsed Word)
  | ⟨name, .variable⟩ :: rest => .ok (name, rest)
  | tokens => .error (s.refuse .expectedVariable tokens)

def expectEqual (s : Scan) : List Token → Except Failure (Parsed Unit)
  | ⟨_, .operator .eq⟩ :: rest => .ok ((), rest)
  | tokens => .error (s.refuse .expectedEqual tokens)

def expectCommand (s : Scan) (command : Command) (problem : Problem) :
    List Token → Except Failure (Parsed Word)
  | ⟨word, .command found⟩ :: rest =>
    if found = command then .ok (word, rest)
    else .error (s.refuse problem (⟨word, .command found⟩ :: rest))
  | tokens => .error (s.refuse problem tokens)

-- The name of a label where it is used. It may be spelt like a reserved word.
def expectLabel (s : Scan) : List Token → Except Failure (Parsed Word)
  | ⟨name, .variable⟩ :: rest => .ok (name, rest)
  | ⟨name, .command _⟩ :: rest => .ok (name, rest)
  | tokens => .error (s.refuse .expectedLabel tokens)

def skipListSeparator : List Token → List Token
  | ⟨_, .comma⟩ :: rest => rest
  | ⟨_, .semicolon⟩ :: rest => rest
  | tokens => tokens

-- Up to `fuel` expressions with separators between them. A separator before anything that cannot
-- start an expression ends the list.
def printList (s : Scan) : Nat → List Token → Except Failure (Parsed (List Expr))
  | 0, tokens => .ok ([], tokens)
  | fuel + 1, tokens =>
    if Expr.starts tokens then do
      let (element, rest) ← Expr.parse s tokens
      match rest with
      | ⟨_, .comma⟩ :: after | ⟨_, .semicolon⟩ :: after =>
        let (elements, rest) ← printList s fuel after
        .ok (element :: elements, rest)
      | _ => .ok ([element], rest)
    else .ok ([], tokens)

def single (stmt : Stmt) : Block :=
  .simple stmt .done

def assignment (s : Scan) (name : Word) (tokens : List Token) : Except Failure (Parsed Block) := do
  let ((), rest) ← expectEqual s tokens
  let (value, rest) ← Expr.parse s rest
  .ok (single (.assign name value), rest)

def printing (s : Scan) (keyword : Word) (tokens : List Token) : Except Failure (Parsed Block) := do
  let (elements, rest) ← printList s (tokens.length + 1) tokens
  .ok (single (.print keyword elements), rest)

def inputting (s : Scan) (keyword : Word) (tokens : List Token) : Except Failure (Parsed Block) :=
  match tokens with
  | ⟨_, .string prompt⟩ :: rest => do
    let (name, rest) ← expectVariable s (skipListSeparator rest)
    .ok (single (.input keyword (some prompt) name), rest)
  | _ => do
    let (name, rest) ← expectVariable s tokens
    .ok (single (.input keyword none name), rest)

def conditional (s : Scan) (body : BodyParser) (names : List Bytes) (keyword : Word)
    (tokens : List Token) : Except Failure (Parsed Block) := do
  let (condition, rest) ← Expr.parse s tokens
  let (_, rest) ← expectCommand s .Then .expectedThen rest
  let (yes, rest) ← body names rest
  match rest with
  | ⟨otherwise, .command .Else⟩ :: rest =>
    let (no, rest) ← body (names ++ yes.labelNames) rest
    match rest with
    | ⟨_, .command .Endif⟩ :: rest =>
      .ok (.choice keyword condition yes otherwise no .done, rest)
    | _ => .error (s.blame rest ⟨.missingEndif, keyword.line, []⟩)
  | ⟨_, .command .Endif⟩ :: rest => .ok (.branch keyword condition yes .done, rest)
  | _ => .error (s.blame rest ⟨.missingEndif, keyword.line, []⟩)

-- A FOR from its variable to its NEXT. A variable right after NEXT must be the same.
def counting (s : Scan) (body : BodyParser) (names : List Bytes) (keyword : Word)
    (tokens : List Token) : Except Failure (Parsed Block) := do
  let (name, rest) ← expectVariable s tokens
  let ((), rest) ← expectEqual s rest
  let (first, rest) ← Expr.parse s rest
  let (_, rest) ← expectCommand s .To .expectedTo rest
  let (last, rest) ← Expr.parse s rest
  let (inner, rest) ← body names rest
  match rest with
  | ⟨next, .command .Next⟩ :: rest =>
    match rest with
    | ⟨repeated, .variable⟩ :: after =>
      if repeated.text = name.text then .ok (.loop keyword name first last inner next .done, after)
      else .error ⟨.nextMismatch, repeated.line, repeated.text⟩
    | _ => .ok (.loop keyword name first last inner next .done, rest)
  | _ => .error (s.blame rest ⟨.missingNext, keyword.line, name.text⟩)

def statement (s : Scan) (body : BodyParser) (names : List Bytes) :
    List Token → Except Failure (Parsed Block)
  | [] => .error (s.refuse .unexpectedToken [])
  | ⟨word, kind⟩ :: rest =>
    match kind with
    | .label =>
      if word.text ∈ names then .error ⟨.duplicateLabel, word.line, word.text⟩
      else .ok (single (.label word), rest)
    | .variable => assignment s word rest
    | .command .Print => printing s word rest
    | .command .Input => inputting s word rest
    | .command .If => conditional s body names word rest
    | .command .For => counting s body names word rest
    | .command .Goto => do
      let (label, rest) ← expectLabel s rest
      .ok (single (.goto word label), rest)
    | .command .Gosub => do
      let (label, rest) ← expectLabel s rest
      .ok (single (.gosub word label), rest)
    | .command .Return => .ok (single (.ret word), rest)
    | .command .End => .ok (single (.stop word), rest)
    | _ => .error ⟨.unexpectedToken, word.line, word.text⟩

def isSeparator (token : Token) : Bool :=
  token.kind = .endOfLine || token.kind = .semicolon

-- The words that end a body and are left for the statement that opened it.
def closes (token : Token) : Bool :=
  token.kind = .command .Else || token.kind = .command .Endif || token.kind = .command .Next

-- Up to `fuel` statements, until a closing word or the end of input.
def sequence (s : Scan) (body : BodyParser) : Nat → BodyParser
  | 0, _, tokens => .ok (.done, tokens)
  | fuel + 1, names, tokens =>
    match tokens.dropWhile isSeparator with
    | [] => .ok (.done, [])
    | token :: rest =>
      if closes token then .ok (.done, token :: rest)
      else do
        let (first, rest) ← statement s body names (token :: rest)
        let (others, rest) ← sequence s body fuel (names ++ first.labelNames) rest
        .ok (first.append others, rest)

-- A body with statements nested less than `depth` deep.
def nested (s : Scan) : Nat → BodyParser
  | 0, _, tokens => .ok (.done, tokens)
  | depth + 1, names, tokens => sequence s (nested s depth) (tokens.length + 1) names tokens

-- The whole source as one block. A source that breaks off has none.
def parse (s : Scan) : Except Failure Block :=
  match nested s (s.tokens.length + 1) [] s.tokens with
  | .error failure => .error failure
  | .ok (_, token :: _) => .error ⟨.unopenedBlock, token.line, token.text⟩
  | .ok (block, []) =>
    match s.failure with
    | some failure => .error failure
    | none => .ok block

end LineBasic.Block
