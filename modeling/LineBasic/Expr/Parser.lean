import LineBasic.Expr
import LineBasic.Token.Lexer

namespace LineBasic

-- A value read from the front of a list of tokens, and the tokens after it.
abbrev Parsed (α : Type) := α × List Token

namespace Scan

-- The token that a parser looks at. Past the last one it is the end of input.
def front (s : Scan) (tokens : List Token) : Token :=
  tokens.head?.getD s.endToken

-- A failure noticed while looking at the front of `tokens`. If that is where the source breaks
-- off, the break is the failure.
def blame (s : Scan) (tokens : List Token) (failure : Failure) : Failure :=
  match tokens, s.failure with
  | [], some broken => broken
  | _, _ => failure

def refuse (s : Scan) (problem : Problem) (tokens : List Token) : Failure :=
  s.blame tokens ⟨problem, (s.front tokens).line, (s.front tokens).text⟩

end Scan

namespace Expr

-- A literal, a variable, or an expression in parentheses, which `inner` reads.
def primary (s : Scan) (inner : List Token → Except Failure (Parsed Expr)) (tokens : List Token) :
    Except Failure (Parsed Expr) :=
  match tokens with
  | ⟨word, .number value⟩ :: rest => .ok (.number value word, rest)
  | ⟨word, .string value⟩ :: rest => .ok (.string value word, rest)
  | ⟨name, .variable⟩ :: rest => .ok (.variable name, rest)
  | ⟨opening, .leftParen⟩ :: rest =>
    match inner rest with
    | .error failure => .error failure
    | .ok (e, ⟨closing, .rightParen⟩ :: after) => .ok (.grouping opening e closing, after)
    | .ok (_, after) => .error (s.blame after ⟨.unclosedParen, opening.line, []⟩)
  | _ => .error (s.refuse .expectedExpression tokens)

-- Takes up to `fuel` operators of one level with their right operands.
def chain (operand : List Token → Except Failure (Parsed Expr)) (level : Level) :
    Nat → Expr → List Token → Except Failure (Parsed Expr)
  | fuel + 1, left, ⟨sign, .operator op⟩ :: rest =>
    if op.level = level then
      match operand rest with
      | .error failure => .error failure
      | .ok (right, after) => chain operand level fuel (.binary left op sign right) after
    else .ok (left, ⟨sign, .operator op⟩ :: rest)
  | _, left, tokens => .ok (left, tokens)

def chained (operand : List Token → Except Failure (Parsed Expr)) (level : Level)
    (tokens : List Token) : Except Failure (Parsed Expr) :=
  match operand tokens with
  | .error failure => .error failure
  | .ok (left, rest) => chain operand level rest.length left rest

-- An expression with parentheses nested less than `depth` deep.
def nested (s : Scan) : Nat → List Token → Except Failure (Parsed Expr)
  | 0, tokens => .error (s.refuse .expectedExpression tokens)
  | depth + 1, tokens =>
    let primary := primary s (nested s depth)
    let multiplication := chained primary .multiplicative
    let addition := chained multiplication .additive
    chained addition .comparison tokens

-- Every pair of parentheses takes a token, so the depth covers the whole list.
def parse (s : Scan) (tokens : List Token) : Except Failure (Parsed Expr) :=
  nested s (tokens.length + 1) tokens

def starts : List Token → Bool
  | ⟨_, .number _⟩ :: _ => true
  | ⟨_, .string _⟩ :: _ => true
  | ⟨_, .variable⟩ :: _ => true
  | ⟨_, .leftParen⟩ :: _ => true
  | _ => false

end Expr

end LineBasic
