import LineBasic.Token

namespace LineBasic

inductive Expr where
  | number (value : Double) (word : Word)
  | string (value : Bytes) (word : Word)
  | variable (name : Word)
  | grouping (opening : Word) (inner : Expr) (closing : Word)
  | binary (left : Expr) (op : Operator) (sign : Word) (right : Expr)
  deriving DecidableEq, Repr

namespace Expr

def tokens : Expr → List Token
  | .number value word => [⟨word, .number value⟩]
  | .string value word => [⟨word, .string value⟩]
  | .variable name => [⟨name, .variable⟩]
  | .grouping opening inner closing =>
    ⟨opening, .leftParen⟩ :: inner.tokens ++ [⟨closing, .rightParen⟩]
  | .binary left op sign right => left.tokens ++ ⟨sign, .operator op⟩ :: right.tokens

end Expr

end LineBasic
