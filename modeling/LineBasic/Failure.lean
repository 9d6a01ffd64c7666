import LineBasic.Text

namespace LineBasic

inductive Phase where
  | lexing
  | parsing
  | running
  deriving DecidableEq, Repr

inductive Problem where
  | unclosedString
  | unclosedParen
  | expectedExpression
  | unexpectedToken
  | expectedVariable
  | expectedEqual
  | expectedThen
  | expectedTo
  | expectedLabel
  | missingEndif
  | missingNext
  | unopenedBlock
  | nextMismatch
  | duplicateLabel
  | undeclaredLabel
  | undefinedVariable
  | unknownLabel
  | returnWithoutGosub
  | nextWithoutFor
  | operandTypes
  | divisionByZero
  | modulusByZero
  | conditionNotBoolean
  | invalidInput
  | inputExhausted
  | stepLimit
  deriving DecidableEq, Repr

namespace Problem

def phase : Problem → Phase
  | .unclosedString => .lexing
  | .unclosedParen | .expectedExpression | .unexpectedToken | .expectedVariable | .expectedEqual
  | .expectedThen | .expectedTo | .expectedLabel | .missingEndif | .missingNext | .unopenedBlock
  | .nextMismatch | .duplicateLabel | .undeclaredLabel => .parsing
  | .undefinedVariable | .unknownLabel | .returnWithoutGosub | .nextWithoutFor | .operandTypes
  | .divisionByZero | .modulusByZero | .conditionNotBoolean | .invalidInput | .inputExhausted
  | .stepLimit => .running

def text : Problem → String
  | .unclosedString => "Missing closing quote for string"
  | .unclosedParen => "Missing closing parenthesis"
  | .expectedExpression => "Expected expression"
  | .unexpectedToken => "Unexpected token"
  | .expectedVariable => "Expected variable name"
  | .expectedEqual => "Expected '='"
  | .expectedThen => "Expected THEN after condition"
  | .expectedTo => "Expected TO in FOR"
  | .expectedLabel => "Expected label name"
  | .missingEndif => "Missing ENDIF for IF"
  | .missingNext => "Missing NEXT for FOR"
  | .unopenedBlock => "Block keyword without opening statement"
  | .nextMismatch => "NEXT does not match FOR variable"
  | .duplicateLabel => "Label already declared"
  | .undeclaredLabel => "Label not declared"
  | .undefinedVariable => "Variable not initialized"
  | .unknownLabel => "Subroutine not initialized"
  | .returnWithoutGosub => "RETURN without GOSUB"
  | .nextWithoutFor => "NEXT without active FOR"
  | .operandTypes => "Invalid operand types"
  | .divisionByZero => "Dividing by zero is not allowed"
  | .modulusByZero => "Modulus by zero is undefined"
  | .conditionNotBoolean => "Condition is not boolean"
  | .invalidInput => "Invalid input for a number"
  | .inputExhausted => "No input available"
  | .stepLimit => "Step limit exceeded"

end Problem

namespace Phase

def title : Phase → String
  | .lexing => "Lexical error"
  | .parsing => "Syntax error"
  | .running => "Runtime error"

end Phase

-- A problem at a line. The detail names what it is about and may be empty.
structure Failure where
  problem : Problem
  line : Int
  detail : Bytes
  deriving DecidableEq, Repr

namespace Failure

def message (f : Failure) : Bytes :=
  let headline := Bytes.ofString f.problem.phase.title ++ Bytes.ofString " on line " ++
    Bytes.ofInt f.line ++ Bytes.ofString ": " ++ Bytes.ofString f.problem.text
  if f.detail.isEmpty then headline else headline ++ Bytes.ofString ": " ++ f.detail

end Failure

end LineBasic
