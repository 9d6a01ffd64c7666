import LineBasic.Command
import LineBasic.Double
import LineBasic.Operator
import LineBasic.Text.Quoted

namespace LineBasic

-- A piece of the source with the line on which it starts.
structure Word where
  text : Bytes
  line : Nat
  deriving DecidableEq, Repr

namespace Token

inductive Kind where
  | endOfInput
  | endOfLine
  | semicolon
  | comma
  | leftParen
  | rightParen
  | operator (op : Operator)
  | variable
  | label
  | string (value : Bytes)
  | number (value : Double)
  | command (word : Command)
  | unknown
  deriving DecidableEq, Repr

namespace Kind

def name : Kind → String
  | .endOfInput => "end of input"
  | .endOfLine => "end of line"
  | .semicolon => ";"
  | .comma => ","
  | .leftParen => "("
  | .rightParen => ")"
  | .operator op => op.symbol
  | .variable => "variable"
  | .label => "label"
  | .string _ => "string"
  | .number _ => "number"
  | .command _ => "command"
  | .unknown => "unknown"

end Kind

end Token

-- A word with its kind. The text of a label is its name, without the colon.
structure Token extends Word where
  kind : Token.Kind
  deriving DecidableEq, Repr

namespace Token

-- One line of a token list. The ends of lines and of the input show no text.
def describe (t : Token) : Bytes :=
  let place := Bytes.ofNat t.line ++ Bytes.ofString ": " ++ Bytes.ofString t.kind.name
  match t.kind with
  | .endOfInput | .endOfLine => place
  | _ => place ++ [32] ++ Text.quoted t.text

end Token

end LineBasic
