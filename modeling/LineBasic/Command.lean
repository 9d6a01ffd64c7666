import LineBasic.Text.Glyph

namespace LineBasic

inductive Command where
  | Print
  | If
  | Else
  | For
  | Goto
  | Gosub
  | Then
  | Endif
  | To
  | Next
  | Return
  | End
  | Input
  deriving DecidableEq, Repr

namespace Command

def all : List Command :=
  [.Print, .If, .Else, .For, .Goto, .Gosub, .Then, .Endif, .To, .Next, .Return, .End, .Input]

def spelling : Command → String
  | .Print => "PRINT"
  | .If => "IF"
  | .Else => "ELSE"
  | .For => "FOR"
  | .Goto => "GOTO"
  | .Gosub => "GOSUB"
  | .Then => "THEN"
  | .Endif => "ENDIF"
  | .To => "TO"
  | .Next => "NEXT"
  | .Return => "RETURN"
  | .End => "END"
  | .Input => "INPUT"

-- The capital of a letter, as far as it is one of A to Z. The dotless i and the long s have such
-- capitals as well.
def capital (c : Char) : Char :=
  if 'a' ≤ c ∧ c ≤ 'z' then Char.ofNat (c.toNat - 32)
  else if c.toNat = 0x131 then 'I'
  else if c.toNat = 0x17F then 'S'
  else c

def capitalized : Glyph → Glyph
  | .char c => .char (capital c)
  | .stray b => .stray b

-- The reserved word that a word is when its letters are made capitals.
def ofWord? (word : List Glyph) : Option Command :=
  all.find? fun command => command.spelling.toList.map Glyph.char == word.map capitalized

end Command

end LineBasic
