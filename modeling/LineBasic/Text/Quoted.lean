import LineBasic.Text.Graphic
import LineBasic.Text.Glyph

namespace LineBasic.Text

def escapeLetter? (c : Char) : Option UInt8 :=
  match c.toNat with
  | 7 => some 97
  | 8 => some 98
  | 9 => some 116
  | 10 => some 110
  | 11 => some 118
  | 12 => some 102
  | 13 => some 114
  | 34 => some 34
  | 92 => some 92
  | _ => none

-- A glyph inside quotes: as it is if it can be seen, otherwise named by its code.
def quotedGlyph : Glyph → Bytes
  | .stray b => [92, 120] ++ Bytes.hex 2 b.toNat
  | .char c =>
    match escapeLetter? c with
    | some letter => [92, letter]
    | none =>
      if isGraphic c then String.utf8EncodeChar c
      else if c.toNat < 0x80 then [92, 120] ++ Bytes.hex 2 c.toNat
      else if c.toNat < 0x10000 then [92, 117] ++ Bytes.hex 4 c.toNat
      else [92, 85] ++ Bytes.hex 8 c.toNat

-- A text between double quotes, written so that it can be read on one line.
def quoted (text : Bytes) : Bytes :=
  34 :: (Glyph.read text).flatMap quotedGlyph ++ [34]

end LineBasic.Text
