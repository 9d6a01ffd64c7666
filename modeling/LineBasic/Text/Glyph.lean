import LineBasic.Text

namespace LineBasic

-- What a byte string shows at one place: a character, or a byte that starts no valid encoding.
inductive Glyph where
  | char (c : Char)
  | stray (b : UInt8)
  deriving DecidableEq, Repr

namespace Glyph

def bytes : Glyph → Bytes
  | .char c => String.utf8EncodeChar c
  | .stray b => [b]

-- The bytes of a glyph where only characters may be written: a stray byte becomes U+FFFD.
def repaired : Glyph → Bytes
  | .char c => String.utf8EncodeChar c
  | .stray _ => [0xEF, 0xBF, 0xBD]

-- A stray byte is in no class of characters.
def test (p : Char → Bool) : Glyph → Bool
  | .char c => p c
  | .stray _ => false

-- The only code point that could be encoded at the front of a byte string, by its lead byte.
def candidate (text : Bytes) : Nat :=
  let byte := fun i => (text.getD i 0).toNat
  if byte 0 < 0x80 then byte 0
  else if byte 0 < 0xE0 then byte 0 % 32 * 64 + byte 1 % 64
  else if byte 0 < 0xF0 then byte 0 % 16 * 4096 + byte 1 % 64 * 64 + byte 2 % 64
  else byte 0 % 8 * 262144 + byte 1 % 64 * 4096 + byte 2 % 64 * 64 + byte 3 % 64

-- The character that a byte string starts with, if it starts with the encoding of one.
-- An overlong form, a surrogate or a cut encoding is none.
def front? (text : Bytes) : Option Char :=
  let c := Char.ofNat (candidate text)
  if (String.utf8EncodeChar c).isPrefixOf text then some c else none

-- Reads a text whose first `skip` bytes belong to a character already read.
def readFrom : Nat → Bytes → List Glyph
  | _, [] => []
  | 0, b :: rest =>
    match front? (b :: rest) with
    | some c => .char c :: readFrom ((String.utf8EncodeChar c).length - 1) rest
    | none => .stray b :: readFrom 0 rest
  | skip + 1, _ :: rest => readFrom skip rest

-- The glyphs of a text. Together their bytes are the text again.
def read (text : Bytes) : List Glyph :=
  readFrom 0 text

def write (glyphs : List Glyph) : Bytes :=
  glyphs.flatMap bytes

end Glyph

end LineBasic
