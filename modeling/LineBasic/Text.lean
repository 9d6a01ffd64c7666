namespace LineBasic

-- All text is a byte string: sources, input lines and file contents need not be valid UTF-8,
-- and a byte that belongs to no character is still reported back unchanged.
abbrev Bytes := List UInt8

namespace Bytes

def ofString (s : String) : Bytes :=
  s.toList.flatMap String.utf8EncodeChar

def ofNat (n : Nat) : Bytes :=
  (Nat.toDigits 10 n).map fun c => c.toNat.toUInt8

def ofInt : Int → Bytes
  | .ofNat n => ofNat n
  | .negSucc n => 45 :: ofNat (n + 1)

def padded (width n : Nat) : Bytes :=
  let digits := ofNat n
  List.replicate (width - digits.length) 48 ++ digits

def hexDigit (n : Nat) : UInt8 :=
  if n < 10 then (48 + n).toUInt8 else (87 + n).toUInt8

-- The lowest `width` hexadecimal digits of a number, highest first.
def hex : Nat → Nat → Bytes
  | 0, _ => []
  | width + 1, n => hexDigit (n / Nat.pow 16 width % 16) :: hex width n

-- The pieces between the occurrences of a byte. There is always one more piece than occurrences.
def splitOn (separator : UInt8) : Bytes → List Bytes
  | [] => [[]]
  | b :: rest =>
    if b = separator then [] :: splitOn separator rest
    else match splitOn separator rest with
      | [] => [[b]]
      | piece :: pieces => (b :: piece) :: pieces

def join (separator : Bytes) : List Bytes → Bytes
  | [] => []
  | [piece] => piece
  | piece :: pieces => piece ++ separator ++ join separator pieces

end Bytes

end LineBasic
