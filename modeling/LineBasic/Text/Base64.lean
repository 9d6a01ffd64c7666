import LineBasic.Text

namespace LineBasic.Text.Base64

def digit? (b : UInt8) : Option Nat :=
  if 65 ≤ b ∧ b ≤ 90 then some (b.toNat - 65)
  else if 97 ≤ b ∧ b ≤ 122 then some (b.toNat - 71)
  else if 48 ≤ b ∧ b ≤ 57 then some (b.toNat + 4)
  else if b = 43 then some 62
  else if b = 47 then some 63
  else none

-- Four digits are three bytes. The last four may end in one or two equals signs, which stand for
-- bytes that are not there.
def decodeGroups? : Bytes → Option Bytes
  | [] => some []
  | [a, b, 61, 61] => do
    let n := (← digit? a) * 4 + (← digit? b) / 16
    return [n.toUInt8]
  | [a, b, c, 61] => do
    let n := (← digit? a) * 1024 + (← digit? b) * 16 + (← digit? c) / 4
    return [(n / 256).toUInt8, n.toUInt8]
  | a :: b :: c :: d :: rest => do
    let n := (← digit? a) * 262144 + (← digit? b) * 4096 + (← digit? c) * 64 + (← digit? d)
    return (n / 65536).toUInt8 :: (n / 256).toUInt8 :: n.toUInt8 :: (← decodeGroups? rest)
  | _ => none

-- The bytes that a text in base sixty-four stands for. Line breaks in it mean nothing.
def decode? (text : Bytes) : Option Bytes :=
  decodeGroups? (text.filter fun b => b != 10 && b != 13)

end LineBasic.Text.Base64
