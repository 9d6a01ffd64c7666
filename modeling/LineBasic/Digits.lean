import LineBasic.Text

namespace LineBasic.Digits

def isDigit (b : UInt8) : Bool :=
  decide (48 ≤ b) && decide (b ≤ 57)

def value (digits : Bytes) : Nat :=
  digits.foldl (fun n b => n * 10 + (b.toNat - 48)) 0

-- A digit, or an underscore that may stand between two digits.
def isGrouped (b : UInt8) : Bool :=
  isDigit b || b == 95

-- Each underscore after `last` has a digit before and after it.
def separated : UInt8 → Bytes → Bool
  | last, [] => last != 95
  | last, b :: rest => (last != 95 || b != 95) && separated b rest

-- Digits in groups with single underscores between them.
def wellGrouped (group : Bytes) : Bool :=
  group.all isGrouped && (group.isEmpty || separated 95 group)

def ungroup (group : Bytes) : Bytes :=
  group.filter isDigit

def splitSign : Bytes → Bool × Bytes
  | 45 :: rest => (true, rest)
  | 43 :: rest => (false, rest)
  | text => (false, text)

end LineBasic.Digits
