import LineBasic.Digits

namespace LineBasic.Integer

inductive Refusal where
  | malformed
  | outOfRange
  deriving DecidableEq, Repr

-- How many numbers of sixty-four bits there are, 2^64.
def count : Nat := 0x10000000000000000

-- How many of them are not negative if they have a sign, 2^63.
def half : Nat := 0x8000000000000000

def digit? (b : UInt8) : Option Nat :=
  if Digits.isDigit b then some (b.toNat - 48)
  else if 97 ≤ b ∧ b ≤ 122 then some (b.toNat - 87)
  else if 65 ≤ b ∧ b ≤ 90 then some (b.toNat - 55)
  else none

-- The base that a text announces, and its digits. A zero in front announces eight.
def splitBase : Bytes → Nat × Bytes
  | 48 :: mark :: d :: rest =>
    if mark = 98 || mark = 66 then (2, d :: rest)
    else if mark = 111 || mark = 79 then (8, d :: rest)
    else if mark = 120 || mark = 88 then (16, d :: rest)
    else (8, mark :: d :: rest)
  | 48 :: rest => (8, rest)
  | text => (10, text)

def readDigits (base : Nat) : Nat → Bytes → Except Refusal Nat
  | n, [] => .ok n
  | n, b :: rest =>
    match digit? b with
    | none => .error .malformed
    | some d =>
      if base ≤ d then .error .malformed
      else if count ≤ n * base + d then .error .outOfRange
      else readDigits base (n * base + d) rest

-- Each underscore lies between two digits. A mark for the base counts as a digit.
def underscoresFit (text : Bytes) : Bool :=
  match text with
  | 48 :: mark :: rest =>
    if [98, 66, 111, 79, 120, 88].contains mark then Digits.separated 48 rest
    else Digits.separated 95 text
  | _ => Digits.separated 95 text

def readNat (text : Bytes) : Except Refusal Nat :=
  if text.isEmpty then .error .malformed
  else
    let (base, digits) := splitBase text
    match readDigits base 0 (digits.filter (· != 95)) with
    | .error refusal => .error refusal
    | .ok n => if text.contains 95 && !underscoresFit text then .error .malformed else .ok n

def withSign (negative : Bool) (n : Nat) : Except Refusal Int :=
  if negative then if half < n then .error .outOfRange else .ok (-n)
  else if half ≤ n then .error .outOfRange else .ok n

-- A number with an optional sign and an optional mark for its base.
def read (text : Bytes) : Except Refusal Int :=
  let (negative, unsigned) := Digits.splitSign text
  match readNat unsigned with
  | .error refusal => .error refusal
  | .ok n => withSign negative n

def readIn (base : Nat) (text : Bytes) : Except Refusal Int :=
  let (negative, unsigned) := Digits.splitSign text
  if unsigned.isEmpty then .error .malformed
  else match readDigits base 0 unsigned with
    | .error refusal => .error refusal
    | .ok n => withSign negative n

end LineBasic.Integer
