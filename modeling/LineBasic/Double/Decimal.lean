import LineBasic.Double

namespace LineBasic

-- A decimal number `digits * 10 ^ exponent` without a sign.
structure Decimal where
  digits : Nat
  exponent : Int
  deriving DecidableEq, Repr

namespace Decimal

-- How many digits a number has in decimal. Zero has none.
def length (n : Nat) : Nat :=
  if n = 0 then 0 else (Nat.toDigits 10 n).length

def toDouble (d : Decimal) (negative : Bool) : Double :=
  if d.digits = 0 then Double.zero negative
  else if 0 ≤ d.exponent then
    Double.nearest negative (d.digits * Nat.pow 10 d.exponent.toNat * Double.one) 1
  else Double.nearest negative (d.digits * Double.one) (Nat.pow 10 (-d.exponent).toNat)

-- The same decimal without zeros at the end of its digits, if `fuel` of them can be taken away.
def strip : Nat → Decimal → Decimal
  | 0, d => d
  | fuel + 1, d =>
    if d.digits % 10 = 0 then strip fuel ⟨d.digits / 10, d.exponent + 1⟩ else d

-- The power of ten of the first digit of a number of units that is not zero.
def leading (units : Nat) : Int :=
  if Double.one ≤ units then (length (units / Double.one) : Int) - 1
  else -(length ((Double.one - 1) / units) : Int)

def below (units : Nat) (exponent : Int) : Nat :=
  if 0 ≤ exponent then units / (Double.one * Nat.pow 10 exponent.toNat)
  else units * Nat.pow 10 (-exponent).toNat / Double.one

-- Compares a number of units with the middle of the two multiples of `10 ^ exponent` around it.
def halfway (units : Nat) (exponent : Int) (lower : Nat) : Ordering :=
  if 0 ≤ exponent then
    compare (2 * units) ((2 * lower + 1) * (Double.one * Nat.pow 10 exponent.toNat))
  else compare (2 * units * Nat.pow 10 (-exponent).toNat) ((2 * lower + 1) * Double.one)

-- The multiple of `10 ^ exponent` that reads back as `x`, the nearer of two, the even of two
-- that are equally near.
def onGrid? (x : Double) (exponent : Int) : Option Decimal :=
  let lower := below x.units exponent
  let readsBack := fun n => decide ((Decimal.toDouble ⟨n, exponent⟩ x.negative) = x)
  match readsBack lower, readsBack (lower + 1) with
  | false, false => none
  | true, false => some ⟨lower, exponent⟩
  | false, true => some ⟨lower + 1, exponent⟩
  | true, true =>
    match halfway x.units exponent lower with
    | .lt => some ⟨lower, exponent⟩
    | .gt => some ⟨lower + 1, exponent⟩
    | .eq => some ⟨lower + lower % 2, exponent⟩

-- A finite number digit for digit: a unit of 2^-1074 has 1074 decimal places.
def exact (x : Double) : Decimal :=
  ⟨x.units * Nat.pow 5 1074, -1074⟩

def search (x : Double) : Nat → Int → Decimal
  | 0, _ => exact x
  | fuel + 1, exponent =>
    match onGrid? x exponent with
    | some d => d
    | none => search x fuel (exponent - 1)

-- The decimal with the fewest digits that reads back as a finite number other than zero.
def shortest (x : Double) : Decimal :=
  let d := search x 17 (leading x.units)
  strip (length d.digits) d

end Decimal

end LineBasic
