namespace LineBasic

-- A double-precision number by its sixty-four bits: sign, eleven bits of exponent, fifty-two of
-- fraction. A finite one is a whole number of units of 2^-1074, so its arithmetic is exact
-- arithmetic on naturals followed by one rounding.
structure Double where
  bits : UInt64
  deriving DecidableEq, Repr

namespace Double

-- The place of the sign, 2^63.
def signPlace : Nat := 0x8000000000000000

-- The number of fractions that go with each exponent, 2^52.
def fractions : Nat := 0x10000000000000

-- The bits of a positive infinity. Finite magnitudes lie below it, those that are no number above.
def infinityBits : Nat := 2047 * fractions

def one : Nat := Nat.pow 2 1074

def negative (x : Double) : Bool :=
  decide (signPlace ≤ x.bits.toNat)

-- The bits without the sign. They are ordered as the magnitudes are.
def magnitude (x : Double) : Nat :=
  x.bits.toNat % signPlace

def isNaN (x : Double) : Bool :=
  decide (infinityBits < x.magnitude)

def isInfinite (x : Double) : Bool :=
  decide (x.magnitude = infinityBits)

def isFinite (x : Double) : Bool :=
  decide (x.magnitude < infinityBits)

def isZero (x : Double) : Bool :=
  decide (x.magnitude = 0)

def ofMagnitude (negative : Bool) (magnitude : Nat) : Double :=
  ⟨UInt64.ofNat (if negative then magnitude + signPlace else magnitude)⟩

def nan : Double :=
  ⟨0x7FF8000000000000⟩

def infinity (negative : Bool) : Double :=
  ofMagnitude negative infinityBits

def zero (negative : Bool) : Double :=
  ofMagnitude negative 0

def units (x : Double) : Nat :=
  let exponent := x.magnitude / fractions
  let fraction := x.magnitude % fractions
  if exponent = 0 then fraction else (fractions + fraction) * Nat.pow 2 (exponent - 1)

def signedUnits (x : Double) : Int :=
  if x.negative then -x.units else x.units

-- The whole number nearest to a quotient, the even one of two that are equally near.
def roundDiv (numerator denominator : Nat) : Nat :=
  let quotient := numerator / denominator
  let rest := numerator % denominator
  if 2 * rest < denominator then quotient
  else if denominator < 2 * rest then quotient + 1
  else quotient + quotient % 2

-- The number nearest to a quotient of units, the one with an even fraction of two that are equally
-- near, an infinity past the greatest finite number.
def nearest (negative : Bool) (numerator denominator : Nat) : Double :=
  let shift := (numerator / denominator).log2 - 52
  let magnitude := shift * fractions + roundDiv numerator (denominator * Nat.pow 2 shift)
  ofMagnitude negative (min magnitude infinityBits)

def ofInt (n : Int) : Double :=
  nearest (decide (n < 0)) (n.natAbs * one) 1

-- The whole part, without the fraction. What is not finite has none.
def truncate? (x : Double) : Option Int :=
  if x.isFinite then
    let whole : Int := (x.units / one : Nat)
    some (if x.negative then -whole else whole)
  else none

def neg (x : Double) : Double :=
  ofMagnitude (!x.negative) x.magnitude

-- A sum of opposite numbers is the positive zero, and so is a sum of unlike zeros.
def add (x y : Double) : Double :=
  if x.isNaN || y.isNaN then nan
  else if x.isInfinite then
    if y.isInfinite && x.negative != y.negative then nan else x
  else if y.isInfinite then y
  else
    let sum := x.signedUnits + y.signedUnits
    if sum = 0 then zero (x.negative && y.negative)
    else nearest (decide (sum < 0)) sum.natAbs 1

def sub (x y : Double) : Double :=
  if y.isNaN then nan else x.add y.neg

def mul (x y : Double) : Double :=
  let sign := x.negative != y.negative
  if x.isNaN || y.isNaN then nan
  else if x.isInfinite || y.isInfinite then
    if x.isZero || y.isZero then nan else infinity sign
  else nearest sign (x.units * y.units) one

def div (x y : Double) : Double :=
  let sign := x.negative != y.negative
  if x.isNaN || y.isNaN then nan
  else if x.isInfinite then
    if y.isInfinite then nan else infinity sign
  else if y.isInfinite then zero sign
  else if y.isZero then
    if x.isZero then nan else infinity sign
  else nearest sign (x.units * one) y.units

-- The exact remainder of a division toward zero. It has the sign of the first number.
def mod (x y : Double) : Double :=
  if x.isNaN || y.isNaN || x.isInfinite || y.isZero then nan
  else if y.isInfinite then x
  else nearest x.negative (x.units % y.units) 1

-- A whole number that is ordered as the numbers are. Both zeros have the same.
def rank (x : Double) : Int :=
  if x.negative then -x.magnitude else x.magnitude

-- What is no number compares with nothing, not even with itself.
def comparable (x y : Double) : Bool :=
  !x.isNaN && !y.isNaN

def eq (x y : Double) : Bool :=
  comparable x y && decide (x.rank = y.rank)

def lt (x y : Double) : Bool :=
  comparable x y && decide (x.rank < y.rank)

def le (x y : Double) : Bool :=
  comparable x y && decide (x.rank ≤ y.rank)

end Double

end LineBasic
