import LineBasic.Double.Decimal
import LineBasic.Text

namespace LineBasic.Double

-- Magnitudes from a thousandth up to ten million, the latter excluded, are written without an
-- exponent.
def isPositional (x : Double) : Bool :=
  decide ((Decimal.toDouble ⟨1, -3⟩ false).magnitude ≤ x.magnitude) &&
    decide (x.magnitude < (Decimal.toDouble ⟨1, 7⟩ false).magnitude)

-- Digits with a point and at least one digit on both sides of it.
def positional (d : Decimal) : Bytes :=
  let digits := Bytes.ofNat d.digits
  let places := (-d.exponent).toNat
  if 0 ≤ d.exponent then digits ++ List.replicate d.exponent.toNat 48 ++ [46, 48]
  else if places < digits.length then
    digits.take (digits.length - places) ++ [46] ++ digits.drop (digits.length - places)
  else [48, 46] ++ List.replicate (places - digits.length) 48 ++ digits

-- One digit, a point, the other digits or a zero, and the power of ten of the first digit.
def scientific (d : Decimal) : Bytes :=
  let digits := Bytes.ofNat d.digits
  let fraction := digits.drop 1
  digits.take 1 ++ [46] ++ (if fraction.isEmpty then [48] else fraction) ++ [69] ++
    Bytes.ofInt (d.exponent + digits.length - 1)

-- The printed form of a number, with the fewest digits that read back as the same number.
def print (x : Double) : Bytes :=
  let sign := if x.negative then [45] else []
  if x.isNaN then Bytes.ofString "NaN"
  else if x.isInfinite then sign ++ Bytes.ofString "Infinity"
  else if x.isZero then sign ++ Bytes.ofString "0.0"
  else if x.isPositional then sign ++ positional (Decimal.shortest x)
  else sign ++ scientific (Decimal.shortest x)

end LineBasic.Double
