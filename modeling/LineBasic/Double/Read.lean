import LineBasic.Digits
import LineBasic.Double.Decimal
import LineBasic.Text.CodeRange

namespace LineBasic.Double

open Digits

def ofDigits (negative : Bool) (whole fraction : Bytes) (exponent : Int) : Double :=
  Decimal.toDouble ⟨Digits.value (whole ++ fraction), exponent - fraction.length⟩ negative

def readLiteral (text : Bytes) : Double :=
  ofDigits false (text.takeWhile isDigit) ((text.dropWhile isDigit).drop 1) 0

-- Exponents are read up to the digit that takes them to ten thousand; later digits do not count.
def exponentValue (digits : Bytes) : Nat :=
  digits.foldl (fun n b => if n < 10000 then n * 10 + (b.toNat - 48) else n) 0

-- What follows the digits of a number: nothing, or an exponent that fills the rest of the text.
def readExponent? : Bytes → Option Int
  | [] => some 0
  | mark :: rest =>
    if mark = 101 || mark = 69 then
      let (negative, group) := splitSign rest
      if group.isEmpty || !wellGrouped group then none
      else
        let value : Int := exponentValue (ungroup group)
        some (if negative then -value else value)
    else none

-- A decimal number with an optional sign, point and exponent that fills the whole text.
def readDecimal? (text : Bytes) : Option Double :=
  let (negative, unsigned) := splitSign text
  let whole := unsigned.takeWhile isGrouped
  let afterWhole := unsigned.dropWhile isGrouped
  let pointed := afterWhole.head? == some 46
  let fraction := if pointed then (afterWhole.drop 1).takeWhile isGrouped else []
  let rest := if pointed then (afterWhole.drop 1).dropWhile isGrouped else afterWhole
  if (ungroup (whole ++ fraction)).isEmpty || !wellGrouped whole || !wellGrouped fraction then none
  else (readExponent? rest).map (ofDigits negative (ungroup whole) (ungroup fraction))

def readFinite? (text : Bytes) : Option Double :=
  (readDecimal? text).filter isFinite

def readInput? (line : Bytes) : Option Double :=
  readFinite? (Text.trim line)

end LineBasic.Double
