import LineBasic.Double.Print
import LineBasic.Failure
import LineBasic.Operator

namespace LineBasic

namespace Value

inductive Kind where
  | number
  | string
  | boolean
  deriving DecidableEq, Repr

namespace Kind

def name : Kind → String
  | .number => "number"
  | .string => "string"
  | .boolean => "boolean"

end Kind

end Value

-- What an expression stands for while a program runs. Only comparisons give booleans.
inductive Value where
  | number (x : Double)
  | string (s : Bytes)
  | boolean (b : Bool)
  deriving DecidableEq, Repr

namespace Value

def kind : Value → Kind
  | .number _ => .number
  | .string _ => .string
  | .boolean _ => .boolean

def print : Value → Bytes
  | .number x => x.print
  | .string s => s
  | .boolean true => Bytes.ofString "true"
  | .boolean false => Bytes.ofString "false"

-- Values of different kinds are never equal.
def equal : Value → Value → Bool
  | .number x, .number y => x.eq y
  | .string s, .string t => s == t
  | .boolean b, .boolean c => b == c
  | _, _ => false

def numeric (f : Double → Double → Except Problem Value) : Value → Value → Except Problem Value
  | .number x, .number y => f x y
  | _, _ => .error .operandTypes

-- The sum of two numbers, or the printed forms one after the other if either side is a string.
def add : Value → Value → Except Problem Value
  | .number x, .number y => .ok (.number (x.add y))
  | .string s, right => .ok (.string (s ++ right.print))
  | left, .string t => .ok (.string (left.print ++ t))
  | _, _ => .error .operandTypes

end Value

namespace Operator

def apply : Operator → Value → Value → Except Problem Value
  | .add, left, right => left.add right
  | .sub, left, right => Value.numeric (fun x y => .ok (.number (x.sub y))) left right
  | .mul, left, right => Value.numeric (fun x y => .ok (.number (x.mul y))) left right
  | .div, left, right =>
    Value.numeric (fun x y => if y.isZero then .error .divisionByZero else .ok (.number (x.div y)))
      left right
  | .mod, left, right =>
    Value.numeric (fun x y => if y.isZero then .error .modulusByZero else .ok (.number (x.mod y)))
      left right
  | .eq, left, right => .ok (.boolean (left.equal right))
  | .ne, left, right => .ok (.boolean (!left.equal right))
  | .lt, left, right => Value.numeric (fun x y => .ok (.boolean (x.lt y))) left right
  | .le, left, right => Value.numeric (fun x y => .ok (.boolean (x.le y))) left right
  | .gt, left, right => Value.numeric (fun x y => .ok (.boolean (y.lt x))) left right
  | .ge, left, right => Value.numeric (fun x y => .ok (.boolean (y.le x))) left right

end Operator

end LineBasic
