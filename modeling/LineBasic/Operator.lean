namespace LineBasic

inductive Operator where
  | add
  | sub
  | mul
  | div
  | mod
  | eq
  | ne
  | lt
  | le
  | gt
  | ge
  deriving DecidableEq, Repr

-- How tightly an operator binds.
inductive Level where
  | comparison
  | additive
  | multiplicative
  deriving DecidableEq, Repr

namespace Operator

def level : Operator → Level
  | .add | .sub => .additive
  | .mul | .div | .mod => .multiplicative
  | .eq | .ne | .lt | .le | .gt | .ge => .comparison

def symbol : Operator → String
  | .add => "+"
  | .sub => "-"
  | .mul => "*"
  | .div => "/"
  | .mod => "%"
  | .eq => "="
  | .ne => "<>"
  | .lt => "<"
  | .le => "<="
  | .gt => ">"
  | .ge => ">="

end Operator

end LineBasic
