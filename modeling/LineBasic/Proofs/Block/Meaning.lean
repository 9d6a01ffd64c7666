import LineBasic.Machine

namespace LineBasic

-- What a program without jumps works on: its variables, the output with the latest piece first,
-- the calls of the printer, and what it can still read.
structure World where
  values : Table Bytes Value
  output : List Bytes
  calls : Nat
  input : Input
  deriving DecidableEq

-- How a part of a program ends: it runs past its last statement, stops the program, fails, or
-- jumps to a label.
inductive Ending where
  | through
  | stopped
  | failed (fault : Fault)
  | left (target : Word)
  deriving DecidableEq

abbrev Course := World × Ending

-- The next part starts only where the one before has run through.
def Course.andThen : Course → (World → Course) → Course
  | (w, .through), next => next w
  | (w, ending), _ => (w, ending)

namespace World

def initial (input : Input) : World :=
  ⟨[], [], 0, input⟩

def env (w : World) : Env :=
  ⟨w.values, [], []⟩

def define (w : World) (name : Bytes) (value : Value) : World :=
  { w with values := w.values.insert name value }

def pass (w : World) : Course :=
  (w, .through)

def reject (w : World) (failure : Failure) : Course :=
  (w, .failed (.failure failure))

def write (printer : Nat → Option Bytes) (text : Bytes) (w : World) : Course :=
  let called := { w with calls := w.calls + 1 }
  match printer called.calls with
  | some message => (called, .failed (.outside message))
  | none => { called with output := text :: w.output }.pass

def read (keyword name : Word) (w : World) : Course :=
  let (reading, rest) := w.input.readLine
  let after := { w with input := rest }
  match reading with
  | .ended => after.reject ⟨.inputExhausted, keyword.line, name.text⟩
  | .failed message => (after, .failed (.outside message))
  | .line text =>
    match Double.readInput? text with
    | none => after.reject ⟨.invalidInput, keyword.line, text⟩
    | some x => (after.define name.text (.number x)).pass

end World

-- A number without its fraction, in the range of thirty-two bits. What is no number counts as zero.
def Double.saturated (x : Double) : Int :=
  if x.isNaN then 0
  else if x.isInfinite then if x.negative then -2147483648 else 2147483647
  else max (-2147483648) (min 2147483647 (x.signedUnits.tdiv Double.one))

namespace Expr

def truth (keyword : Word) (w : World) (e : Expr) : Except Failure Bool :=
  match e.evaluate w.env with
  | .error failure => .error failure
  | .ok (.boolean b) => .ok b
  | .ok value => .error ⟨.conditionNotBoolean, keyword.line, Bytes.ofString value.kind.name⟩

def whole (keyword : Word) (w : World) (e : Expr) : Except Failure Int :=
  match e.evaluate w.env with
  | .error failure => .error failure
  | .ok (.number x) => .ok x.saturated
  | .ok value =>
    .error ⟨.operandTypes, keyword.line,
      Bytes.ofString "FOR bound is " ++ Bytes.ofString value.kind.name⟩

end Expr

-- The course of a statement without a body. There is no GOSUB that a RETURN could go back to.
def Stmt.perform (printer : Nat → Option Bytes) (stmt : Stmt) (w : World) : Course :=
  match stmt with
  | .assign name value =>
    match value.evaluate w.env with
    | .error failure => w.reject failure
    | .ok value => (w.define name.text value).pass
  | .print _ elements =>
    match Expr.evaluateAll w.env elements with
    | .error failure => w.reject failure
    | .ok values => w.write printer (Bytes.join [32] (values.map Value.print) ++ [10])
  | .input keyword none name => w.read keyword name
  | .input keyword (some prompt) name => (w.write printer prompt).andThen (World.read keyword name)
  | .goto _ target => (w, .left target)
  | .gosub _ target => (w, .left target)
  | .ret keyword => w.reject ⟨.returnWithoutGosub, keyword.line, []⟩
  | .label _ => w.pass
  | .stop _ => (w, .stopped)

-- Runs a body with a variable at `n` and at the numbers after it, `count` times in all.
def rounds (name : Bytes) (body : World → Course) : Int → Nat → World → Course
  | _, 0, w => w.pass
  | n, count + 1, w =>
    (body (w.define name (.number (Double.ofInt n)))).andThen (rounds name body (n + 1) count)

-- The course of a block, statement after statement and body inside body.
def Block.perform (printer : Nat → Option Bytes) : Block → World → Course
  | .done, w => w.pass
  | .simple stmt rest, w => (stmt.perform printer w).andThen (rest.perform printer)
  | .branch keyword condition body rest, w =>
    Course.andThen
      (match condition.truth keyword w with
      | .error failure => w.reject failure
      | .ok true => body.perform printer w
      | .ok false => w.pass)
      (rest.perform printer)
  | .choice keyword condition body _ alternative rest, w =>
    Course.andThen
      (match condition.truth keyword w with
      | .error failure => w.reject failure
      | .ok true => body.perform printer w
      | .ok false => alternative.perform printer w)
      (rest.perform printer)
  | .loop keyword name first last body _ rest, w =>
    Course.andThen
      (match first.whole keyword w with
      | .error failure => w.reject failure
      | .ok low =>
        match last.whole keyword w with
        | .error failure => w.reject failure
        | .ok high => rounds name.text (body.perform printer) low (high + 1 - low).toNat w)
      (rest.perform printer)

end LineBasic
