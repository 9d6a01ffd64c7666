import LineBasic.Double.Read
import LineBasic.Env
import LineBasic.Input
import LineBasic.Program

namespace LineBasic

namespace Expr

-- The value of an expression. Operands are evaluated from left to right, and the first failure
-- counts.
def evaluate (env : Env) : Expr → Except Failure Value
  | .number value _ => .ok (.number value)
  | .string value _ => .ok (.string value)
  | .variable name => env.get name.text name.line
  | .grouping _ inner _ => inner.evaluate env
  | .binary left op sign right =>
    match left.evaluate env with
    | .error failure => .error failure
    | .ok x =>
      match right.evaluate env with
      | .error failure => .error failure
      | .ok y =>
        match op.apply x y with
        | .ok value => .ok value
        | .error .operandTypes =>
          let kinds := Bytes.ofString x.kind.name ++ [32] ++ sign.text ++ [32] ++
            Bytes.ofString y.kind.name
          .error ⟨.operandTypes, sign.line, kinds⟩
        | .error problem => .error ⟨problem, sign.line, []⟩

def evaluateAll (env : Env) : List Expr → Except Failure (List Value)
  | [] => .ok []
  | e :: rest =>
    match e.evaluate env with
    | .error failure => .error failure
    | .ok value =>
      match evaluateAll env rest with
      | .error failure => .error failure
      | .ok values => .ok (value :: values)

def greatestBound : Int := 2147483647

def leastBound : Int := -2147483648

-- A number as the bound of a loop: without its fraction, and moved into the range of bounds.
def boundOf (x : Double) : Int :=
  if x.isNaN then 0
  else match x.truncate? with
    | some n => max leastBound (min greatestBound n)
    | none => if x.negative then leastBound else greatestBound

def bound (env : Env) (line : Nat) (e : Expr) : Except Failure Int :=
  match e.evaluate env with
  | .error failure => .error failure
  | .ok (.number x) => .ok (boundOf x)
  | .ok value =>
    .error ⟨.operandTypes, line, Bytes.ofString "FOR bound is " ++ Bytes.ofString value.kind.name⟩

end Expr

-- What can stop a run: a failure of the program, a failure of the world around it, or a NEXT
-- whose FOR is not in the program.
inductive Fault where
  | failure (f : Failure)
  | outside (message : Bytes)
  | stuck
  deriving DecidableEq, Repr

-- A program with the printer it writes to and the number of steps it may take. The printer gives
-- the message of its failure at the calls that fail, counted from one. A limit that is not
-- positive is none.
structure Machine where
  program : Program
  printer : Nat → Option Bytes
  limit : Int

-- A moment of a run. The position is that of the next instruction; the output is kept in the
-- pieces in which it was printed, the latest first.
structure State where
  pc : Nat
  steps : Nat
  env : Env
  output : List Bytes
  calls : Nat
  input : Input
  deriving DecidableEq, Repr

namespace State

def initial (input : Input) : State :=
  ⟨0, 0, .empty, [], 0, input⟩

def written (s : State) : Bytes :=
  s.output.reverse.flatten

def jump (s : State) (position : Nat) : State :=
  { s with pc := position }

def define (s : State) (name : Bytes) (value : Value) : State :=
  { s with env := s.env.define name value }

end State

namespace Machine

abbrev Effect := State × Option Fault

def done (s : State) : Effect :=
  (s, none)

def fail (s : State) (failure : Failure) : Effect :=
  (s, some (.failure failure))

def emit (m : Machine) (s : State) (text : Bytes) : Effect :=
  let call := s.calls + 1
  match m.printer call with
  | some message => ({ s with calls := call }, some (.outside message))
  | none => ({ s with calls := call, output := text :: s.output }, none)

def receive (keyword name : Word) (s : State) : Effect :=
  let (reading, rest) := s.input.readLine
  let s := { s with input := rest }
  match reading with
  | .ended => fail s ⟨.inputExhausted, keyword.line, name.text⟩
  | .failed message => (s, some (.outside message))
  | .line text =>
    match Double.readInput? text with
    | none => fail s ⟨.invalidInput, keyword.line, text⟩
    | some x => done (s.define name.text (.number x))

-- Runs a statement without a body. The position is already past it.
def executeStmt (m : Machine) (stmt : Stmt) (s : State) : Effect :=
  match stmt with
  | .assign name value =>
    match value.evaluate s.env with
    | .error failure => fail s failure
    | .ok value => done (s.define name.text value)
  | .print _ elements =>
    match Expr.evaluateAll s.env elements with
    | .error failure => fail s failure
    | .ok values => m.emit s (Bytes.join [32] (values.map Value.print) ++ [10])
  | .input keyword prompt name =>
    match prompt with
    | none => receive keyword name s
    | some text =>
      match m.emit s text with
      | (s, some fault) => (s, some fault)
      | (s, none) => receive keyword name s
  | .goto _ label =>
    match m.program.labels.position label.text label.line with
    | .error failure => fail s failure
    | .ok position => done (s.jump position)
  | .gosub _ label =>
    match m.program.labels.position label.text label.line with
    | .error failure => fail s failure
    | .ok position => done { s with env := s.env.push s.pc, pc := position }
  | .ret keyword =>
    match s.env.pop keyword.line with
    | .error failure => fail s failure
    | .ok (position, env) => done { s with env := env, pc := position }
  | .label _ => done s
  | .stop _ => done (s.jump m.program.size)

def counterValue (n : Int) : Value :=
  .number (Double.ofInt n)

-- Starts a loop whose FOR lies right before the position, or leaves it at once.
def startLoop (keyword name : Word) (first last : Expr) (exit : Nat) (s : State) : Effect :=
  match first.bound s.env keyword.line with
  | .error failure => fail s failure
  | .ok low =>
    match last.bound s.env keyword.line with
    | .error failure => fail s failure
    | .ok high =>
      let header := s.pc - 1
      if high < low then done { s with env := s.env.leave header, pc := exit }
      else
        let env := (s.env.enter header ⟨low, high⟩).define name.text (counterValue low)
        done { s with env := env }

-- Counts a round of the loop whose FOR lies at `header`, and goes back into its body unless the
-- last round is over.
def continueLoop (m : Machine) (keyword : Word) (header : Nat) (s : State) : Effect :=
  match s.env.frame header keyword.line with
  | .error failure => fail s failure
  | .ok frame =>
    let counter := frame.counter + 1
    if frame.last < counter then done { s with env := s.env.leave header }
    else
      match m.program.code[header]? with
      | some (.loop _ name _ _ _) =>
        let env := s.env.enter header ⟨counter, frame.last⟩
        let env := env.define name.text (counterValue counter)
        done { s with env := env, pc := header + 1 }
      | _ => (s, some .stuck)

def execute (m : Machine) (instr : Instr) (s : State) : Effect :=
  match instr with
  | .simple stmt => m.executeStmt stmt s
  | .branch keyword condition elseBranch _ =>
    match condition.evaluate s.env with
    | .error failure => fail s failure
    | .ok (.boolean true) => done s
    | .ok (.boolean false) => done (s.jump elseBranch)
    | .ok value =>
      fail s ⟨.conditionNotBoolean, keyword.line, Bytes.ofString value.kind.name⟩
  | .otherwise _ endif => done (s.jump endif)
  | .loop keyword name first last exit => startLoop keyword name first last exit s
  | .next keyword header => m.continueLoop keyword header s

-- Moves past an instruction and runs it. A failing one counts as a step too.
def step (m : Machine) (instr : Instr) (s : State) : Effect :=
  m.execute instr { s with pc := s.pc + 1, steps := s.steps + 1 }

inductive Outcome where
  | finished
  | stopped (fault : Fault)
  | unfinished
  deriving DecidableEq, Repr

def atLimit (m : Machine) (s : State) : Bool :=
  decide (0 < m.limit) && decide (m.limit ≤ s.steps)

-- Runs at most `fuel` instructions and shows the state before each of them to an observer.
def runWith {σ : Type} (m : Machine) (observe : σ → Instr → State → σ) :
    Nat → σ → State → σ × State × Outcome
  | 0, seen, s => (seen, s, .unfinished)
  | fuel + 1, seen, s =>
    match m.program.code[s.pc]? with
    | none => (seen, s, .finished)
    | some instr =>
      if m.atLimit s then
        (seen, s, .stopped (.failure ⟨.stepLimit, instr.word.line, Bytes.ofInt m.limit⟩))
      else
        let seen := observe seen instr s
        match m.step instr s with
        | (s, none) => runWith m observe fuel seen s
        | (s, some fault) => (seen, s, .stopped fault)

def run (m : Machine) (fuel : Nat) (s : State) : State × Outcome :=
  (m.runWith (fun _ _ _ => ()) fuel () s).2

-- Parses a source and runs it from its start. What cannot be parsed is not run at all.
def runSource (source : Bytes) (printer : Nat → Option Bytes) (limit : Int) (fuel : Nat)
    (input : Input) : State × Outcome :=
  match Program.parse source with
  | .error failure => (.initial input, .stopped (.failure failure))
  | .ok program => (Machine.mk program printer limit).run fuel (.initial input)

end Machine

end LineBasic
