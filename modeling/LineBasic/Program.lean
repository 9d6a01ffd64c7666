import LineBasic.Block.Parser
import LineBasic.LabelTable

namespace LineBasic

-- One position of a flat program. Bodies lie in line, so that every jump names a position.
inductive Instr where
  | simple (stmt : Stmt)
  | branch (keyword : Word) (condition : Expr) (elseBranch endif : Nat)
  | otherwise (keyword : Word) (endif : Nat)
  | loop (keyword name : Word) (first last : Expr) (exit : Nat)
  | next (keyword : Word) (loop : Nat)
  deriving DecidableEq, Repr

namespace Instr

def word : Instr → Word
  | .simple stmt => stmt.word
  | .branch keyword _ _ _ => keyword
  | .otherwise keyword _ => keyword
  | .loop keyword _ _ _ _ => keyword
  | .next keyword _ => keyword

def target? : Instr → Option Word
  | .simple (.goto _ label) => some label
  | .simple (.gosub _ label) => some label
  | _ => none

def declared? : Instr → Option Word
  | .simple (.label name) => some name
  | _ => none

end Instr

namespace Block

-- The instructions of a block whose first one lies at `base`. An IF jumps past its ELSE or to its
-- end, an ELSE to the end, a FOR past its NEXT, a NEXT back to its FOR.
def flatten : Block → Nat → List Instr
  | .done, _ => []
  | .simple stmt rest, base => .simple stmt :: rest.flatten (base + 1)
  | .branch keyword condition body rest, base =>
    let inner := body.flatten (base + 1)
    let endif := base + 1 + inner.length
    .branch keyword condition endif endif :: inner ++ rest.flatten endif
  | .choice keyword condition body otherwise alternative rest, base =>
    let yes := body.flatten (base + 1)
    let elseBranch := base + 1 + yes.length + 1
    let no := alternative.flatten elseBranch
    let endif := elseBranch + no.length
    .branch keyword condition elseBranch endif ::
      yes ++ .otherwise otherwise endif :: no ++ rest.flatten endif
  | .loop keyword name first last body next rest, base =>
    let inner := body.flatten (base + 1)
    let exit := base + 1 + inner.length + 1
    .loop keyword name first last exit :: inner ++ .next next base :: rest.flatten exit

end Block

structure Program where
  code : Array Instr
  labels : LabelTable

namespace Program

-- Declares the labels of instructions that start at a position.
def declareLabels : LabelTable → Nat → List Instr → LabelTable
  | table, _, [] => table
  | table, position, instr :: rest =>
    let table := match instr.declared? with
      | some name => (table.declare ⟨name.text, position, name.line⟩).2
      | none => table
    declareLabels table (position + 1) rest

def ofBlock (block : Block) : Program :=
  let code := block.flatten 0
  ⟨code.toArray, declareLabels .empty 0 code⟩

def parse (source : Bytes) : Except Failure Program :=
  (Block.parse (Scan.ofSource source)).map ofBlock

def size (p : Program) : Nat :=
  p.code.size

-- A failure for every GOTO or GOSUB whose label is not declared, in program order.
def unresolved (p : Program) : List Failure :=
  p.code.toList.filterMap fun instr =>
    match instr.target? with
    | none => none
    | some label =>
      match p.labels.lookup? label.text with
      | some _ => none
      | none => some ⟨.undeclaredLabel, label.line, label.text⟩

-- Everything that can be found wrong with a source without running it.
def check (source : Bytes) : List Failure :=
  match parse source with
  | .error failure => [failure]
  | .ok program => program.unresolved

end Program

end LineBasic
