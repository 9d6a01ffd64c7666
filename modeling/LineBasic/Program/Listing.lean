import LineBasic.Double.Print
import LineBasic.Program

namespace LineBasic

namespace Expr

-- Operators before their operands, in parentheses. Groupings leave no trace.
def describe : Expr → Bytes
  | .number value _ => value.print
  | .string value _ => Text.quoted value
  | .variable name => name.text
  | .grouping _ inner _ => inner.describe
  | .binary left _ sign right =>
    [40] ++ sign.text ++ [32] ++ left.describe ++ [32] ++ right.describe ++ [41]

end Expr

namespace Instr

def form (name : String) (arguments : List Bytes) : Bytes :=
  [40] ++ Bytes.join [32] (Bytes.ofString name :: arguments) ++ [41]

def mark (role : String) (position : Nat) : Bytes :=
  Bytes.ofString role ++ [58] ++ Bytes.padded 4 position

def describeStmt : Stmt → Bytes
  | .assign name value => form "set" [name.text, value.describe]
  | .print _ elements => form "print" (elements.map Expr.describe)
  | .input _ (some prompt) name => form "input" [Text.quoted prompt, name.text]
  | .input _ none name => form "input" [name.text]
  | .goto _ label => form "goto" [label.text]
  | .gosub _ label => form "gosub" [label.text]
  | .ret _ => form "return" []
  | .label name => form "label" [name.text]
  | .stop _ => form "end" []

def describe : Instr → Bytes
  | .simple stmt => describeStmt stmt
  | .branch _ condition elseBranch endif =>
    if elseBranch = endif then form "if" [condition.describe, mark "endif" endif]
    else form "if" [condition.describe, mark "else" elseBranch, mark "endif" endif]
  | .otherwise _ endif => form "else" [mark "endif" endif]
  | .loop _ name first last exit =>
    form "for" [name.text, first.describe, last.describe, mark "exit" exit]
  | .next _ header => form "next" [mark "for" header]

-- Where the nesting level changes because of an instruction at `position`, and by how much.
def levelChanges (position : Nat) : Instr → List (Nat × Int)
  | .branch _ _ _ endif => [(position + 1, 1), (endif, -1)]
  | .otherwise _ _ => [(position, -1), (position + 1, 1)]
  | .loop _ _ _ _ exit => [(position + 1, 1), (exit - 1, -1)]
  | _ => []

end Instr

namespace Program

def levelSteps (p : Program) : Array Int :=
  let changes := p.code.toList.zipIdx.flatMap fun (instr, position) => instr.levelChanges position
  changes.foldl (fun steps (position, change) => steps.modify position (· + change))
    (Array.replicate (p.size + 1) 0)

def sums : Int → List Int → List Int
  | _, [] => []
  | total, step :: rest => (total + step) :: sums (total + step) rest

def levels (p : Program) : List Int :=
  (sums 0 p.levelSteps.toList).take p.size

def listingLine (position : Nat) (level : Int) (instr : Instr) : Bytes :=
  Bytes.padded 4 position ++ [32, 32] ++ List.replicate (2 * level.toNat) 32 ++ instr.describe ++
    [10]

def listing (p : Program) : Bytes :=
  ((p.code.toList.zip p.levels).zipIdx).flatMap fun ((instr, level), position) =>
    listingLine position level instr

-- One label a line, in order of their names.
def labelListing (p : Program) : Bytes :=
  p.labels.entries.flatMap fun label =>
    label.name ++ [9] ++ Bytes.padded 4 label.position ++ [9] ++ Bytes.ofString "line " ++
      Bytes.ofNat label.line ++ [10]

-- The line of the word that each position is reported against.
def lines (p : Program) : List Nat :=
  p.code.toList.map fun instr => instr.word.line

end Program

end LineBasic
