import LineBasic.Expr

namespace LineBasic

-- A statement without a body.
inductive Stmt where
  | assign (name : Word) (value : Expr)
  | print (keyword : Word) (elements : List Expr)
  | input (keyword : Word) (prompt : Option Bytes) (name : Word)
  | goto (keyword label : Word)
  | gosub (keyword label : Word)
  | ret (keyword : Word)
  | label (name : Word)
  | stop (keyword : Word)
  deriving DecidableEq, Repr

namespace Stmt

def word : Stmt → Word
  | .assign name _ => name
  | .print keyword _ => keyword
  | .input keyword _ _ => keyword
  | .goto keyword _ => keyword
  | .gosub keyword _ => keyword
  | .ret keyword => keyword
  | .label name => name
  | .stop keyword => keyword

end Stmt

-- A sequence of statements, each with the sequence after it. An IF without ELSE is a `branch`,
-- one with ELSE a `choice`.
inductive Block where
  | done
  | simple (stmt : Stmt) (rest : Block)
  | branch (keyword : Word) (condition : Expr) (body : Block) (rest : Block)
  | choice (keyword : Word) (condition : Expr) (body : Block) (otherwise : Word)
      (alternative : Block) (rest : Block)
  | loop (keyword name : Word) (first last : Expr) (body : Block) (next : Word) (rest : Block)
  deriving DecidableEq, Repr

namespace Block

def append : Block → Block → Block
  | .done, other => other
  | .simple stmt rest, other => .simple stmt (rest.append other)
  | .branch keyword condition body rest, other =>
    .branch keyword condition body (rest.append other)
  | .choice keyword condition body otherwise alternative rest, other =>
    .choice keyword condition body otherwise alternative (rest.append other)
  | .loop keyword name first last body next rest, other =>
    .loop keyword name first last body next (rest.append other)

def labels : Block → List Word
  | .done => []
  | .simple (.label name) rest => name :: rest.labels
  | .simple _ rest => rest.labels
  | .branch _ _ body rest => body.labels ++ rest.labels
  | .choice _ _ body _ alternative rest => body.labels ++ alternative.labels ++ rest.labels
  | .loop _ _ _ _ body _ rest => body.labels ++ rest.labels

def labelNames (b : Block) : List Bytes :=
  b.labels.map Word.text

end Block

end LineBasic
