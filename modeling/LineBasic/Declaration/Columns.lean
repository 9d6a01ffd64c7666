namespace LineBasic.Declaration

-- What is written on a page. A tab ends a cell of its line. A soft tab does nothing in a column of
-- empty cells. A feed ends a line and all columns, a newline only a line.
inductive Ink where
  | text (text : String)
  | blank
  | tab
  | softTab
  | newline
  | feed
  deriving DecidableEq, Repr

namespace Columns

-- A piece of a line. Space at the end of the line vanishes.
inductive Piece where
  | text (text : String)
  | space (text : String)

namespace Piece

def shown : Piece → String
  | .text content | .space content => content

def isSpace : Piece → Bool
  | .text _ => false
  | .space _ => true

end Piece

structure Cell where
  content : List Piece
  hard : Bool

namespace Cell

def width (c : Cell) : Nat :=
  c.content.foldl (fun n piece => n + piece.shown.length) 0

end Cell

-- The cells of a line. The last one belongs to no column. A line may end a section.
structure Line where
  cells : List Cell
  last : List Piece
  endsSection : Bool

-- The lines of a text, of whose first line some cells and some pieces, in reverse, have been read.
def linesFrom : List Cell → List Piece → List Ink → List Line
  | cells, pieces, [] => [⟨cells.reverse, pieces.reverse, true⟩]
  | cells, pieces, ink :: rest =>
    match ink with
    | .text text => linesFrom cells (.text text :: pieces) rest
    | .blank => linesFrom cells (.space " " :: pieces) rest
    | .tab => linesFrom (⟨pieces.reverse, true⟩ :: cells) [] rest
    | .softTab => linesFrom (⟨pieces.reverse, false⟩ :: cells) [] rest
    | .newline => ⟨cells.reverse, pieces.reverse, false⟩ :: linesFrom [] [] rest
    | .feed => ⟨cells.reverse, pieces.reverse, true⟩ :: linesFrom [] [] rest

-- The width of a column: one more than its widest cell, or nothing if all its cells are empty and
-- end softly.
def columnWidth (column : Nat) (lines : List Line) : Nat :=
  let cells := lines.filterMap fun line => line.cells[column]?
  if cells.all fun cell => cell.width == 0 && !cell.hard then 0
  else cells.foldl (fun n cell => max n (cell.width + 1)) 0

-- The widths of the cells of each line, in reverse and after the widths already known. A column is
-- as long as the lines one after the other that have a cell in it.
def widths : Nat → Nat → List Nat → List Line → List (Line × List Nat)
  | 0, _, known, lines => lines.map fun line => (line, known)
  | _ + 1, _, _, [] => []
  | fuel + 1, column, known, line :: rest =>
    let inColumn (line : Line) := decide (column < line.cells.length)
    if inColumn line then
      let run := line :: rest.takeWhile inColumn
      let after := rest.dropWhile inColumn
      widths fuel (column + 1) (columnWidth column run :: known) run
        ++ widths fuel column known after
    else (line, known) :: widths fuel column known rest

def splitSection : List Line → List Line × List Line
  | [] => ([], [])
  | line :: rest =>
    if line.endsSection then ([line], rest)
    else
      let (section_, after) := splitSection rest
      (line :: section_, after)

-- Blanks that fill a cell up. At the start of a line they are tabs, eight columns each.
def filling (atStart : Bool) (cell width : Nat) : String :=
  if atStart then "".pushn '\t' ((width - cell + 7) / 8) else "".pushn ' ' (width - cell)

def cellPieces : Bool → List Cell → List Nat → List Piece
  | _, [], _ => []
  | atStart, cell :: rest, widths =>
    let atStart := atStart && cell.content.isEmpty
    let fill := match widths with
      | [] => ""
      | width :: _ => filling atStart cell.width width
    cell.content ++ (.space fill :: cellPieces atStart rest (widths.drop 1))

def lineText (line : Line) (widths : List Nat) : String :=
  let pieces := cellPieces true line.cells widths ++ line.last
  String.join ((pieces.reverse.dropWhile Piece.isSpace).reverse.map Piece.shown)

-- The sections of a text, each with its columns. A section has `fuel` lines and cells at most.
def sections : Nat → Nat → List Line → List String
  | 0, _, _ => []
  | _ + 1, _, [] => []
  | count + 1, fuel, lines =>
    let (section_, after) := splitSection lines
    (widths fuel 0 [] section_).map (fun (line, known) => lineText line known.reverse)
      ++ sections count fuel after

def render (ink : List Ink) : String :=
  let lines := linesFrom [] [] ink
  "\n".intercalate (sections (lines.length + 1) (ink.length + lines.length + 2) lines)

end Columns

end LineBasic.Declaration
