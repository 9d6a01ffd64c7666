import LineBasic.Declaration.Lexeme

namespace LineBasic.Declaration

-- A comment. The place beyond it is that of the byte after the one that follows it. The line that
-- it is told to stand on says what it belongs to.
structure Note where
  place : Place
  text : String
  beyond : Place
  toldLine : Int
  deriving DecidableEq, Repr

namespace Note

def isLine (n : Note) : Bool :=
  "//".toList.isPrefixOf n.text.toList

def toldEndLine (n : Note) : Int :=
  n.toldLine + n.text.toList.count '\n'

end Note

-- A piece that is no comment. It has a lead if a group of comments ends on the line before it, and
-- it has a remark if a group of comments after the piece before it ends the line.
structure Mark where
  lexeme : Lexeme
  place : Place
  hasLead : Bool
  hasRemark : Bool
  deriving DecidableEq, Repr

namespace Mark

def is (m : Mark) (text : String) : Bool :=
  m.lexeme == .mark text

def isSemicolon (m : Mark) : Bool :=
  m.is ";" || m.lexeme == .lineEnd

-- The comments at the front that belong together: each starts at most `gap` lines after the end of
-- the one before it. With them come their last line and the comments after them.
def group (gap : Int) : Int → List Note → List Note × Int × List Note
  | line, [] => ([], line, [])
  | line, n :: rest =>
    if n.toldLine ≤ line + gap then
      let (more, line, rest) := group gap n.toldEndLine rest
      (n :: more, line, rest)
    else ([], line, n :: rest)

-- The groups of comments with at most one line between two comments of a group, and the last line
-- of the last group.
def groups : Nat → List Note → List (List Note) × Int
  | 0, _ => ([], 0)
  | _ + 1, [] => ([], 0)
  | fuel + 1, n :: rest =>
    let (first, line, rest) := group 1 n.toldLine (n :: rest)
    match groups fuel rest with
    | ([], _) => ([first], line)
    | (more, last) => (first :: more, last)

def afterNotes (line : Int) (notes : List Note) (l : LocatedLexeme) : Mark × List (List Note) :=
  match notes with
  | [] => (⟨l.lexeme, l.place, false, false⟩, [])
  | n :: _ =>
    let follows := n.toldLine == line
    let (same, last, rest) := if follows then group 0 n.toldLine notes else ([], 0, notes)
    let nextLine := (rest.head?.map (·.toldLine)).getD l.toldLine
    let ends := rest.isEmpty
      && (l.lexeme == .mark ";" || l.lexeme == .lineEnd || l.lexeme == .textEnd)
    let (others, final) := groups rest.length rest
    let mark : Mark :=
      ⟨l.lexeme, l.place, !others.isEmpty && final + 1 == l.toldLine,
        follows && (nextLine != last || ends)⟩
    (mark, if follows then same :: others else others)

-- The pieces that are no comments, and the groups of comments. The piece before is on the given
-- line, and `notes` came after it.
def split : Int → List Note → List LocatedLexeme → List Mark × List (List Note)
  | _, _, [] => ([], [])
  | line, notes, l :: rest =>
    match l.lexeme with
    | .note text => split line (notes ++ [⟨l.place, text, l.beyond, l.toldLine⟩]) rest
    | _ =>
      let (mark, found) := afterNotes line notes l
      let (marks, more) := split l.toldLine [] rest
      (mark :: marks, found ++ more)

end Mark

end LineBasic.Declaration
