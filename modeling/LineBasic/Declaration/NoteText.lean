import LineBasic.Declaration.Note
import LineBasic.Text.CodeRange

namespace LineBasic.Declaration.NoteText

def trimEnd (text : List Char) : List Char :=
  (text.reverse.dropWhile Text.isBlank).reverse

def isBlankLine (line : List Char) : Bool :=
  line.all (· ≤ ' ')

def splitLines : List Char → List (List Char)
  | [] => [[]]
  | c :: rest =>
    match splitLines rest with
    | [] => [[c]]
    | line :: lines => if c = '\n' then [] :: line :: lines else (c :: line) :: lines

def commonStart : List Char → List Char → List Char
  | a :: as, b :: bs => if a = b ∧ (a ≤ ' ' ∨ a = '*') then a :: commonStart as bs else []
  | _, _ => []

def dropEnd (part text : List Char) : List Char :=
  if part.isSuffixOf text then text.take (text.length - part.length) else text

-- The start that the lines inside a comment have in common. Blank lines do not count. If there are
-- none inside, the last line counts.
def innerStart (inner : List (List Char)) (last : List Char) : List Char :=
  match inner.filter fun line => !isBlankLine line with
  | [] => commonStart last last
  | line :: lines => lines.foldl commonStart (commonStart line line)

-- How much of the common start is indentation of the comment: what stands in front of a row of
-- stars, or what is not indentation of the text against the sign that opens the comment.
def indentation (first start : List Char) : List Char :=
  if start.contains '*' then dropEnd [' '] (start.takeWhile (· != '*'))
  else if isBlankLine (first.drop 2) then
    let spaces := min 3 (start.reverse.takeWhile (· == ' ')).length
    if spaces = 0 then dropEnd ['\t'] start else start.take (start.length - spaces)
  else
    let gap := (first.drop 2).takeWhile (· ≤ ' ')
    dropEnd (if gap.head? = some '\t' then gap else ' ' :: ' ' :: gap) start

-- The last line of a comment: the sign that closes it comes below the one that opens it.
def closingLine (stars : Bool) (indent last : List Char) : List Char :=
  let rec before : List Char → List Char
    | '*' :: '/' :: _ => []
    | c :: rest => c :: before rest
    | [] => []
  if isBlankLine (before last) then indent ++ (if stars then " */" else "*/").toList else last

def withoutIndent (lines : List (List Char)) : List (List Char) :=
  match lines with
  | [] => []
  | [only] => [only]
  | first :: rest =>
    let last := rest.getLast?.getD []
    let inner := rest.dropLast.map fun line => if isBlankLine line then [] else line
    let start := innerStart inner last
    let indent := indentation first start
    let closing := closingLine (start.contains '*') indent last
    let indent := if closing == last then commonStart indent last else indent
    first :: (inner ++ [closing]).map fun line =>
      if line.isEmpty then [] else line.drop indent.length

end LineBasic.Declaration.NoteText
