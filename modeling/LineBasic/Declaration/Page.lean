import LineBasic.Declaration.Columns
import LineBasic.Declaration.NoteText

namespace LineBasic.Declaration

-- White space that is to be written before the next piece, unless a comment comes in between.
-- Indentations change the lines that follow.
inductive Gap where
  | ignored
  | blank
  | softTab
  | newline
  | feed
  | indent
  | unindent
  deriving DecidableEq, Repr

-- A page while it is being written. The ink comes in reverse. Of the comments that are still to
-- come, those that come before a piece are written before it. `source` is the place in the text
-- that is laid out, `out` the one on the page, and `last` is the source after the last piece.
-- `lines` are the lines on the page that the parts being written have started on, the innermost
-- first; the first of them is still to be found if `marking` holds. A trial only tells the size of
-- a part, with numbers as they are. The amounts of ink before comments that tell conditions of
-- the file are kept, the last one first.
structure Page where
  ink : List Ink
  indent : Nat
  level : Nat
  noExtraBlank : Bool
  noExtraBreak : Bool
  endsColumns : Bool
  needsSemicolon : Bool
  lastMark : Option Lexeme
  lastOpen : Option String
  gaps : List Gap
  source : Place
  out : Place
  last : Place
  notes : List (List Note)
  lines : List Nat
  marking : Bool
  isTrial : Bool
  newConditions : List Nat
  oldConditions : List Nat

abbrev Writer := StateM Page

namespace Page

def fresh (notes : List (List Note)) (isTrial : Bool) : Page where
  ink := []
  indent := 0
  level := 0
  noExtraBlank := false
  noExtraBreak := false
  endsColumns := false
  needsSemicolon := false
  lastMark := none
  lastOpen := none
  gaps := []
  source := .start
  out := .start
  last := .unknown
  notes := notes
  lines := []
  marking := false
  isTrial := isTrial
  newConditions := []
  oldConditions := []

def shifted (p : Place) (n : Nat) : Place :=
  ⟨p.offset + n, p.line, p.column + n⟩

def writeIndent (p : Page) : Page :=
  { p with
    ink := List.replicate p.indent .tab ++ p.ink
    source := shifted p.source p.indent
    out := shifted p.out p.indent }

def isBreak (ink : Ink) : Bool :=
  ink == .newline || ink == .feed

-- Where columns have ended, tabs are blanks up to the end of the line, which is a feed.
def effective (p : Page) (ink : Ink) : Ink :=
  if !p.endsColumns then ink
  else match ink with
    | .tab | .softTab => .blank
    | .newline => .feed
    | ink => ink

def writeSpace (p : Page) (ink : Ink) (n : Nat) : Page :=
  let written := p.effective ink
  let p := if p.endsColumns && isBreak ink then { p with endsColumns := false } else p
  let p := if p.out.column == 1 then p.writeIndent else p
  let p := { p with ink := List.replicate n written ++ p.ink }
  if isBreak written then
    { p with
      source := ⟨p.source.offset + n, p.source.line + n, 1⟩
      out := ⟨p.out.offset, p.out.line + n, 1⟩ }
  else { p with source := shifted p.source n, out := shifted p.out n }

def pastText (p : Place) (text : String) : Place :=
  let size := text.utf8ByteSize
  let breaks := text.toList.countP fun c => c == '\n' || c == '\x0c'
  if breaks = 0 then shifted p size
  else
    let tail := text.toList.reverse.takeWhile fun c => c != '\n' && c != '\x0c'
    ⟨p.offset + size, p.line + breaks, (String.ofList tail).utf8ByteSize + 1⟩

def writeText (p : Page) (place : Place) (text : String) : Page :=
  let p := if p.out.column == 1 then p.writeIndent else p
  let place := if place.isKnown then place else p.source
  let after := pastText place text
  let broken := text.toList.any fun c => c == '\n' || c == '\x0c'
  { p with
    ink := .text text :: p.ink
    endsColumns := p.endsColumns || broken
    source := after
    out := pastText p.out text
    last := after }

def unindents : List Gap → Nat × List Gap
  | .unindent :: rest =>
    let (n, rest) := unindents rest
    (n + 1, rest)
  | rest => (0, rest)

-- Writes gaps. Indentations that end right after a line break end before it, and then the break
-- ends all columns.
def writeGaps : Nat → List Gap → Page → Page
  | 0, _, p => p
  | _ + 1, [], p => p
  | fuel + 1, gap :: rest, p =>
    match gap with
    | .ignored => writeGaps fuel rest p
    | .blank => writeGaps fuel rest (p.writeSpace .blank 1)
    | .softTab => writeGaps fuel rest (p.writeSpace .softTab 1)
    | .indent => writeGaps fuel rest { p with indent := p.indent + 1 }
    | .unindent => writeGaps fuel rest { p with indent := p.indent - 1 }
    | .newline | .feed =>
      let (count, rest) := unindents rest
      let ink := if gap = .feed ∨ 0 < count then Ink.feed else .newline
      writeGaps fuel rest ({ p with indent := p.indent - count }.writeSpace ink 1)

def flushGaps (p : Page) (n : Nat) : Page :=
  { writeGaps n (p.gaps.take n) p with gaps := p.gaps.drop n }

def flushAllGaps (p : Page) : Page :=
  p.flushGaps p.gaps.length

def rememberOpening (p : Page) : Page :=
  match p.lastMark with
  | none => p
  | some (.mark text) =>
    { p with lastOpen := if text = "(" ∨ text = "[" then some text else none }
  | some _ => { p with lastOpen := none }

def maxGaps : Nat :=
  16

-- Adds a gap to those that wait. After a line break no line can be complete.
def addGap (gap : Gap) (p : Page) : Page :=
  if gap = .ignored then p
  else
    let p := p.rememberOpening
    let p := if p.gaps.length = maxGaps then p.flushAllGaps else p
    { p with
      gaps := p.gaps ++ [gap]
      needsSemicolon := p.needsSemicolon && gap != .newline && gap != .feed
      lastMark := none }

end Page

end LineBasic.Declaration
