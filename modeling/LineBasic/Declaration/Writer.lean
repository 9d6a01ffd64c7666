import LineBasic.Declaration
import LineBasic.Declaration.Page.Notes

namespace LineBasic.Declaration.Writer

def moveTo (place : Place) : Writer Unit :=
  modify fun p => if place.isKnown then { p with source := place } else p

def gap (gap : Gap) : Writer Unit :=
  modify (Page.addGap gap)

def put (lexeme : Lexeme) : Writer Unit :=
  modify (Page.put lexeme)

def mark (text : String) : Writer Unit :=
  put (.mark text)

def markAt (place : Place) (text : String) : Writer Unit := do
  moveTo place
  mark text

def name (label : Label) : Writer Unit := do
  moveTo label.place
  put (.name label.text)

-- Breaks the line as often as the text does up to a line, but `least` times at least and then
-- twice at most. Before the first break comes a gap. Says whether there was a break.
def breakTo (line least : Nat) (before : Gap) (endsColumns : Bool) : Writer Bool := do
  let count := max (min (line - (← get).source.line) 2) least
  if count = 0 then return false
  gap before
  gap (if endsColumns then .feed else .newline)
  if 1 < count then gap .newline
  return true

def startLine (part : Writer Unit) : Writer Nat := do
  modify fun p => { p with lines := 0 :: p.lines, marking := true }
  part
  let line := (← get).lines.headD 0
  modify fun p => { p with lines := p.lines.drop 1 }
  return line

-- Writes parts, each with its line in the text, on lines of their own. A part of several lines
-- ends the columns.
def onLines : Option Nat → List (Nat × Writer Unit) → Writer Unit
  | _, [] => return
  | before, (line, part) :: rest => do
    if let some start := before then
      let _ ← breakTo line 1 .ignored (decide (start < (← get).out.line))
    let start ← startLine part
    onLines (some start) rest

-- Writes a closing brace that stays on the line of a comment before it. There may be no blank
-- between the comment and the brace.
def closingMark (place : Place) (noBlank : Bool) : Writer Unit := do
  modify fun p => { p with noExtraBreak := true, noExtraBlank := noBlank }
  markAt place "\x7d"
  modify fun p => { p with noExtraBreak := false, noExtraBlank := false }

def finish (p : Page) : Page :=
  ({ p with needsSemicolon := false }.flush .infinite .textEnd).1

-- The size of a part on a page of its own, if it has one line and `limit` bytes at most.
def size? (limit : Nat) (part : Writer Unit) : Option Nat :=
  let p := finish (part.run (Page.fresh [] true)).2
  let isSpace (ink : Ink) := ink == .blank || ink == .tab || ink == .softTab
  let ink := p.ink.dropWhile isSpace
  let sizeOf (ink : Ink) : Nat :=
    match ink with
    | .text text => text.utf8ByteSize
    | _ => 1
  let broken (ink : Ink) : Bool :=
    match ink with
    | .text text => text.toList.contains '\n' || text.toList.contains '\x0c'
    | ink => Page.isBreak ink
  let size := ink.foldl (fun size ink => size + sizeOf ink) 0
  if ink.any broken || decide (limit < size) then none else some size

end LineBasic.Declaration.Writer
