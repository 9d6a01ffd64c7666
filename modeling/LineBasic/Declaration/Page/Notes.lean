import LineBasic.Declaration.Condition
import LineBasic.Declaration.Page
import LineBasic.Declaration.Prose

namespace LineBasic.Declaration.Page

-- A line break comes with the comments of a group.
def hasBreak (group : List Note) : Bool :=
  group.any fun n => n.isLine || n.text.toList.contains '\n'
    || (group.head?.map (·.place.line)) != some n.place.line

-- Whether a group of comments comes before a place and can be written there. A line break must
-- not come where it would complete a line.
def comesBefore (p : Page) (next : Place) (group : List Note) : Bool :=
  match group with
  | [] => false
  | n :: _ => decide (n.place.offset < next.offset) && (!p.needsSemicolon || !hasBreak group)

def groupsBefore (p : Page) (next : Place) : List (List Note) :=
  p.notes.takeWhile (p.comesBefore next)

def hasNoteBefore (p : Page) (next : Place) : Bool :=
  !(p.groupsBefore next).isEmpty

def noteSizeBefore (p : Page) (next : Place) : Nat :=
  (p.groupsBefore next).flatten.foldl (fun n note => n + note.text.utf8ByteSize) 0

-- Space before a comment on the line of the piece before it. If the comment is the first one, the
-- gaps up to a line break are written as long as one comes, but without blanks. A soft tab is
-- space enough.
def spaceOnLine (isFirst : Bool) (note next : Place) (p : Page) : Page :=
  let passes (gap : Gap) := gap == .blank || gap == .softTab || gap == .indent
  let passed := if isFirst then p.gaps.takeWhile passes else []
  let rest := p.gaps.drop passed.length
  let shown := passed.map fun gap => if gap = .blank then .ignored else gap
  let p := { p with gaps := shown ++ rest }
  let p := if rest.isEmpty then p else p.flushGaps shown.length
  if shown.contains .softTab then p
  else p.writeSpace (if note.line = next.line then .blank else .tab) 1

-- The gaps before a comment on a line of its own, as they are then, and those after them. Also
-- whether a line break was left out. An indentation that ends counts as one of the piece after
-- the comment, unless others end with it or the comment is aligned with the piece.
def gapsAbove (isAligned : Bool) : List Gap → List Gap × List Gap × Bool
  | [] => ([], [], false)
  | gap :: rest =>
    let pass (gap : Gap) :=
      let (passed, rest, dropped) := gapsAbove isAligned rest
      (gap :: passed, rest, dropped)
    match gap with
    | .blank | .softTab => pass .ignored
    | .indent => pass gap
    | .unindent =>
      if rest.head? = some .unindent || isAligned then pass gap else ([], gap :: rest, false)
    | .newline | .feed => ([], .ignored :: rest, true)
    | .ignored => ([], gap :: rest, false)

def spaceAbove (before : Option Note) (note next : Place) (lexeme : Lexeme) (p : Page) : Page :=
  let isAligned := lexeme != .mark "\x7d" && note.column == next.column
  let (passed, rest, dropped) := gapsAbove isAligned p.gaps
  let p := { p with gaps := passed ++ rest }
  let p := if rest.isEmpty then p else p.flushGaps passed.length
  let lines := if p.last.isKnown then note.line - p.last.line else 0
  let lines := if p.indent = 0 ∧ dropped ∧ before.isNone then lines + 1 else lines
  let afterLine := (before.map Note.isLine).getD false
  let lines := if lines = 0 ∧ afterLine then 1 else lines
  if lines = 0 then p else p.writeSpace .feed (min lines 2)

-- Space before a comment. The comment written before it, if any, is `before`, and the piece after
-- the comments is `lexeme` at `next`.
def spaceBefore (before : Option Note) (note next : Place) (lexeme : Lexeme) (p : Page) : Page :=
  if p.ink.isEmpty then p
  else if note.line = p.last.line ∧ !(before.map Note.isLine).getD false then
    spaceOnLine before.isNone note next p
  else spaceAbove before note next lexeme p

def writeNoteLines : Place → List (List Char) → Page → Page
  | _, [], p => p
  | place, line :: rest, p =>
    let p := if line.isEmpty then p
      else p.writeText place (String.ofList (NoteText.trimEnd line))
    match rest with
    | [] => p
    | _ :: _ =>
      let p := p.writeSpace .feed 1
      writeNoteLines p.source rest p

-- Remembers where a comment starts that tells a condition of the file.
def noteCondition (comment : List Char) (p : Page) : Page :=
  if (Condition.newForm? comment).isSome then
    { p with newConditions := p.ink.length :: p.newConditions }
  else if (Condition.oldForm? comment).isSome then
    { p with oldConditions := p.ink.length :: p.oldConditions }
  else p

-- Writes a comment. One that sets a line number stays at the start of its line. A comment that
-- comes from the start of a line is indented as a whole.
def writeNote (n : Note) (p : Page) : Page :=
  let text := n.text.toList
  let isFlush := n.place.column == 1
  if n.isLine then
    let p := p.noteCondition text
    let setsLine := isFlush && "//line ".toList.isPrefixOf text
    let written := { p with indent := if setsLine then 0 else p.indent }.writeText n.place
      (String.ofList (NoteText.trimEnd text))
    { written with indent := p.indent }
  else
    let lines := NoteText.splitLines text
    let lines := if isFlush && decide (0 < p.indent) then
        lines.take 1 ++ (lines.drop 1).map ("   ".toList ++ ·)
      else lines
    writeNoteLines n.place (NoteText.withoutIndent lines) p

def writeNotes (next : Place) (lexeme : Lexeme) :
    Option Note → List Note → Page → Page × Option Note
  | before, [], p => (p, before)
  | before, n :: rest, p =>
    let p := p.spaceBefore before n.place next lexeme |>.writeNote n
    writeNotes next lexeme (some n) rest p

-- Writes groups of comments and gives the last comment. A group that starts a line and stands
-- right above the next piece is written in its usual form, and if nothing is left of it, nothing
-- counts as written.
def writeGroups (next : Place) (lexeme : Lexeme) :
    Option Note → List (List Note) → Page → Page × Option Note
  | before, [], p => (p, before)
  | before, group :: rest, p =>
    match group, group.getLast? with
    | first :: _, some last =>
      if first.place.column = 1 ∧ last.beyond = next then
        let shown := Prose.usualGroup group
        if shown.isEmpty then
          let p := p.spaceBefore before first.place next lexeme
          ({ p with source := next, last := next }, none)
        else
          let (p, _) := writeNotes next lexeme before shown p
          let after := last.place.pastAll last.text.toList
          writeGroups next lexeme (some last) rest { p with source := after, last := after }
      else
        let (p, before) := writeNotes next lexeme before group p
        writeGroups next lexeme before rest p
    | _, _ => writeGroups next lexeme before rest p

-- The gaps that are left after comments: a line break if one is needed, and indentations. Also
-- whether the line break is still needed, and whether a feed was left out.
def gapsBelow : Bool → List Gap → List Gap × Bool × Bool
  | needsBreak, [] => ([], needsBreak, false)
  | needsBreak, gap :: rest =>
    match gap with
    | .indent | .unindent =>
      let (gaps, needed, dropped) := gapsBelow needsBreak rest
      (gap :: gaps, needed, dropped)
    | .blank | .softTab | .ignored =>
      let (gaps, needed, dropped) := gapsBelow needsBreak rest
      (.ignored :: gaps, needed, dropped)
    | .newline | .feed =>
      let (gaps, needed, dropped) := gapsBelow false rest
      if needsBreak then (gap :: gaps, needed, dropped)
      else (.ignored :: gaps, needed, dropped || gap == .feed)

def endNotes (needsBreak : Bool) (p : Page) : Page × Bool × Bool :=
  let (gaps, needed, dropped) := gapsBelow needsBreak p.gaps
  let p := { p with gaps := gaps }.flushAllGaps
  (if needed then p.writeSpace .newline 1 else p, needsBreak, dropped)

-- A comment in two signs is followed by space on its line, except before a comma and before a
-- bracket that does not close the one before the comment.
def wantsSpace (p : Page) (last : Note) (next : Place) (lexeme : Lexeme) : Bool :=
  !p.noExtraBlank && !last.isLine && last.place.line == next.line && lexeme != .mark ","
    && (lexeme != .mark ")" || p.lastOpen == some "(")
    && (lexeme != .mark "]" || p.lastOpen == some "[")

def flush (next : Place) (lexeme : Lexeme) (p : Page) : Page × Bool × Bool :=
  let groups := p.groupsBefore next
  if groups.isEmpty then (p.flushAllGaps, false, false)
  else
    let notes := p.notes.drop groups.length
    let (p, last) := writeGroups next lexeme none groups { p with notes := notes }
    match last with
    | none => endNotes false p
    | some last =>
      let breaks := p.gaps.any fun gap => gap == .newline || gap == .feed
      let mayBreak := breaks && !p.noExtraBreak && p.level == 0
      let spaced := p.wantsSpace last next lexeme
      let p := if spaced && !mayBreak then p.writeSpace .blank 1 else p
      endNotes ((spaced && mayBreak) || last.isLine || lexeme == .textEnd
        || (lexeme == .mark "\x7d" && !p.noExtraBreak)) p

-- Two pieces that would be read as one if nothing came in between.
def combines (before : Option Lexeme) (mark : String) : Bool :=
  let next := mark.front
  match before with
  | some (.literal .integer _) => next == '.'
  | some (.mark "+") => next == '+'
  | some (.mark "-") => next == '-'
  | some (.mark "/") => next == '*'
  | some (.mark "<") => next == '-' || next == '<'
  | some (.mark "&") => next == '&' || next == '^'
  | _ => false

def textOf : Lexeme → String
  | .name text | .literal _ text | .mark text | .note text => text
  | .lineEnd | .textEnd => ""

-- Writes a piece. Blank lines that came before it are kept, one of them at most.
def put (lexeme : Lexeme) (p : Page) : Page :=
  let p := p.rememberOpening
  let separate := match lexeme with
    | .mark text => combines p.lastMark text
    | _ => false
  let p := if separate then { p with gaps := [.blank] } else p
  let next := p.source
  let (p, broke, dropped) := { p with lastMark := some lexeme }.flush next lexeme
  let lines := if p.needsSemicolon then 0 else min (next.line - p.source.line) 2
  let lines := if broke ∧ lines = 2 then 1 else lines
  let p := if lines = 0 then p else p.writeSpace (if dropped then .feed else .newline) lines
  let p := if p.marking then { p with lines := p.out.line :: p.lines.drop 1, marking := false }
    else p
  { p.writeText next (textOf lexeme) with needsSemicolon := lexeme.closes && lines == 0 }

end LineBasic.Declaration.Page
