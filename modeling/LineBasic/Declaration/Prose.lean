import LineBasic.Declaration.NoteText
import LineBasic.Text.SmallLetter

namespace LineBasic.Declaration.Prose

abbrev Line := List Char

-- A part of the text of a comment. A loose list has blank lines between its items. An item of a
-- list has a number or none, and its paragraphs.
inductive Part where
  | paragraph (lines : List Line)
  | heading (text : Line)
  | code (lines : List Line)
  | list (items : List (Line × List (List Line))) (apart loose : Bool)

def trim (line : Line) : Line :=
  NoteText.trimEnd (line.dropWhile Text.isBlank)

def isTab (c : Char) : Bool :=
  c == ' ' || c == '\t'

def isIndented (line : Line) : Bool :=
  (line.head?.map isTab).getD false

def commonIndent : Line → Line → Line
  | a :: as, b :: bs => if a = b then a :: commonIndent as bs else []
  | _, _ => []

def dropBlankEnds (lines : List Line) : List Line :=
  ((lines.dropWhile List.isEmpty).reverse.dropWhile List.isEmpty).reverse

-- The lines without the indentation that they have in common, and without blank lines at the ends.
-- Lines of blanks are empty.
def unindented (lines : List Line) : List Line :=
  let lines := dropBlankEnds lines
  let indents := (lines.filter fun line => !line.isEmpty).map (List.takeWhile isTab)
  let common := indents.foldl commonIndent (indents.headD [])
  dropBlankEnds (lines.map fun line =>
    let line := if common.isPrefixOf line then line.drop common.length else line
    if line.all Text.isBlank then [] else line)

def item? (line : Line) : Option (Line × Line) :=
  let found : Option (Line × Line) :=
    match trim line with
    | [] => none
    | c :: rest =>
      if ['•', '*', '+', '-'].contains c then some ([], rest)
      else if c.isDigit then
        let number := c :: rest.takeWhile Char.isDigit
        match rest.dropWhile Char.isDigit with
        | '.' :: rest | ')' :: rest => some (number, rest)
        | _ => none
      else none
  found.filter fun (_, rest) => isIndented rest && !rest.all Text.isBlank

def isItem (line : Line) : Bool :=
  (item? line).isSome

-- How many lines belong to an indented part. A number of lines count as indented. Items of a list
-- may be among them up to the first blank line, if `items` holds.
def indentedCount : Bool → Nat → List Line → Nat
  | _, _, [] => 0
  | items, forced, line :: rest =>
    if line.isEmpty || decide (0 < forced) || isIndented line || (items && isItem line) then
      indentedCount (items && !line.isEmpty) (forced - 1) rest + 1
    else 0

def isHeading : Line → Bool
  | '#' :: c :: rest => isTab c && !rest.all Text.isBlank
  | _ => false

def followedBy (c : Char) (fits : Line → Bool) : Line → Bool
  | [] => true
  | d :: rest => (d != c || fits rest) && followedBy c fits rest

def readsLikeHeading (line : Line) : Bool :=
  let line := trim line
  let first := line.headD ' '
  let last := line.getLastD ' '
  let startsWithS (rest : Line) := rest == ['s'] || ['s', ' '].isPrefixOf rest
  Text.isLetter first && Text.smallLetter first != first
    && (Text.isLetter last || Text.isDecimalDigit last)
    && !line.any (";:!?+*/=[]\x7b\x7d_^°&§~%#@<\">\\".toList.contains ·)
    && followedBy '\'' startsWithS line
    && followedBy '.' (fun rest => !rest.isEmpty && rest.head? != some ' ') line

-- The items of a list with their paragraphs, which blank lines divide. What has been read comes
-- in reverse.
def items (numbered : Bool) :
    List (Line × List (List Line)) → List Line → List (Line × List (List Line))
  | out, [] => out.reverse.map fun (number, parts) =>
      (number, (parts.filter fun part => !part.isEmpty).reverse.map List.reverse)
  | out, line :: rest =>
    let start := (item? line).filter fun (number, _) => !number.isEmpty == numbered
    let out := match start with
      | some (number, _) => (number, [[]]) :: out
      | none => out
    let text := trim ((start.map Prod.snd).getD line)
    match out with
    | (number, part :: parts) :: more =>
      if text.isEmpty then items numbered ((number, [] :: part :: parts) :: more) rest
      else items numbered ((number, (text :: part) :: parts) :: more) rest
    | _ => items numbered out rest

def listPart (lines : List Line) (apart : Bool) : Part :=
  let numbered := ((lines.head?.bind item?).map fun (number, _) => !number.isEmpty).getD false
  let loose := lines.any (·.all Text.isBlank)
  .list (items numbered [] lines) (apart || loose) loose

-- The last lines of a paragraph that belong to the indented lines after it: items of a list, or a
-- line that opens something.
def leftOver (lines after : List Line) : Nat :=
  match after.head?, lines.reverse with
  | some next, last :: _ =>
    if next.isEmpty || isItem next then 0
    else if isItem last then (lines.reverse.takeWhile isItem).length
    else if last.getLast? == some '\x7b' || last.getLast? == some '\\' then 1
    else 0
  | _, _ => 0

-- The parts of a text, of whose lines some at the front count as indented.
def parts : Nat → Nat → List Line → List Part
  | 0, _, _ => []
  | fuel + 1, forced, all =>
    let lines := all.dropWhile List.isEmpty
    let blanks := all.length - lines.length
    let forced := forced - blanks
    let apart := decide (0 < blanks)
    match lines with
    | [] => []
    | first :: rest =>
      if isIndented first || decide (0 < forced) then
        let items := isItem first && decide (0 < forced)
        let count := indentedCount items (forced - 1) rest + 1
        let taken := (((lines.take count).reverse.dropWhile List.isEmpty).reverse).length
        let closes := (((lines.drop taken).head?.bind List.head?) == some '\x7d')
        let taken := if closes then taken + 1 else taken
        let own := lines.take taken
        (if isItem first then listPart own apart else .code (unindented own))
          :: parts fuel (forced - taken) (lines.drop taken)
      else
        let own := first :: rest.takeWhile fun line => !line.isEmpty && !isIndented line
        let left := leftOver own (lines.drop own.length)
        let taken := own.length - left
        if taken = 0 then parts fuel own.length lines
        else
          let own := own.take taken
          let after := lines.drop taken
          let alone := apart && taken == 1 && after.head? == some []
            && ((after.drop 1).head?.map fun line => !isIndented line).getD false
          let part : Part :=
            if taken == 1 && isHeading first then .heading (trim (first.drop 1))
            else if alone && readsLikeHeading first then .heading (trim first)
            else .paragraph own
          part :: parts fuel left after

-- Two quotes of a kind are written as one. A row of three or more starts with three that stay,
-- and more stay only in the first row of a text that starts with it. `place` is the number of
-- characters before.
def withQuotes : Nat → Nat → Line → Line
  | 0, _, line => line
  | _ + 1, _, [] => []
  | fuel + 1, place, c :: rest =>
    let quote := Char.ofNat 96
    let text := c :: rest
    if text.take 3 = [quote, quote, quote] then
      let kept := 3 + ((text.drop (place + 3)).takeWhile (· == quote)).length
      text.take kept ++ withQuotes fuel (place + kept) (text.drop kept)
    else if text.take 2 = [quote, quote] then '“' :: withQuotes fuel (place + 2) (rest.drop 1)
    else if text.take 2 = ['\'', '\''] then '”' :: withQuotes fuel (place + 2) (rest.drop 1)
    else c :: withQuotes fuel (place + 1) rest

def joined (lines : List Line) : Line :=
  (lines.intersperse ['\n']).flatten

def quotedLines (lines : List Line) : List Line :=
  let text := joined lines
  NoteText.splitLines (withQuotes text.length 0 text)

structure Link where
  name : Line
  target : Line
  deriving DecidableEq

def cutAt? (part : Line) : Line → Option (Line × Line)
  | [] => none
  | c :: rest =>
    if part.isPrefixOf (c :: rest) then some ([], (c :: rest).drop part.length)
    else (cutAt? part rest).map fun (before, after) => (c :: before, after)

-- A line that tells what a name stands for: the name in brackets, a colon and an address.
def link? (line : Line) : Option Link := do
  let (name, after) ← cutAt? [']', ':'] (line.drop 1)
  let target := trim (after.drop 1)
  let (scheme, _) ← cutAt? "://".toList target
  let schemes := ["file", "ftp", "gopher", "http", "https", "mailto", "nntp"]
  if line.head? = some '[' ∧ isIndented after ∧ 1 < after.length
      ∧ schemes.contains (String.ofList scheme) then
    some ⟨name, target⟩
  else none

def links? (lines : List Line) : Option (List Link) :=
  lines.mapM link?

-- The names in brackets in a text, after the characters of the one that is being read.
def bracketed : Option Line → Line → Line → List Line
  | _, _, [] => []
  | opened, read, c :: rest =>
    let shown := if c = '\n' ∨ c = '\t' then ' ' else c
    if c = '[' then bracketed (some []) read rest
    else if c = ']' then
      let after := bracketed none [] rest
      if opened.isSome then read :: after else after
    else bracketed opened (if opened.isSome then read ++ [shown] else read) rest

-- The paragraphs of an item: the first one after the sign of the item, the others below it.
def itemLines (number : Line) (paragraphs : List (List Line)) : List Line :=
  let sign := if number.isEmpty then "  - ".toList else ' ' :: number ++ ". ".toList
  let indent := "    ".toList
  let indented (lines : List Line) := lines.map (indent ++ ·)
  match paragraphs with
  | [] => [sign]
  | first :: more =>
    match first with
    | [] => [sign]
    | line :: lines =>
      (sign ++ line) :: indented lines ++ more.flatMap fun part => [] :: indented part

def partLines : Part → List Line
  | .paragraph lines => quotedLines lines
  | .heading text => [("# ".toList ++ text)]
  | .code lines => lines.map fun line => if line.isEmpty then [] else '\t' :: line
  | .list items _ loose =>
    let texts := items.map fun (number, paragraphs) =>
      itemLines number (paragraphs.map quotedLines)
    if loose then (texts.intersperse [[]]).flatten else texts.flatten

def standsApart : Part → Bool
  | .list _ apart _ => apart
  | _ => true

def paragraphs : Part → List (List Line)
  | .paragraph lines => [lines]
  | .list items _ _ => items.flatMap Prod.snd
  | _ => []

def withoutLinks : Part → Option Part
  | .paragraph lines => if (links? lines).isSome then none else some (.paragraph lines)
  | .list items apart loose =>
    some (.list (items.map fun (number, texts) =>
      (number, texts.filter fun lines => (links? lines).isNone)) apart loose)
  | part => some part

-- The lines that tell links: those of a name that is used, and after them the others. Of links
-- with one name the first is used.
def linkLines (links : List Link) (names : List Line) : List Line :=
  let isUsed (link : Link) :=
    names.contains link.name && (links.find? fun other => other.name == link.name) == some link
  let line (link : Link) := '[' :: link.name ++ "]: ".toList ++ link.target
  let block (links : List Link) := if links.isEmpty then [] else [] :: links.map line
  block (links.filter isUsed) ++ block (links.filter fun link => !isUsed link)

def usual (text : List Line) : List Line :=
  let lines := unindented text
  let all := parts (2 * lines.length + 1) 0 lines
  let links := (all.flatMap paragraphs).filterMap links? |>.flatten
  let content := all.filterMap withoutLinks
  let names := (content.flatMap paragraphs).flatMap fun lines => bracketed none [] (joined lines)
  let written :=
    match content with
    | [] => []
    | first :: rest =>
      partLines first ++ rest.flatMap fun part =>
        if standsApart part then [] :: partLines part else partLines part
  written ++ linkLines links names

def isInstruction (text : Line) : Bool :=
  let isWord (c : Char) := c.isDigit || ('a' ≤ c && c ≤ 'z')
  let word := text.takeWhile (· != ':')
  ["line ", "extern ", "export "].any (fun start => start.toList.isPrefixOf text)
    || (!word.isEmpty && word.all isWord
      && ((text.drop (word.length + 1)).head?.map isWord).getD false)

def hasStars (text : Line) : Bool :=
  ((NoteText.splitLines text).drop 1).all fun line =>
    match line.dropWhile isTab with
    | [] => true
    | c :: _ => c == '*'

def usualBlock (n : Note) : Note :=
  let text := n.text.toList
  if !text.contains '\n' || hasStars text then n
  else
    let inner := (text.drop 2).take (text.length - 4)
    let lines := (usual (NoteText.splitLines inner)).map (· ++ ['\n'])
    { n with text := String.ofList ("/*\n".toList ++ lines.flatten ++ "*/".toList) }

-- The usual form of comments that each take the rest of a line. Instructions come last.
def usualLines (place : Place) (notes : List Note) : List Note :=
  let texts := notes.map fun n => n.text.toList.drop 2
  let told := texts.filter isInstruction
  let prose := (texts.filter fun text => !isInstruction text).map fun text =>
    if text.head? == some ' ' then text.drop 1 else text
  let lines := (usual prose).map fun line =>
    if line.isEmpty || line.head? == some '\t' then line else ' ' :: line
  let gap : List Line := if lines.isEmpty || told.isEmpty then [] else [[]]
  (lines ++ gap ++ told).map fun line => ⟨place, String.ofList ('/' :: '/' :: line), .unknown, 0⟩

-- The usual form of the comments of a group right above what they are about.
def usualGroup (notes : List Note) : List Note :=
  match notes with
  | [] => []
  | first :: _ =>
    if notes.all Note.isLine then
      if notes.all fun n => isInstruction (n.text.toList.drop 2) then notes
      else usualLines first.place notes
    else if notes.length = 1 then [usualBlock first]
    else notes

end LineBasic.Declaration.Prose
