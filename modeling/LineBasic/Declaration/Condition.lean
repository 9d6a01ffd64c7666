import LineBasic.Declaration.Columns
import LineBasic.Declaration.NoteText
import LineBasic.Text.CodeRange
import LineBasic.Text.Letter

namespace LineBasic.Declaration

inductive Condition where
  | holds (name : List Char)
  | negation (inner : Condition)
  | both (left right : Condition)
  | either (left right : Condition)
  deriving DecidableEq

namespace Condition

def trim (text : List Char) : List Char :=
  NoteText.trimEnd (text.dropWhile Text.isBlank)

-- What follows a word, which must stand alone.
def afterWord? (word : String) (text : List Char) : Option (List Char) :=
  let rest := text.drop word.length
  if word.toList.isPrefixOf text && (rest.isEmpty || (rest.head?.map Text.isBlank).getD false) then
    some (trim rest)
  else none

def newForm? (comment : List Char) : Option (List Char) :=
  afterWord? "//go:build" (NoteText.trimEnd comment)

def oldForm? (comment : List Char) : Option (List Char) :=
  if "//".toList.isPrefixOf comment then afterWord? "+build" (trim (comment.drop 2)) else none

def isNameChar (c : Char) : Bool :=
  Text.isLetter c || Text.isDecimalDigit c || c == '_' || c == '.'

def signs? : Nat → List Char → Option (List (List Char))
  | 0, _ => none
  | _ + 1, [] => some []
  | fuel + 1, c :: rest =>
    if c = ' ' ∨ c = '\t' then signs? fuel rest
    else if c = '(' ∨ c = ')' ∨ c = '!' then (signs? fuel rest).map ([c] :: ·)
    else if c = '&' ∨ c = '|' then
      if rest.head? = some c then (signs? fuel (rest.drop 1)).map ([c, c] :: ·) else none
    else
      let name := (c :: rest).takeWhile isNameChar
      if name.isEmpty then none
      else (signs? fuel ((c :: rest).drop name.length)).map (name :: ·)

mutual

def disjunction? : Nat → List (List Char) → Option (Condition × List (List Char))
  | 0, _ => none
  | fuel + 1, signs => do
    let (first, rest) ← conjunction? fuel signs
    moreDisjuncts? fuel first rest

def moreDisjuncts? :
    Nat → Condition → List (List Char) → Option (Condition × List (List Char))
  | 0, _, _ => none
  | fuel + 1, left, ['|', '|'] :: signs => do
    let (right, rest) ← conjunction? fuel signs
    moreDisjuncts? fuel (.either left right) rest
  | _ + 1, left, signs => some (left, signs)

def conjunction? : Nat → List (List Char) → Option (Condition × List (List Char))
  | 0, _ => none
  | fuel + 1, signs => do
    let (first, rest) ← literal? fuel signs
    moreConjuncts? fuel first rest

def moreConjuncts? :
    Nat → Condition → List (List Char) → Option (Condition × List (List Char))
  | 0, _, _ => none
  | fuel + 1, left, ['&', '&'] :: signs => do
    let (right, rest) ← literal? fuel signs
    moreConjuncts? fuel (.both left right) rest
  | _ + 1, left, signs => some (left, signs)

-- A name, a condition in parentheses, or the negation of one. There is no double negation.
def literal? : Nat → List (List Char) → Option (Condition × List (List Char))
  | 0, _ => none
  | _ + 1, [] => none
  | _ + 1, ['!'] :: ['!'] :: _ => none
  | fuel + 1, ['!'] :: signs => do
    let (inner, rest) ← literal? fuel signs
    some (.negation inner, rest)
  | fuel + 1, ['('] :: signs => do
    let (inner, rest) ← disjunction? fuel signs
    match rest with
    | [')'] :: rest => some (inner, rest)
    | _ => none
  | _ + 1, name :: rest => if name.all isNameChar then some (.holds name, rest) else none

end

def ofNewForm? (text : List Char) : Option Condition := do
  let signs ← signs? (text.length + 1) text
  match ← disjunction? (4 * signs.length + 4) signs with
  | (condition, []) => some condition
  | _ => none

def pieces (divides : Char → Bool) : List Char → List (List Char)
  | [] => [[]]
  | c :: rest =>
    match pieces divides rest with
    | [] => [[c]]
    | piece :: more => if divides c then [] :: piece :: more else (c :: piece) :: more

def ignored : Condition :=
  .holds "ignore".toList

def ofWord (word : List Char) : Condition :=
  let named (name : List Char) :=
    if !name.isEmpty && name.all isNameChar then .holds name else ignored
  if ['!', '!'].isPrefixOf word || word == ['!'] then ignored
  else match word with
    | '!' :: name => .negation (named name)
    | name => named name

def joinAll (join : Condition → Condition → Condition) : List Condition → Condition
  | [] => ignored
  | first :: rest => rest.foldl join first

-- A condition in the old form: one of the words, of each of which all parts between commas hold.
def ofOldForm (text : List Char) : Condition :=
  let words := (pieces Text.isBlank text).filter fun word => !word.isEmpty
  joinAll .either (words.map fun word =>
    joinAll .both ((pieces (· == ',') word).map ofWord))

def ofComment? (comment : String) : Option Condition :=
  match newForm? comment.toList with
  | some text => ofNewForm? text
  | none => (oldForm? comment.toList).map ofOldForm

-- A condition in the new form, with parentheses where it mixes both ways to join.
def text : Condition → String
  | .holds name => String.ofList name
  | .negation inner =>
    match inner with
    | .both _ _ | .either _ _ => "!(" ++ inner.text ++ ")"
    | _ => "!" ++ inner.text
  | .both left right =>
    let part (c : Condition) (text : String) : String :=
      match c with
      | .either _ _ => "(" ++ text ++ ")"
      | _ => text
    part left left.text ++ " && " ++ part right right.text
  | .either left right =>
    let part (c : Condition) (text : String) : String :=
      match c with
      | .both _ _ => "(" ++ text ++ ")"
      | _ => text
    part left left.text ++ " || " ++ part right right.text

-- A condition or its negation, with negations of names only.
def pushed : Bool → Condition → Condition
  | isNegated, .holds name => if isNegated then .negation (.holds name) else .holds name
  | isNegated, .negation inner => pushed (!isNegated) inner
  | isNegated, .both left right =>
    if isNegated then .either (pushed true left) (pushed true right)
    else .both (pushed false left) (pushed false right)
  | isNegated, .either left right =>
    if isNegated then .both (pushed true left) (pushed true right)
    else .either (pushed false left) (pushed false right)

def conjuncts : Condition → List Condition
  | .both left right => conjuncts left ++ conjuncts right
  | c => [c]

def disjuncts : Condition → List Condition
  | .either left right => disjuncts left ++ disjuncts right
  | c => [c]

def isLiteral : Condition → Bool
  | .holds _ | .negation _ => true
  | _ => false

-- The lines of a condition in the old form. All lines hold, of each line one word.
def oldLines (c : Condition) : List String :=
  let lines := (conjuncts (pushed false c)).map fun line => (disjuncts line).map conjuncts
  if !lines.all fun line => line.all fun word => word.all isLiteral then
    ["// +build error: expression too complex for // +build lines"]
  else
    let lines := if lines.all (·.length == 1) then [[(lines.map List.flatten).flatten]] else lines
    lines.map fun line =>
      " ".intercalate ("// +build" :: line.map fun word => ",".intercalate (word.map text))

def isBreak (ink : Ink) : Bool :=
  ink == .newline || ink == .feed

def restOfLine (ink : List Ink) : List Ink :=
  let line := ink.takeWhile fun piece => !isBreak piece
  ink.take (line.length + 1)

-- Lines after others, without a second blank line in between.
def appendLines (before after : List Ink) : List Ink :=
  let endsBlank := before.isEmpty ||
    (decide (2 ≤ before.length) && (before.reverse.take 2).all isBreak)
  if (after.head?.map isBreak).getD false && endsBlank then before ++ after.drop 1
  else before ++ after

-- The lines without those that start at the given places, after the lines already kept. `done` is
-- the number of pieces before `ink`.
def withoutLines (ink : List Ink) : Nat → List Nat → List Ink → List Ink
  | done, [], kept => appendLines kept (ink.drop done)
  | done, start :: rest, kept =>
    if start < done then withoutLines ink done rest kept
    else
      let kept := appendLines kept ((ink.drop done).take (start - done))
      withoutLines ink (start + (restOfLine (ink.drop start)).length) rest kept

def startingAt? (ink : List Ink) (start : Nat) : Option Condition :=
  match ink[start]? with
  | some (.text comment) => ofComment? comment
  | _ => none

-- The condition that the comments of a file tell: that of the only one in the new form, or, if
-- there is none, that of all in the old form.
def ofFile? (ink : List Ink) (new old : List Nat) : Option Condition :=
  match new with
  | [] => (old.mapM (startingAt? ink)).map (joinAll .both)
  | [start] => startingAt? ink start
  | _ => none

-- A page with its conditions first. The comments that tell conditions in the new and in the old
-- form start at the given places.
def first (new old : List Nat) (ink : List Ink) : List Ink :=
  if new.isEmpty && old.isEmpty then ink
  else
    let heading := match ofFile? ink new old with
      | none => (new ++ old).flatMap fun start => restOfLine (ink.drop start)
      | some c =>
        let lines := ("//go:build " ++ c.text) :: (if old.isEmpty then [] else c.oldLines)
        lines.flatMap fun line => [.text line, .newline]
    let after := withoutLines ink 0 ((new ++ old).mergeSort (· ≤ ·)) []
    let isLong := decide (2 ≤ after.length) && (after.reverse.take 2).all isBreak
    heading ++ [.newline] ++ (if isLong then after.dropLast else after)

end Condition

end LineBasic.Declaration
