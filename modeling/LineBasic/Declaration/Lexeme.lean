import LineBasic.Declaration.Place
import LineBasic.Text.CodeRange
import LineBasic.Text.Letter

namespace LineBasic.Declaration

inductive LiteralKind where
  | integer
  | float
  | imaginary
  | character
  | text
  deriving DecidableEq, Repr

-- A piece of a text of declarations. A mark is an operator, a bracket or a reserved word. The end
-- of a line counts as a semicolon where a declaration or a statement can end.
inductive Lexeme where
  | name (text : String)
  | literal (kind : LiteralKind) (text : String)
  | mark (text : String)
  | lineEnd
  | note (text : String)
  | textEnd
  deriving DecidableEq, Repr

-- A piece, the place where it starts, and the place of the byte after the one that follows it.
-- The latter is unknown for a piece that is not shown as it was written. Comments may tell other
-- numbers for the lines after them, and the line that a piece is told to stand on is kept too.
structure LocatedLexeme where
  lexeme : Lexeme
  place : Place
  beyond : Place
  toldLine : Int
  deriving DecidableEq, Repr

namespace Lexeme

def reservedWords : List String :=
  ["break", "case", "chan", "const", "continue", "default", "defer", "else", "fallthrough", "for",
    "func", "go", "goto", "if", "import", "interface", "map", "package", "range", "return",
    "select", "struct", "switch", "type", "var"]

def operators : List String :=
  ["<<=", ">>=", "&^=", "...", "<<", ">>", "&^", "+=", "-=", "*=", "/=", "%=", "&=", "|=", "^=",
    "&&", "||", "<-", "++", "--", "==", "!=", "<=", ">=", ":=", "+", "-", "*", "/", "%", "&", "|",
    "^", "<", ">", "=", "!", "(", ")", "[", "]", "\x7b", "\x7d", ",", ";", ".", ":", "~"]

def closingMarks : List String :=
  ["break", "continue", "fallthrough", "return", "++", "--", ")", "]", "\x7d"]

-- A line that stops after this is complete.
def closes : Lexeme → Bool
  | .name _ | .literal _ _ => true
  | .mark text => closingMarks.contains text
  | _ => false

def isWordStart (c : Char) : Bool :=
  Text.isLetter c || c == '_'

def isWordPart (c : Char) : Bool :=
  isWordStart c || Text.isDecimalDigit c

def word (cs : List Char) : Lexeme × Nat :=
  let taken := cs.takeWhile isWordPart
  let text := String.ofList taken
  (if reservedWords.contains text then .mark text else .name text, taken.length)

def isHexDigit (c : Char) : Bool :=
  c.isDigit || ('a' ≤ c && c ≤ 'f') || ('A' ≤ c && c ≤ 'F')

def hexValue (c : Char) : Nat :=
  if c.isDigit then c.toNat - 48 else c.toLower.toNat - 87

-- The letter that tells the base of a number, and the length of what announces it. A zero alone
-- announces base eight.
def basePart : List Char → Char × Nat
  | '0' :: c :: _ =>
    if ['x', 'o', 'b'].contains c.toLower then (c.toLower, 2) else ('0', 1)
  | '0' :: _ => ('0', 1)
  | _ => ('d', 0)

def digitsOf (base : Char) (cs : List Char) : List Char :=
  cs.takeWhile fun c => c.isDigit || c == '_' || (base == 'x' && isHexDigit c)

def hasDigit (cs : List Char) : Bool :=
  cs.any (· != '_')

-- Each underscore of a number stands after a digit and before one. The base counts as a digit.
-- The character before is `before`.
def separated (hex : Bool) : Char → List Char → Bool
  | before, [] => before != '_'
  | before, c :: rest =>
    if c == '_' then before == '0' && separated hex '_' rest
    else if c.isDigit || (hex && isHexDigit c) then separated hex '0' rest
    else before != '_' && separated hex '.' rest

def underscoresFit (base : Char) (text : List Char) : Bool :=
  if ['x', 'o', 'b'].contains base then separated (base == 'x') '0' (text.drop 2)
  else separated false '.' text

def number? (cs : List Char) : Option (LiteralKind × Nat) :=
  let (base, start) := basePart cs
  let whole := digitsOf base (cs.drop start)
  let rest := cs.drop (start + whole.length)
  let pointed := rest.head? == some '.'
  let fraction := if pointed then digitsOf base (rest.drop 1) else []
  let rest := if pointed then rest.drop (fraction.length + 1) else rest
  let mark := (rest.head?.map Char.toLower).getD ' '
  let hasExponent := mark == 'e' || mark == 'p'
  let signed := hasExponent && ((rest.drop 1).head? == some '+' || (rest.drop 1).head? == some '-')
  let lead := if signed then 2 else 1
  let exponent := if hasExponent then digitsOf 'd' (rest.drop lead) else []
  let rest := if hasExponent then rest.drop (exponent.length + lead) else rest
  let imaginary := rest.head? == some 'i'
  let length := cs.length - rest.length + (if imaginary then 1 else 0)
  let isInteger := !pointed && !hasExponent && !imaginary
  let beyondBase (c : Char) :=
    (base == 'b' && '2' ≤ c && c ≤ '9') || ((base == 'o' || base == '0') && '8' ≤ c && c ≤ '9')
  let fits :=
    !(pointed && (base == 'o' || base == 'b'))
      && (base == '0' || hasDigit whole || hasDigit fraction)
      && (!hasExponent || hasDigit exponent)
      && !(mark == 'e' && base != 'd' && base != '0')
      && !(mark == 'p' && base != 'x')
      && !(base == 'x' && pointed && !hasExponent)
      && !(isInteger && whole.any beyondBase)
      && underscoresFit base (cs.take length)
  if fits then
    some (if imaginary then .imaginary else if isInteger then .integer else .float, length)
  else none

def escapeLength? (quote : Char) : List Char → Option Nat
  | [] => none
  | c :: rest =>
    let coded (length base : Nat) (digits : List Char) (limit extra : Nat) : Option Nat :=
      let taken := digits.take length
      let value := taken.foldl (fun n d => n * base + hexValue d) 0
      if taken.length = length ∧ taken.all (fun d => isHexDigit d && decide (hexValue d < base))
          ∧ value ≤ limit ∧ value.isValidChar then
        some (length + extra)
      else none
    if "abfnrtv\\".toList.contains c || c == quote then some 1
    else if '0' ≤ c ∧ c ≤ '7' then coded 3 8 (c :: rest) 255 0
    else if c = 'x' then coded 2 16 rest 255 1
    else if c = 'u' then coded 4 16 rest 0x10FFFF 1
    else if c = 'U' then coded 8 16 rest 0x10FFFF 1
    else none

-- The length of what is left of a quotation, its second quote included, and how many characters
-- it holds.
def quotation? (quote : Char) : Nat → List Char → Option (Nat × Nat)
  | 0, _ => none
  | _ + 1, [] => none
  | fuel + 1, c :: rest =>
    if c = '\n' then none
    else if c = quote then some (1, 0)
    else if c = '\\' then do
      let escape ← escapeLength? quote rest
      let (length, count) ← quotation? quote fuel (rest.drop escape)
      some (length + escape + 1, count + 1)
    else do
      let (length, count) ← quotation? quote fuel rest
      some (length + 1, count + 1)

def blockLength? : Nat → List Char → Option Nat
  | 0, _ => none
  | fuel + 1, cs =>
    match cs with
    | '*' :: '/' :: _ => some 2
    | _ :: rest => (blockLength? fuel rest).map (· + 1)
    | [] => none

-- A text in backquotes is shown without carriage returns.
def raw? (cs : List Char) : Option (Lexeme × Nat) :=
  let body := (cs.drop 1).takeWhile (·.toNat != 96)
  if body.length + 1 < cs.length then
    let shown := body.filter (· != '\r')
    let quote := Char.ofNat 96
    some (.literal .text (String.ofList (quote :: shown ++ [quote])), body.length + 2)
  else none

def quoted? (quote : Char) (cs : List Char) : Option (Lexeme × Nat) := do
  let (length, count) ← quotation? quote (cs.length + 1) (cs.drop 1)
  let text := String.ofList (cs.take (length + 1))
  if quote = '"' then some (.literal .text text, length + 1)
  else if count = 1 then some (.literal .character text, length + 1)
  else none

def front? (cs : List Char) : Option (Lexeme × Nat) :=
  match cs with
  | [] => none
  | c :: rest =>
    let startsNumber :=
      c.isDigit || (c == '.' && (rest.head?.map Char.isDigit).getD false)
    if isWordStart c then some (word cs)
    else if startsNumber then do
      let (kind, length) ← number? cs
      some (.literal kind (String.ofList (cs.take length)), length)
    else if c = '"' ∨ c = '\'' then quoted? c cs
    else if c.toNat = 96 then raw? cs
    else do
      let operator ← operators.find? fun operator => operator.toList.isPrefixOf cs
      some (.mark operator, operator.length)

-- The text of a comment is shown without carriage returns, unless its end would come too early.
def dropReturns (isBlock : Bool) : List Char → List Char → List Char
  | out, [] => out.reverse
  | out, c :: rest =>
    let kept := c != '\r' ||
      (isBlock && decide (2 < out.length) && out.head? == some '*' && rest.head? == some '/')
    dropReturns isBlock (if kept then c :: out else out) rest

def afterColon (text : List Char) : Option (List Char × List Char) :=
  let last := (text.reverse.takeWhile (· != ':')).reverse
  if last.length < text.length then some (last, text.take (text.length - last.length - 1)) else none

-- The number that digits write in sixty-four bits, with the sign that the highest bit tells.
def lineNumber? (digits : List Char) : Option Int :=
  let value : Nat := digits.foldl (fun n c => n * 10 + (c.toNat - 48)) 0
  if digits.isEmpty || !digits.all Char.isDigit || decide (0x10000000000000000 ≤ value) then none
  else some (if value < 0x8000000000000000 then value else (value : Int) - 0x10000000000000000)

-- What a comment tells about the line after it: nothing, a line number, or what can be none. There
-- may be a column after the line.
inductive LineNote where
  | silent
  | line (number : Int)
  | wrong

def lineNote (text : List Char) : LineNote :=
  let fits (n : Int) := n != 0 && decide (n ≤ 0x40000000)
  match afterColon text with
  | none => .silent
  | some (digits, before) =>
    match lineNumber? digits with
    | none => .wrong
    | some n =>
      match (afterColon before).bind fun (digits, _) => lineNumber? digits with
      | some line => if fits n && fits line then .line line else .wrong
      | none => if fits n then .line n else .wrong

-- A comment of `length` characters at the front, where told lines are `shift` more than lines.
-- Also how much more they are after the comment.
def note? (cs : List Char) (place : Place) (shift : Int) (isBlock : Bool) (length : Nat) :
    Option (LocatedLexeme × Int) :=
  let whole := cs.take length
  let text := if !isBlock && whole.getLast? == some '\r' then whole.dropLast else whole
  let inner := if isBlock then (text.drop 7).take (text.length - 9) else text.drop 7
  let setsLine :=
    (isBlock || place.column == 1) && "line ".toList.isPrefixOf (text.drop 2)
  let shown := dropReturns isBlock [] text
  let after := place.pastAll whole
  let beyond :=
    if shown.length < whole.length then .unknown
    else after.past ((cs.drop length).head?.getD ' ')
  let located : LocatedLexeme :=
    ⟨.note (String.ofList shown), place, beyond, place.line + shift⟩
  let nextLine := if isBlock then after.line else after.line + 1
  match if setsLine then lineNote inner else .silent with
  | .silent => some (located, shift)
  | .line number => some (located, number - nextLine)
  | .wrong => none

-- Blanks between pieces. The end of a line is one where it does not count.
def isGap (complete : Bool) (c : Char) : Bool :=
  c == ' ' || c == '\t' || c == '\r' || (c == '\n' && !complete)

-- The pieces of a text, read after `out`, which is reversed. What came before is complete if the
-- line could end here. Told lines are `shift` more than lines.
def scan : Nat → Place → Int → List Char → Bool → List LocatedLexeme →
    Option (List LocatedLexeme)
  | 0, _, _, _, _, _ => none
  | fuel + 1, place, shift, cs, complete, out =>
    let gap := cs.takeWhile (isGap complete)
    let place := place.pastAll gap
    let cs := cs.drop gap.length
    let located (lexeme : Lexeme) (place : Place) (shift : Int) : LocatedLexeme :=
      ⟨lexeme, place, .unknown, place.line + shift⟩
    match cs with
    | [] =>
      let out := if complete then located .lineEnd place shift :: out else out
      some (located .textEnd place shift :: out).reverse
    | '\n' :: rest =>
      scan fuel (place.past '\n') shift rest false (located .lineEnd place shift :: out)
    | '/' :: '/' :: _ => do
      let length := (cs.takeWhile (· != '\n')).length
      let (comment, after) ← note? cs place shift false length
      scan fuel (place.pastAll (cs.take length)) after (cs.drop length) complete (comment :: out)
    | '/' :: '*' :: _ => do
      let length := (← blockLength? cs.length (cs.drop 2)) + 2
      let whole := cs.take length
      let (comment, after) ← note? cs place shift true length
      let broken := complete && whole.contains '\n'
      let firstLine := place.pastAll (whole.takeWhile (· != '\n'))
      let out := comment :: out
      let out := if broken then located .lineEnd firstLine shift :: out else out
      scan fuel (place.pastAll whole) after (cs.drop length) (complete && !broken) out
    | _ => do
      let (lexeme, length) ← front? cs
      scan fuel (place.pastAll (cs.take length)) shift (cs.drop length) lexeme.closes
        (located lexeme place shift :: out)

-- The pieces of a text, if it has none but pieces. Neither the null character nor a byte order
-- mark may be in it.
def read? (text : List Char) : Option (List LocatedLexeme) :=
  if text.any fun c => c.toNat == 0 || c.toNat == 0xFEFF then none
  else scan (text.length + 2) .start 0 text false []

end Lexeme

end LineBasic.Declaration
