import LineBasic.Double.Read
import LineBasic.Failure
import LineBasic.Text.CodeRange
import LineBasic.Text.Letter
import LineBasic.Token

namespace LineBasic

-- A token cut off the front of a text: its raw text, the part of it that is the token's text,
-- and what follows.
structure Piece where
  kind : Token.Kind
  lexeme : List Glyph
  raw : List Glyph
  rest : List Glyph

namespace Piece

def isDigit : Glyph → Bool :=
  Glyph.test Char.isDigit

def isWordStart : Glyph → Bool :=
  Glyph.test Text.isLetter

def isWordPart : Glyph → Bool :=
  Glyph.test fun c => Text.isLetter c || Text.isDecimalDigit c || c == '_'

-- Blanks between tokens. The end of a line is a token.
def isGap : Glyph → Bool :=
  Glyph.test fun c => Text.isBlank c && c != '\n'

def newlines (glyphs : List Glyph) : Nat :=
  glyphs.count (.char '\n')

def single? : Char → Option Token.Kind
  | '\n' => some .endOfLine
  | ';' => some .semicolon
  | ',' => some .comma
  | '(' => some .leftParen
  | ')' => some .rightParen
  | '+' => some (.operator .add)
  | '-' => some (.operator .sub)
  | '*' => some (.operator .mul)
  | '/' => some (.operator .div)
  | '%' => some (.operator .mod)
  | '=' => some (.operator .eq)
  | _ => none

def plain (kind : Token.Kind) (raw rest : List Glyph) : Piece :=
  ⟨kind, raw, raw, rest⟩

-- The text up to a closing quote and what follows the quote. A backslash protects a quote or a
-- backslash after it.
def splitQuote : List Glyph → Option (List Glyph × List Glyph)
  | [] => none
  | .char '\\' :: .char '"' :: rest =>
    (splitQuote rest).map fun (body, after) => (.char '\\' :: .char '"' :: body, after)
  | .char '\\' :: .char '\\' :: rest =>
    (splitQuote rest).map fun (body, after) => (.char '\\' :: .char '\\' :: body, after)
  | .char '"' :: rest => some ([], rest)
  | g :: rest => (splitQuote rest).map fun (body, after) => (g :: body, after)

-- The text that is meant between quotes. Any other backslash stands for itself.
def unescape : List Glyph → List Glyph
  | [] => []
  | .char '\\' :: .char '"' :: rest => .char '"' :: unescape rest
  | .char '\\' :: .char '\\' :: rest => .char '\\' :: unescape rest
  | g :: rest => g :: unescape rest

def quotation? (rest : List Glyph) : Option Piece :=
  (splitQuote rest).map fun (body, after) =>
    let value := (unescape body).flatMap Glyph.repaired
    plain (.string value) (.char '"' :: body ++ [.char '"']) after

-- Digits, and a point with the digits after it.
def number (text : List Glyph) : Piece :=
  let whole := text.takeWhile isDigit
  match text.dropWhile isDigit with
  | .char '.' :: rest =>
    let raw := whole ++ .char '.' :: rest.takeWhile isDigit
    plain (.number (Double.readLiteral (Glyph.write raw))) raw (rest.dropWhile isDigit)
  | rest => plain (.number (Double.readLiteral (Glyph.write whole))) whole rest

-- A label if a colon follows at once, else a reserved word or a variable.
def word (text : List Glyph) : Piece :=
  let name := text.takeWhile isWordPart
  match text.dropWhile isWordPart with
  | .char ':' :: rest => ⟨.label, name, name ++ [.char ':'], rest⟩
  | rest =>
    match Command.ofWord? name with
    | some command => plain (.command command) name rest
    | none => plain .variable name rest

-- The token at the front of a text that does not start with a gap. A quote that is never closed
-- gives none.
def cut? (first : Glyph) (rest : List Glyph) : Option Piece :=
  match first, rest with
  | .char '"', _ => quotation? rest
  | .char '<', .char '=' :: after => some (plain (.operator .le) [first, .char '='] after)
  | .char '<', .char '>' :: after => some (plain (.operator .ne) [first, .char '>'] after)
  | .char '<', _ => some (plain (.operator .lt) [first] rest)
  | .char '>', .char '=' :: after => some (plain (.operator .ge) [first, .char '='] after)
  | .char '>', _ => some (plain (.operator .gt) [first] rest)
  | .char c, _ =>
    match single? c with
    | some kind => some (plain kind [first] rest)
    | none =>
      if isDigit first then some (number (first :: rest))
      else if isWordStart first then some (word (first :: rest))
      else some (plain .unknown [first] rest)
  | .stray _, _ => some (plain .unknown [first] rest)

def token (piece : Piece) (line : Nat) : Token :=
  ⟨⟨Glyph.write piece.lexeme, line⟩, piece.kind⟩

end Piece

-- A place in a source: what is still to be read, and on which line it starts.
structure Cursor where
  rest : List Glyph
  line : Nat
  deriving DecidableEq, Repr

namespace Cursor

def start (source : Bytes) : Cursor :=
  ⟨Glyph.read source, 1⟩

-- The next token and the place after it. Past the last token this is the end of input, again and
-- again. A quote that is never closed takes all that is left.
def next (c : Cursor) : Except Failure Token × Cursor :=
  match c.rest.dropWhile Piece.isGap with
  | [] => (.ok ⟨⟨[], c.line⟩, .endOfInput⟩, ⟨[], c.line⟩)
  | first :: rest =>
    match Piece.cut? first rest with
    | some piece => (.ok (piece.token c.line), ⟨piece.rest, c.line + Piece.newlines piece.raw⟩)
    | none =>
      (.error ⟨.unclosedString, c.line, []⟩, ⟨[], c.line + Piece.newlines (first :: rest)⟩)

end Cursor

-- The tokens of a source before the end of input, the line on which reading stopped, and the
-- failure that stopped it, if any.
structure Scan where
  tokens : List Token
  line : Nat
  failure : Option Failure
  deriving DecidableEq, Repr

namespace Scan

def collect : Nat → Cursor → Scan
  | 0, c => ⟨[], c.line, none⟩
  | fuel + 1, c =>
    match c.next with
    | (.error failure, after) => ⟨[], after.line, some failure⟩
    | (.ok token, after) =>
      if token.kind = .endOfInput then ⟨[], after.line, none⟩
      else
        let scan := collect fuel after
        { scan with tokens := token :: scan.tokens }

-- Every token takes at least one glyph, so the fuel covers the whole source.
def ofSource (source : Bytes) : Scan :=
  let start := Cursor.start source
  collect (start.rest.length + 1) start

def endToken (s : Scan) : Token :=
  ⟨⟨[], s.line⟩, .endOfInput⟩

-- The tokens with the end of input, which is reached only if nothing failed.
def listed (s : Scan) : List Token :=
  match s.failure with
  | some _ => s.tokens
  | none => s.tokens ++ [s.endToken]

def text (s : Scan) : Bytes :=
  s.listed.flatMap fun token => token.describe ++ [10]

end Scan

end LineBasic
