import LineBasic.Declaration.Layout.Statement
import LineBasic.Declaration.Parser.Statement
import LineBasic.Text

namespace LineBasic.Declaration.File

def write (f : File) : Writer Unit := do
  let l := Layout.ofDepth (2 * f.weight + 4)
  Writer.markAt f.place "package"
  Writer.gap .blank
  Writer.name f.package
  l.items "" f.items
  Writer.gap .newline

def text (f : File) : String :=
  let page := Writer.finish (f.write.run (Page.fresh f.notes false)).2
  Columns.render (Condition.first page.newConditions.reverse page.oldConditions.reverse
    page.ink.reverse)

def characters? : List Glyph → Option (List Char)
  | [] => some []
  | .char c :: rest => (characters? rest).map (c :: ·)
  | .stray _ :: _ => none

def parse? (text : Bytes) : Option File := do
  let characters ← characters? (Glyph.read text)
  let lexemes ← Lexeme.read? characters
  let (marks, notes) := Mark.split 0 [] lexemes
  let (file, _) ← (Parser.file notes).run ⟨marks, 0⟩
  some file

-- The usual layout of a text of declarations, if it is one.
def format? (text : Bytes) : Option Bytes :=
  (parse? text).map fun file => Bytes.ofString file.text

end LineBasic.Declaration.File
