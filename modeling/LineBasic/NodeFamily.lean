import LineBasic.CommandLine
import LineBasic.Declaration.Layout
import LineBasic.Text.CodeRange
import LineBasic.Text.Quoted
import LineBasic.Text.SmallLetter

namespace LineBasic

-- A family of nodes of a syntax tree: the name of their common interface, and a definition for
-- each kind of node. A definition is the name of the kind, a colon, and fields with commas between
-- them.
structure NodeFamily where
  base : Bytes
  definitions : List Bytes
  deriving DecidableEq, Repr

namespace NodeFamily

-- The name in a definition as visitors have it: the first of the parts between all of its colons.
def nameIn (definition : Bytes) : Bytes :=
  Text.trim ((Bytes.splitOn 58 definition).headD [])

-- Both parts of a definition that has a colon, which are cut at the first one: the name, and the
-- fields. There is always one field at least, which may be empty.
def parts? (definition : Bytes) : Option (Bytes × List Bytes) :=
  match definition.dropWhile (· != 58) with
  | [] => none
  | _ :: fields =>
    some (Text.trim (definition.takeWhile (· != 58)),
      (Bytes.splitOn 44 (Text.trim fields)).map Text.trim)

def smallFirst : Bytes → Bytes
  | [] => []
  | b :: rest => String.utf8EncodeChar (Text.smallLetter (Char.ofNat b.toNat)) ++ rest

def interfaceName (f : NodeFamily) : Bytes :=
  Text.inSmallLetters f.base

def visitorName (f : NodeFamily) : Bytes :=
  f.interfaceName ++ Bytes.ofString "Visitor"

def recordName (f : NodeFamily) (name : Bytes) : Bytes :=
  smallFirst name ++ f.base

def methodName (f : NodeFamily) (name : Bytes) : Bytes :=
  Bytes.ofString "visit" ++ name ++ f.base

def line (parts : List Bytes) : Bytes :=
  parts.flatten ++ [10]

def block (heading : List Bytes) (lines : List Bytes) : Bytes :=
  line (heading ++ [Bytes.ofString " \x7b"]) ++ lines.flatten ++ Bytes.ofString "\x7d\n\n"

def resultText : Bytes :=
  Bytes.ofString " (R, error)"

def interfaceText (f : NodeFamily) : Bytes :=
  block [Bytes.ofString "type ", f.interfaceName, Bytes.ofString " interface"]
    [line [Bytes.ofString "\taccept(", f.visitorName, [41], resultText]]

def visitLine (f : NodeFamily) (definition : Bytes) : Bytes :=
  let name := nameIn definition
  line [[9], f.methodName name, [40], f.interfaceName, Bytes.ofString " *", f.recordName name,
    [41], resultText]

def visitorText (f : NodeFamily) : Bytes :=
  block [Bytes.ofString "type ", f.visitorName, Bytes.ofString " interface"]
    (f.definitions.map f.visitLine)

def recordText (f : NodeFamily) (name : Bytes) (fields : List Bytes) : Bytes :=
  block [Bytes.ofString "type ", f.recordName name, Bytes.ofString " struct"]
    (fields.map fun field => line [[9], field])

def acceptText (f : NodeFamily) (name : Bytes) : Bytes :=
  block [Bytes.ofString "func (s *", f.recordName name, Bytes.ofString ") accept(visitor ",
      f.visitorName, [41], resultText]
    [line [Bytes.ofString "\treturn visitor.", f.methodName name, Bytes.ofString "(s)"]]

inductive Refusal where
  | blankName
  | malformed (definition : Bytes)
  | unformatted
  deriving DecidableEq, Repr

-- Only a malformed definition is reported in words of its own.
def Refusal.message : Refusal → Bytes
  | .malformed definition =>
    Bytes.ofString "malformed node definition " ++ Text.quoted definition
  | .blankName | .unformatted => []

def nodeText (f : NodeFamily) (definition : Bytes) : Except Refusal Bytes :=
  match parts? definition with
  | none => .error (.malformed definition)
  | some (name, fields) => .ok (f.recordText name fields ++ f.acceptText name)

def nodesText (f : NodeFamily) : List Bytes → Except Refusal Bytes
  | [] => .ok []
  | definition :: rest =>
    match f.nodeText definition with
    | .error refusal => .error refusal
    | .ok text =>
      match f.nodesText rest with
      | .error refusal => .error refusal
      | .ok texts => .ok (text ++ texts)

-- The declarations of a family as they are before they are laid out. A definition without a name
-- comes before all else that may be wrong.
def text (f : NodeFamily) : Except Refusal Bytes :=
  if f.definitions.any (fun definition => (nameIn definition).isEmpty) then .error .blankName
  else
    match f.nodesText f.definitions with
    | .error refusal => .error refusal
    | .ok nodes =>
      .ok (Bytes.ofString "package internal\n\n" ++ f.interfaceText ++ f.visitorText ++ nodes)

def generate (f : NodeFamily) : Except Refusal Bytes :=
  match f.text with
  | .error refusal => .error refusal
  | .ok text =>
    match Declaration.File.format? text with
    | none => .error .unformatted
    | some laid => .ok laid

def statements : NodeFamily where
  base := Bytes.ofString "Stmt"
  definitions :=
    ["Assign: name *token, value expr",
      "Print: keyword *token, elements []expr",
      "Input: keyword *token, prompt *token, name *token",
      "If: keyword *token, condition expr, elseBranch int, endif int",
      "Else: keyword *token, endif int",
      "For: keyword *token, name *token, start expr, end expr, exit int",
      "Next: keyword *token, loop int",
      "Goto: keyword *token, label *token",
      "Gosub: keyword *token, label *token",
      "Return: keyword *token",
      "Label: name *token",
      "End: keyword *token"].map Bytes.ofString

def expressions : NodeFamily where
  base := Bytes.ofString "Expr"
  definitions :=
    ["Literal: token *token, value value",
      "Variable: name *token",
      "Grouping: paren *token, expression expr",
      "Binary: left expr, operator *token, right expr"].map Bytes.ofString

def known? (base : Bytes) : Option NodeFamily :=
  [statements, expressions].find? (·.base == base)

def respond : List Bytes → Response
  | [base] =>
    match known? base with
    | none =>
      ⟨1, [], line [Bytes.ofString "unknown node family ", Text.quoted base]⟩
    | some f =>
      match f.generate with
      | .ok text => ⟨0, text, []⟩
      | .error refusal => ⟨1, [], line [refusal.message]⟩
  | _ => ⟨1, [], Bytes.ofString "Usage: ast <Expr|Stmt>\n"⟩

end NodeFamily

end LineBasic
