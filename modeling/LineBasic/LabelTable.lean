import LineBasic.Text

namespace LineBasic

-- A declared label: the position in the program that it marks, and the line it was declared on.
structure Label where
  name : Bytes
  position : Nat
  line : Nat
  deriving DecidableEq, Repr

-- The declared labels in byte order of their names.
structure LabelTable where
  entries : List Label
  deriving DecidableEq, Repr

namespace LabelTable

def empty : LabelTable :=
  ⟨[]⟩

def lookup? (t : LabelTable) (name : Bytes) : Option Label :=
  t.entries.find? (·.name == name)

def size (t : LabelTable) : Nat :=
  t.entries.length

-- Puts a label before the first one with a greater name.
def place (label : Label) : List Label → List Label
  | [] => [label]
  | other :: rest =>
    if label.name < other.name then label :: other :: rest else other :: place label rest

-- Records a label unless its name is taken. The first declaration stays.
def declare (t : LabelTable) (label : Label) : Bool × LabelTable :=
  match t.lookup? label.name with
  | some _ => (false, t)
  | none => (true, ⟨place label t.entries⟩)

-- Shows labels to a visitor, in order, until it asks for no more.
def visit {σ : Type} (visitor : σ → Label → σ × Bool) : σ → List Label → σ
  | state, [] => state
  | state, label :: rest =>
    match visitor state label with
    | (state, true) => visit visitor state rest
    | (state, false) => state

def each {σ : Type} (t : LabelTable) (visitor : σ → Label → σ × Bool) (start : σ) : σ :=
  visit visitor start t.entries

end LabelTable

end LineBasic
