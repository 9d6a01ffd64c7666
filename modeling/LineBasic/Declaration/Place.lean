namespace LineBasic.Declaration

-- A place in a text: how many bytes come before it, its line and its column. Lines and columns are
-- counted from one, columns in bytes. Line zero is no place at all.
structure Place where
  offset : Nat
  line : Nat
  column : Nat
  deriving DecidableEq, Repr

namespace Place

def unknown : Place :=
  ⟨0, 0, 0⟩

def start : Place :=
  ⟨0, 1, 1⟩

def infinite : Place :=
  ⟨0x40000000, 0x40000000, 0⟩

def isKnown (p : Place) : Bool :=
  p.line != 0

def past (p : Place) (c : Char) : Place :=
  if c = '\n' then ⟨p.offset + 1, p.line + 1, 1⟩
  else ⟨p.offset + c.utf8Size, p.line, p.column + c.utf8Size⟩

def pastAll (p : Place) (text : List Char) : Place :=
  text.foldl past p

end Place

end LineBasic.Declaration
