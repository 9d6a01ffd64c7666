import LineBasic.Text

namespace LineBasic.Document

-- Why a text is no document, and the line it was noticed on, counted from zero.
structure Malformed where
  line : Nat
  reason : String
  deriving DecidableEq, Repr

namespace Malformed

def message (m : Malformed) : Bytes :=
  let place := if m.line = 0 then [] else
    Bytes.ofString "line " ++ Bytes.ofNat (m.line + 1) ++ Bytes.ofString ": "
  Bytes.ofString "yaml: " ++ place ++ Bytes.ofString m.reason

end Malformed

-- The marks and scalars that a document is made of. The starts and the ends of blocks and the
-- keys without a mark of their own are found from the indentation. A tag is written with a handle
-- that stands for the front of its name, or in full if the handle is empty.
inductive Sign where
  | version (major minor : Nat)
  | tagHandle (handle front : Bytes)
  | documentStart
  | documentEnd
  | streamEnd
  | blockSequence
  | blockMapping
  | blockEnd
  | flowSequence
  | flowSequenceEnd
  | flowMapping
  | flowMappingEnd
  | item
  | separator
  | key
  | value
  | anchor (name : List Char)
  | reference (name : List Char)
  | tag (handle rest : Bytes)
  | scalar (isPlain : Bool) (text : List Char)
  deriving DecidableEq, Repr

structure Token where
  sign : Sign
  line : Nat
  deriving DecidableEq, Repr

end LineBasic.Document
