import LineBasic.Document.Token

namespace LineBasic.Document

inductive Encoding where
  | utf8
  | utf16 (highFirst : Bool)
  deriving DecidableEq, Repr

inductive Front where
  | code (value width : Nat)
  | cut (reason : String)
  | bad (reason : String)

namespace Encoding

def ofMark : Bytes → Encoding × Nat
  | 0xEF :: 0xBB :: 0xBF :: _ => (.utf8, 3)
  | 0xFF :: 0xFE :: _ => (.utf16 false, 2)
  | 0xFE :: 0xFF :: _ => (.utf16 true, 2)
  | _ => (.utf8, 0)

-- The number of bytes that a first byte announces and its own part of the code point.
def announced? (b : UInt8) : Option (Nat × Nat) :=
  if b < 0x80 then some (1, b.toNat)
  else if b &&& 0xE0 = 0xC0 then some (2, (b &&& 0x1F).toNat)
  else if b &&& 0xF0 = 0xE0 then some (3, (b &&& 0x0F).toNat)
  else if b &&& 0xF8 = 0xF0 then some (4, (b &&& 0x07).toNat)
  else none

def leastOfWidth : Nat → Nat
  | 2 => 0x80
  | 3 => 0x800
  | 4 => 0x10000
  | _ => 0

def front8 : Bytes → Front
  | [] => .cut "incomplete UTF-8 octet sequence"
  | b :: rest =>
    match announced? b with
    | none => .bad "invalid leading UTF-8 octet"
    | some (width, high) =>
      let tail := rest.take (width - 1)
      if tail.length + 1 < width then .cut "incomplete UTF-8 octet sequence"
      else if tail.any fun t => t &&& 0xC0 != 0x80 then .bad "invalid trailing UTF-8 octet"
      else
        let value := tail.foldl (fun n t => n * 64 + (t &&& 0x3F).toNat) high
        if value < leastOfWidth width then .bad "invalid length of a UTF-8 sequence"
        else if value.isValidChar then .code value width
        else .bad "invalid Unicode character"

def unit? (highFirst : Bool) : Bytes → Option Nat
  | a :: b :: _ => some (if highFirst then a.toNat * 256 + b.toNat else b.toNat * 256 + a.toNat)
  | _ => none

def front16 (highFirst : Bool) (bytes : Bytes) : Front :=
  match unit? highFirst bytes with
  | none => .cut "incomplete UTF-16 character"
  | some value =>
    if 0xDC00 ≤ value ∧ value < 0xE000 then .bad "unexpected low surrogate area"
    else if 0xD800 ≤ value ∧ value < 0xDC00 then
      match unit? highFirst (bytes.drop 2) with
      | none => .cut "incomplete UTF-16 surrogate pair"
      | some low =>
        if 0xDC00 ≤ low ∧ low < 0xE000 then
          .code (0x10000 + (value - 0xD800) * 1024 + (low - 0xDC00)) 4
        else .bad "expected low surrogate area"
    else .code value 2

def front : Encoding → Bytes → Front
  | .utf8, bytes => front8 bytes
  | .utf16 highFirst, bytes => front16 highFirst bytes

end Encoding

-- Control characters stand nowhere in a document.
def isAllowed (code : Nat) : Bool :=
  code == 9 || code == 10 || code == 13 || (0x20 ≤ code && code ≤ 0x7E) || code == 0x85 ||
    (0xA0 ≤ code && code != 0xFFFE && code != 0xFFFF)

-- The characters of a text as far as they can be read, and why they end where they do if that is
-- not the end of the text. If a second byte order mark follows the one at the front, the lines
-- that start among the first `marked` characters are taken to start with a mark.
structure Source where
  chars : List Char
  fault : Option Malformed
  marked : Nat

namespace Source

-- The characters of a block of bytes, in reverse and before `read`, with the bytes of a character
-- that the block cuts off and the reason that these would be wrong at the end of the text.
def block (encoding : Encoding) :
    Nat → Bytes → List Char → Except Malformed (List Char × Bytes × String)
  | 0, bytes, read => .ok (read, bytes, "")
  | _ + 1, [], read => .ok (read, [], "")
  | fuel + 1, bytes, read =>
    match encoding.front bytes with
    | .cut reason => .ok (read, bytes, reason)
    | .bad reason => .error ⟨0, reason⟩
    | .code value width =>
      if isAllowed value then
        block encoding fuel (bytes.drop width) (Char.ofNat value :: read)
      else .error ⟨0, "control characters are not allowed"⟩

-- A text is read in blocks, and nothing can be had from a block with a fault in it.
def blocks (encoding : Encoding) : Nat → Nat → Bytes → List Char → Source
  | 0, _, _, read => ⟨read.reverse, none, 0⟩
  | fuel + 1, size, bytes, read =>
    match block encoding (size + 1) (bytes.take size) read with
    | .error malformed => ⟨read.reverse, some malformed, 0⟩
    | .ok (read, left, reason) =>
      match bytes.drop size with
      | [] => ⟨read.reverse, if left.isEmpty then none else some ⟨0, reason⟩, 0⟩
      | beyond => blocks encoding fuel 512 (left ++ beyond) read

-- The number of characters in the first block, if the first one is a byte order mark.
def markedCount (encoding : Encoding) (size : Nat) (bytes : Bytes) : Nat :=
  match block encoding (size + 1) (bytes.take size) [] with
  | .ok (read, _, _) => if read.getLast?.map Char.toNat = some 0xFEFF then read.length else 0
  | .error _ => 0

-- The characters of a text, without a byte order mark at its front.
def ofBytes (text : Bytes) : Source :=
  let (encoding, mark) := Encoding.ofMark text
  let bytes := text.drop mark
  { blocks encoding (text.length + 1) (512 - mark) bytes [] with
    marked := markedCount encoding (512 - mark) bytes }

end Source

end LineBasic.Document
