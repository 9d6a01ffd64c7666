import LineBasic.Text

namespace LineBasic

-- What a program can still read: the bytes to come, and the message of the failure that comes
-- after them if the stream does not simply end.
structure Input where
  data : Bytes
  fault : Option Bytes
  deriving DecidableEq, Repr

namespace Input

inductive Reading where
  | line (text : Bytes)
  | ended
  | failed (message : Bytes)
  deriving DecidableEq, Repr

def chomp (line : Bytes) : Bytes :=
  (line.reverse.dropWhile (· == 13)).reverse

-- The bytes up to the next newline. After the last newline they count as a line if there are any
-- and the stream ends; if it fails instead, they are lost.
def readLine (i : Input) : Reading × Input :=
  let line := i.data.takeWhile (· != 10)
  match i.data.dropWhile (· != 10) with
  | _ :: rest => (.line (chomp line), { i with data := rest })
  | [] =>
    match i.fault with
    | some message => (.failed message, { i with data := [] })
    | none => (if line.isEmpty then .ended else .line (chomp line), { i with data := [] })

-- Reads at most `fuel` lines, up to the reading that gives none.
def readUpTo : Nat → Input → List Bytes × Reading
  | 0, _ => ([], .ended)
  | fuel + 1, i =>
    match i.readLine with
    | (.line text, rest) =>
      let (lines, stop) := readUpTo fuel rest
      (text :: lines, stop)
    | (stop, _) => ([], stop)

-- All lines and what stopped the reading. Every line takes a byte, so the fuel covers the data.
def readAll (i : Input) : List Bytes × Reading :=
  readUpTo (i.data.length + 1) i

end Input

end LineBasic
