import LineBasic.Document.Token
import LineBasic.Double.Read
import LineBasic.Integer
import LineBasic.Text.Base64

namespace LineBasic.Document

inductive Scalar where
  | null
  | boolean (b : Bool)
  | integer (n : Int)
  | float (x : Double)
  | timestamp
  | string (text : Bytes)
  deriving DecidableEq, Repr

namespace Scalar

def tag : Scalar → String
  | .null => "!!null"
  | .boolean _ => "!!bool"
  | .integer _ => "!!int"
  | .float _ => "!!float"
  | .timestamp => "!!timestamp"
  | .string _ => "!!str"

def words : List (String × Scalar) :=
  [("", .null), ("~", .null), ("null", .null), ("Null", .null), ("NULL", .null),
   ("true", .boolean true), ("True", .boolean true), ("TRUE", .boolean true),
   ("false", .boolean false), ("False", .boolean false), ("FALSE", .boolean false),
   (".nan", .float .nan), (".NaN", .float .nan), (".NAN", .float .nan),
   (".inf", .float (.infinity false)), (".Inf", .float (.infinity false)),
   (".INF", .float (.infinity false)), ("+.inf", .float (.infinity false)),
   ("+.Inf", .float (.infinity false)), ("+.INF", .float (.infinity false)),
   ("-.inf", .float (.infinity true)), ("-.Inf", .float (.infinity true)),
   ("-.INF", .float (.infinity true))]

def word? (text : Bytes) : Option Scalar :=
  (words.find? fun entry => Bytes.ofString entry.1 == text).map Prod.snd

-- Digits with an optional sign, point and exponent. At least one digit comes before the exponent.
def isDecimal (text : Bytes) : Bool :=
  let unsigned := (Digits.splitSign text).2
  let whole := unsigned.takeWhile Digits.isDigit
  let rest := unsigned.dropWhile Digits.isDigit
  let pointed := rest.head? == some 46
  let fraction := if pointed then (rest.drop 1).takeWhile Digits.isDigit else []
  let rest := if pointed then (rest.drop 1).dropWhile Digits.isDigit else rest
  let exponentFits := match rest with
    | [] => true
    | mark :: rest =>
      let digits := (Digits.splitSign rest).2
      (mark == 101 || mark == 69) && !digits.isEmpty && digits.all Digits.isDigit
  !(whole.isEmpty && fraction.isEmpty) && exponentFits

-- Up to two digits at the front of a text, and the text after them.
def shortNumber (text : Bytes) : Option (Nat × Bytes) :=
  let digits := (text.takeWhile Digits.isDigit).take 2
  if digits.isEmpty then none else some (Digits.value digits, text.drop digits.length)

def expect (byte : UInt8) : Bytes → Option Bytes
  | b :: rest => if b = byte then some rest else none
  | [] => none

def daysIn (year month : Nat) : Nat :=
  if month = 2 then
    if year % 4 = 0 ∧ (year % 100 ≠ 0 ∨ year % 400 = 0) then 29 else 28
  else if [4, 6, 9, 11].contains month then 30
  else 31

def date? (text : Bytes) : Option Bytes := do
  let year := text.takeWhile Digits.isDigit
  let (month, rest) ← shortNumber (← expect 45 (text.drop year.length))
  let (day, rest) ← shortNumber (← expect 45 rest)
  if year.length = 4 ∧ 1 ≤ month ∧ month ≤ 12 ∧ 1 ≤ day ∧ day ≤ daysIn (Digits.value year) month
  then some rest else none

def time? (text : Bytes) : Option Bytes := do
  let (hour, rest) ← shortNumber text
  let (minute, rest) ← shortNumber (← expect 58 rest)
  let (second, rest) ← shortNumber (← expect 58 rest)
  let fraction := match rest with
    | b :: more => if b = 46 || b = 44 then more.takeWhile Digits.isDigit else []
    | [] => []
  if hour < 24 ∧ minute < 60 ∧ second < 60 then
    some (if fraction.isEmpty then rest else rest.drop (fraction.length + 1))
  else none

-- The distance from universal time: a Z, or a sign with hours and minutes of two digits.
def zoneFills : Bytes → Bool
  | [90] => true
  | [sign, a, b, 58, c, d] =>
    (sign == 43 || sign == 45) && [a, b, c, d].all Digits.isDigit &&
      decide (Digits.value [a, b] ≤ 24) && decide (Digits.value [c, d] ≤ 60)
  | _ => false

-- A date, alone or with a time. A letter joins the time of some zone, spaces the time of none.
def isTimestamp (text : Bytes) : Bool :=
  match date? text with
  | none => false
  | some [] => true
  | some (mark :: rest) =>
    if mark = 84 || mark = 116 then ((time? rest).map zoneFills).getD false
    else mark = 32 && ((time? (rest.dropWhile (· == 32))).map List.isEmpty).getD false

-- A number in the notations of integers, else in that of decimals.
def number? (text : Bytes) : Option Scalar :=
  let plain := text.filter (· != 95)
  let based (base : Nat) (digits : Bytes) :=
    (Integer.readIn base digits).toOption.map Scalar.integer
  let decimal := if isDecimal plain then (Double.readFinite? plain).map Scalar.float else none
  let marked := match plain with
    | 48 :: 98 :: rest => based 2 rest
    | 45 :: 48 :: 98 :: rest => based 2 (45 :: rest)
    | 48 :: 111 :: rest => based 8 rest
    | 45 :: 48 :: 111 :: rest => based 8 (45 :: rest)
    | _ => none
  ((Integer.read plain).toOption.map Scalar.integer).orElse fun _ =>
    ((Integer.readNat plain).toOption.map fun (n : Nat) => Scalar.integer n).orElse fun _ =>
      decimal.orElse fun _ => marked

-- What a text without quotes stands for. Its first character tells which notations are tried.
-- Dates are tried unless something else is asked for.
def ofText (dates : Bool) (text : Bytes) : Scalar :=
  match word? text with
  | some scalar => scalar
  | none =>
    match text with
    | [] => .null
    | first :: _ =>
      if first = 46 then ((Double.readFinite? text).map Scalar.float).getD (.string text)
      else if Digits.isDigit first || first = 43 || first = 45 then
        if dates && isTimestamp text then .timestamp
        else (number? text).getD (.string text)
      else .string text

def shortTag (tag : Bytes) : Bytes :=
  let front := Bytes.ofString "tag:yaml.org,2002:"
  if front.isPrefixOf tag then [33, 33] ++ tag.drop front.length else tag

def plainTag (text : Bytes) : Bytes :=
  if text = Bytes.ofString "<<" then Bytes.ofString "!!merge"
  else Bytes.ofString (ofText true text).tag

def formTags : List String :=
  ["!!bool", "!!int", "!!float", "!!null", "!!timestamp"]

-- What a text with a tag stands for. A tag that names a form must agree with the text, except
-- that a small integer is a float too. With any other tag the text stands for itself, or for bytes
-- in base sixty-four.
def ofTagged (line : Nat) (tag text : Bytes) : Except Malformed Scalar :=
  if formTags.any fun name => Bytes.ofString name == tag then
    let scalar := ofText (tag == Bytes.ofString "!!timestamp") text
    let misread := ⟨line - 1, "cannot decode a value as its tag says"⟩
    if Bytes.ofString scalar.tag = tag then .ok scalar
    else match scalar with
      | .integer n =>
        if tag = Bytes.ofString "!!float" ∧ n < Integer.half then .ok (.float (Double.ofInt n))
        else .error misread
      | _ => .error misread
  else if tag = Bytes.ofString "!!binary" then
    match Text.Base64.decode? text with
    | some bytes => .ok (.string bytes)
    | none => .error ⟨line - 1, "!!binary value contains invalid base64 data"⟩
  else .ok (.string text)

end Scalar

end LineBasic.Document
