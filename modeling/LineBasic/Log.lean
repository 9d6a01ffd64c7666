import LineBasic.Settings

namespace LineBasic.Log

def isBare (b : UInt8) : Bool :=
  decide (48 ≤ b ∧ b ≤ 57) || decide (65 ≤ b ∧ b ≤ 90) || decide (97 ≤ b ∧ b ≤ 122) ||
    [45, 46, 95, 47, 64, 94, 43].contains b

def value (text : Bytes) : Bytes :=
  if text.all isBare then text else Text.quoted text

def field (name : String) (text : Bytes) : Bytes :=
  Bytes.ofString name ++ [61] ++ value text

-- One entry: its level, its message and its fields, which come in the order of their names. A log
-- that does not show the level has nothing.
def entry (level entryLevel : LogLevel) (message : String) (fields : List (String × Bytes)) :
    Bytes :=
  if level.shows entryLevel then
    let parts := field "level" (Bytes.ofString entryLevel.name) ::
      field "msg" (Bytes.ofString message) :: fields.map fun (name, text) => field name text
    Bytes.join [32] parts ++ [10]
  else []

end LineBasic.Log
