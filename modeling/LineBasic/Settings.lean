import LineBasic.Text.Quoted
import LineBasic.Text.SmallLetter

namespace LineBasic

-- How much a log tells, from the least.
inductive LogLevel where
  | panic
  | fatal
  | error
  | warning
  | info
  | debug
  | trace
  deriving DecidableEq, Repr

namespace LogLevel

def all : List LogLevel :=
  [.panic, .fatal, .error, .warning, .info, .debug, .trace]

def name : LogLevel → String
  | .panic => "panic"
  | .fatal => "fatal"
  | .error => "error"
  | .warning => "warning"
  | .info => "info"
  | .debug => "debug"
  | .trace => "trace"

def rank : LogLevel → Nat
  | .panic => 0
  | .fatal => 1
  | .error => 2
  | .warning => 3
  | .info => 4
  | .debug => 5
  | .trace => 6

def shows (level entry : LogLevel) : Bool :=
  decide (entry.rank ≤ level.rank)

-- The level of a name in letters of any case. A warning has a short name too.
def ofName? (name : Bytes) : Option LogLevel :=
  let small := Text.inSmallLetters name
  if small = Bytes.ofString "warn" then some .warning
  else all.find? fun level => Bytes.ofString level.name == small

end LogLevel

-- The settings of the command line. No colour setting means that the terminal decides.
structure Settings where
  logLevel : Bytes
  trace : Bool
  color : Option Bool
  maxSteps : Int
  deriving DecidableEq, Repr

namespace Settings

def default : Settings :=
  ⟨Bytes.ofString "info", false, none, 0⟩

-- The level in force: tracing goes over any level, and no level is the ordinary one.
def level (s : Settings) : Except Bytes LogLevel :=
  if s.trace then .ok .trace
  else if s.logLevel.isEmpty then .ok .info
  else match LogLevel.ofName? s.logLevel with
    | some level => .ok level
    | none => .error (Bytes.ofString "not a valid logrus Level: " ++ Text.quoted s.logLevel)

-- The level in force if all settings can be used, else what is wrong with them.
def validate (s : Settings) : Except Bytes LogLevel :=
  match s.level with
  | .error message => .error message
  | .ok level =>
    if s.maxSteps < 0 then
      .error (Bytes.ofString "max_steps must not be negative, got " ++ Bytes.ofInt s.maxSteps)
    else .ok level

end Settings

end LineBasic
