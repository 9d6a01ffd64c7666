import LineBasic.Integer
import LineBasic.Settings

namespace LineBasic

-- What the flags of a command line ask for. A flag that is not given changes nothing.
structure Flags where
  config : Bytes
  logLevel : Option Bytes
  trace : Option Bool
  noColor : Option Bool
  maxSteps : Option Int
  deriving DecidableEq, Repr

namespace Flags

def none : Flags :=
  ⟨[], .none, .none, .none, .none⟩

def usage : Bytes :=
  Bytes.ofString ("Usage: sbasic [flags] [run|check|tokens|ast|labels] /path/to/source.bas\n" ++
    "\nFlags:\n" ++
    "  -config string\n" ++
    "    \tpath to a YAML config file (default sbasic.yml if present)\n" ++
    "  -log-level string\n" ++
    "    \tlog level: panic, fatal, error, warn, info, debug or trace\n" ++
    "  -max-steps int\n" ++
    "    \tabort after this many statements, 0 for no limit\n" ++
    "  -no-color\n" ++
    "    \tdisable coloured diagnostics\n" ++
    "  -trace\n" ++
    "    \tlog every executed statement\n")

inductive Refusal where
  | help
  | badForm (argument : Bytes)
  | unknown (name : Bytes)
  | missingValue (name : Bytes)
  | badValue (name value : Bytes) (reason : String)
  | badTruth (name value : Bytes)
  deriving DecidableEq, Repr

namespace Refusal

-- One line, or nothing if help was asked for.
def message : Refusal → Bytes
  | .help => []
  | .badForm argument => Bytes.ofString "bad flag syntax: " ++ argument ++ [10]
  | .unknown name => Bytes.ofString "flag provided but not defined: -" ++ name ++ [10]
  | .missingValue name => Bytes.ofString "flag needs an argument: -" ++ name ++ [10]
  | .badValue name value reason =>
    Bytes.ofString "invalid value " ++ Text.quoted value ++ Bytes.ofString " for flag -" ++ name ++
      Bytes.ofString ": " ++ Bytes.ofString reason ++ [10]
  | .badTruth name value =>
    Bytes.ofString "invalid boolean value " ++ Text.quoted value ++ Bytes.ofString " for -" ++
      name ++ Bytes.ofString ": parse error" ++ [10]

end Refusal

def truth? (text : Bytes) : Option Bool :=
  if ["1", "t", "T", "TRUE", "true", "True"].any (Bytes.ofString · == text) then some true
  else if ["0", "f", "F", "FALSE", "false", "False"].any (Bytes.ofString · == text) then some false
  else .none

-- A flag without a value of its own is true.
def readTruth (name : Bytes) : Option Bytes → Except Refusal Bool
  | .none => .ok true
  | some value =>
    match truth? value with
    | some b => .ok b
    | .none => .error (.badTruth name value)

def readInt (name value : Bytes) : Except Refusal Int :=
  match Integer.read value with
  | .ok n => .ok n
  | .error .malformed => .error (.badValue name value "parse error")
  | .error .outOfRange => .error (.badValue name value "value out of range")

-- The value of a flag: the text after its equals sign, else the next argument.
def takeValue (name : Bytes) (value : Option Bytes) (rest : List Bytes) :
    Except Refusal (Bytes × List Bytes) :=
  match value, rest with
  | some value, _ => .ok (value, rest)
  | .none, value :: rest => .ok (value, rest)
  | .none, [] => .error (.missingValue name)

-- The name of a flag and the text after the first equals sign that does not start it.
def splitName : Bytes → Bytes × Option Bytes
  | [] => ([], .none)
  | first :: rest =>
    let name := first :: rest.takeWhile (· != 61)
    match rest.dropWhile (· != 61) with
    | [] => (name, .none)
    | _ :: value => (name, some value)

def set (f : Flags) (name : Bytes) (value : Option Bytes) (rest : List Bytes) :
    Except Refusal (Flags × List Bytes) := do
  if name = Bytes.ofString "config" then
    let (value, rest) ← takeValue name value rest
    return ({ f with config := value }, rest)
  else if name = Bytes.ofString "log-level" then
    let (value, rest) ← takeValue name value rest
    return ({ f with logLevel := some value }, rest)
  else if name = Bytes.ofString "max-steps" then
    let (value, rest) ← takeValue name value rest
    return ({ f with maxSteps := some (← readInt name value) }, rest)
  else if name = Bytes.ofString "trace" then
    return ({ f with trace := some (← readTruth name value) }, rest)
  else if name = Bytes.ofString "no-color" then
    return ({ f with noColor := some (← readTruth name value) }, rest)
  else if name = Bytes.ofString "help" ∨ name = Bytes.ofString "h" then throw .help
  else throw (.unknown name)

-- What an argument is: a flag without its dashes, the end of the flags, or no flag.
inductive Form where
  | flag (text : Bytes)
  | terminator
  | positional

-- A flag starts with one or two dashes. A single dash is no flag.
def form : Bytes → Form
  | [45, 45] => .terminator
  | 45 :: 45 :: text => .flag text
  | 45 :: b :: text => .flag (b :: text)
  | _ => .positional

-- Takes flags from at most `fuel` arguments, up to the first that is none.
def parseUpTo : Nat → Flags → List Bytes → Except Refusal (Flags × List Bytes)
  | 0, f, arguments => .ok (f, arguments)
  | _ + 1, f, [] => .ok (f, [])
  | fuel + 1, f, argument :: rest =>
    match form argument with
    | .positional => .ok (f, argument :: rest)
    | .terminator => .ok (f, rest)
    | .flag text =>
      if text.isEmpty || text.head? == some 45 || text.head? == some 61 then
        .error (.badForm argument)
      else
        let (name, value) := splitName text
        match f.set name value rest with
        | .error refusal => .error refusal
        | .ok (f, rest) => parseUpTo fuel f rest

def parse (arguments : List Bytes) : Except Refusal (Flags × List Bytes) :=
  parseUpTo arguments.length none arguments

def apply (f : Flags) (s : Settings) : Settings :=
  { logLevel := f.logLevel.getD s.logLevel
    trace := f.trace.getD s.trace
    color := match f.noColor with
      | some off => some (!off)
      | .none => s.color
    maxSteps := f.maxSteps.getD s.maxSteps }

end Flags

end LineBasic
