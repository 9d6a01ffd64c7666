import LineBasic.FileTree
import LineBasic.Flags
import LineBasic.Log
import LineBasic.Machine
import LineBasic.Program.Listing
import LineBasic.Settings.Load

namespace LineBasic

-- What a command leaves behind: its exit code and what it wrote.
structure Response where
  code : Nat
  stdout : Bytes
  stderr : Bytes
  deriving DecidableEq, Repr

namespace CommandLine

def paint (colored : Bool) (color : String) (text : Bytes) : Bytes :=
  if colored then Bytes.ofString "\x1b[" ++ Bytes.ofString color ++ [109] ++ text ++
    Bytes.ofString "\x1b[0m" ++ [10]
  else text ++ [10]

def red (colored : Bool) (text : Bytes) : Bytes :=
  paint colored "31" text

def yellow (colored : Bool) (text : Bytes) : Bytes :=
  paint colored "33" text

def refuse (colored : Bool) (message : Bytes) : Response :=
  ⟨1, [], red colored message⟩

def defaultSettingsPath : Bytes :=
  Bytes.ofString "sbasic.yml"

def settingsAt (path : Bytes) (entry : Entry) : Except Bytes Settings :=
  match entry with
  | .directory =>
    .error (Bytes.ofString "config " ++ path ++ Bytes.ofString ": yaml: input error: read " ++
      path ++ Bytes.ofString ": is a directory")
  | entry =>
    match entry.read path with
    | .error message => .error message
    | .ok content =>
      match Settings.load content with
      | .error e => .error (e.message path)
      | .ok settings => .ok settings

-- The settings before the flags: those of the named file, else those of the default file if there
-- is one.
def settings {m : Type → Type} [Monad m] (find : Bytes → m Entry) (named : Bytes) :
    m (Except Bytes Settings) := do
  if named.isEmpty then
    match ← find defaultSettingsPath with
    | .missing => return .ok .default
    | entry => return settingsAt defaultSettingsPath entry
  else return settingsAt named (← find named)

structure Job where
  command : Bytes
  path : Bytes
  source : Bytes
  level : LogLevel
  colored : Bool
  maxSteps : Int

def target? : List Bytes → Option (Bytes × Bytes)
  | [path] => some (Bytes.ofString "run", path)
  | [command, path] => some (command, path)
  | _ => none

-- Everything up to the command itself. Files are found through `find`. Diagnostics are taken not to
-- go to a terminal, so that without a colour setting they have no colours.
def prepare {m : Type → Type} [Monad m] (find : Bytes → m Entry) (arguments : List Bytes) :
    m (Except Response Job) := do
  match Flags.parse arguments with
  | .error refusal =>
    return .error ⟨if refusal = .help then 0 else 2, [], refusal.message ++ Flags.usage⟩
  | .ok (flags, rest) =>
    match ← settings find flags.config with
    | .error message => return .error (refuse false message)
    | .ok base =>
      let settings := flags.apply base
      let colored := settings.color == some true
      match settings.validate with
      | .error message => return .error (refuse colored message)
      | .ok level =>
        match target? rest with
        | none => return .error ⟨2, [], Flags.usage⟩
        | some (command, path) =>
          match (← find path).read path with
          | .error message => return .error (refuse colored message)
          | .ok source => return .ok ⟨command, path, source, level, colored, settings.maxSteps⟩

namespace Job

def logLoaded (j : Job) : Bytes :=
  Log.entry j.level .debug "loaded source" [("file", j.path)]

def logParsed (j : Job) (p : Program) : Bytes :=
  Log.entry j.level .debug "parsed"
    [("labels", Bytes.ofNat p.labels.size), ("statements", Bytes.ofNat p.size)]

def logStep (j : Job) (instr : Instr) (s : State) : Bytes :=
  Log.entry j.level .trace "exec"
    [("line", Bytes.ofNat instr.word.line), ("pc", Bytes.ofNat s.pc), ("stmt", instr.describe)]

def logFinished (j : Job) (ok : Bool) (s : State) : Bytes :=
  Log.entry j.level .debug "finished"
    [("ok", Bytes.ofString (if ok then "true" else "false")), ("steps", Bytes.ofNat s.steps)]

-- One line for every failure, and the exit code that says whether there was any.
def conclude (j : Job) (stdout log : Bytes) (messages : List Bytes) : Response :=
  ⟨if messages.isEmpty then 0 else 1, stdout, log ++ messages.flatMap (red j.colored)⟩

def faultMessage : Fault → Bytes
  | .failure f => f.message
  | .outside message => message
  | .stuck => []

def machine (j : Job) (p : Program) : Machine :=
  ⟨p, fun _ => none, j.maxSteps⟩

-- Runs the source for at most `fuel` steps. The log of the steps is kept in pieces, the latest
-- first.
def run (j : Job) (fuel : Nat) (stdin : Bytes) : Option Response :=
  match Program.parse j.source with
  | .error f => some (j.conclude [] j.logLoaded [f.message])
  | .ok p =>
    let observe := fun (log : List Bytes) instr s => j.logStep instr s :: log
    let (log, s, outcome) := (j.machine p).runWith observe fuel [] (.initial ⟨stdin, none⟩)
    let before := j.logLoaded ++ j.logParsed p ++ log.reverse.flatten
    match outcome with
    | .unfinished => none
    | .finished => some (j.conclude s.written (before ++ j.logFinished true s) [])
    | .stopped fault =>
      some (j.conclude s.written (before ++ j.logFinished false s) [faultMessage fault])

def display (j : Job) (text : Program → Bytes) : Response :=
  match Program.parse j.source with
  | .error f => j.conclude [] j.logLoaded [f.message]
  | .ok p => j.conclude (text p) j.logLoaded []

-- Carries out the command. Only a run may need more fuel than there is.
def finish (j : Job) (fuel : Nat) (stdin : Bytes) : Option Response :=
  if j.command = Bytes.ofString "run" then j.run fuel stdin
  else if j.command = Bytes.ofString "check" then
    some (j.conclude [] j.logLoaded ((Program.check j.source).map Failure.message))
  else if j.command = Bytes.ofString "tokens" then
    let scan := Scan.ofSource j.source
    some (j.conclude scan.text j.logLoaded (scan.failure.toList.map Failure.message))
  else if j.command = Bytes.ofString "ast" then some (j.display Program.listing)
  else if j.command = Bytes.ofString "labels" then some (j.display Program.labelListing)
  else
    let message := yellow j.colored (Bytes.ofString "unknown command " ++ j.command)
    some ⟨2, [], j.logLoaded ++ message ++ Flags.usage⟩

end Job

def respond (files : FileTree) (fuel : Nat) (stdin : Bytes) (arguments : List Bytes) :
    Option Response :=
  match Id.run (prepare (fun path => pure (files.find path)) arguments) with
  | .error response => some response
  | .ok job => job.finish fuel stdin

end CommandLine

end LineBasic
