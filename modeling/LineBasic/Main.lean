import LineBasic.CommandLine

namespace LineBasic

def entryAt (path : Bytes) : IO Entry := do
  match String.fromUTF8? ⟨path.toArray⟩ with
  | none => return .missing
  | some name =>
    if path.contains 0 then return .invalidName
    try
      let content ← IO.FS.readBinFile name
      return .file content.toList
    catch
      | .inappropriateType none _ _ => return .directory
      | .inappropriateType (some _) _ _ => return .notDirectory
      | .permissionDenied _ _ _ => return .denied
      | .invalidArgument (some _) _ _ => return .nameTooLong
      | _ => return .missing

def writeTo (stream : IO.FS.Stream) (text : Bytes) : IO Unit := do
  unless text.isEmpty do
    stream.write ⟨text.toArray⟩
    stream.flush

-- The next line of a stream with its newline, behind the bytes already taken, which are reversed.
partial def nextLine (stream : IO.FS.Stream) (taken : Bytes) : IO Bytes := do
  let chunk ← stream.read 1
  match chunk.toList with
  | [] => return taken.reverse
  | b :: _ => if b = 10 then return (b :: taken).reverse else nextLine stream (b :: taken)

-- The prompt of an INPUT is shown before its line is read, all other output after its step.
partial def drive (job : CommandLine.Job) (machine : Machine) (state : State) :
    IO (State × Machine.Outcome) := do
  let stdout ← IO.getStdout
  let state := { state with output := [] }
  let running := if machine.atLimit state then none else machine.program.code[state.pc]?
  if let some instr := running then
    writeTo (← IO.getStderr) (job.logStep instr state)
  let (state, outcome) ← match running with
    | some (.simple (.input _ prompt _)) => do
      writeTo stdout (prompt.getD [])
      let line ← nextLine (← IO.getStdin) []
      pure (machine.run 1 { state with input := ⟨line, none⟩ })
    | _ => do
      let (state, outcome) := machine.run 1 state
      writeTo stdout state.written
      pure (state, outcome)
  if outcome = .unfinished then drive job machine state else return (state, outcome)

def deliver (response : Response) : IO UInt32 := do
  writeTo (← IO.getStdout) response.stdout
  writeTo (← IO.getStderr) response.stderr
  return response.code.toUInt32

-- Runs a program while its input is being typed.
def runLive (job : CommandLine.Job) (program : Program) : IO UInt32 := do
  writeTo (← IO.getStderr) (job.logLoaded ++ job.logParsed program)
  let (state, outcome) ← drive job (job.machine program) (.initial ⟨[], none⟩)
  match outcome with
  | .stopped fault =>
    deliver (job.conclude [] (job.logFinished false state) [CommandLine.Job.faultMessage fault])
  | _ => deliver (job.conclude [] (job.logFinished true state) [])

end LineBasic

open LineBasic in
def main (arguments : List String) : IO UInt32 := do
  match ← CommandLine.prepare entryAt (arguments.map Bytes.ofString) with
  | .error response => deliver response
  | .ok job =>
    match decide (job.command = Bytes.ofString "run"), Program.parse job.source with
    | true, .ok program => runLive job program
    | _, _ =>
      match job.finish 0 [] with
      | some response => deliver response
      | none => return 1
