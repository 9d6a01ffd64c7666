import LineBasic.Proofs.CommandLine.Agreement
import LineBasic.Proofs.Machine.Logger

namespace LineBasic

-- What a command leaves behind besides its diagnostics.
def Response.result (r : Response) : Bytes × Nat :=
  (r.stdout, r.code)

namespace CommandLine

-- The output and the exit code of a command on a source, or nothing where its run takes more fuel.
def result (command source : Bytes) (maxSteps : Int) (fuel : Nat) (stdin : Bytes) :
    Option (Bytes × Nat) :=
  let display (text : Program → Bytes) : Bytes × Nat :=
    match Program.parse source with
    | .error _ => ([], 1)
    | .ok program => (text program, 0)
  if command = Bytes.ofString "run" then
    match Machine.runSource source (fun _ => none) maxSteps fuel ⟨stdin, none⟩ with
    | (_, .unfinished) => none
    | (s, .finished) => some (s.written, 0)
    | (s, .stopped _) => some (s.written, 1)
  else if command = Bytes.ofString "check" then
    some ([], if Program.check source = [] then 0 else 1)
  else if command = Bytes.ofString "tokens" then
    some ((Scan.ofSource source).text, if (Scan.ofSource source).failure = none then 0 else 1)
  else if command = Bytes.ofString "ast" then some (display Program.listing)
  else if command = Bytes.ofString "labels" then some (display Program.labelListing)
  else some ([], 2)

namespace Job

def logger (j : Job) : Machine.Logger (List Bytes) where
  parsed log program := j.logParsed program :: log
  step log instr s := j.logStep instr s :: log
  finished log ok s := j.logFinished ok s :: log

def report (j : Job) : List Bytes × State × Machine.Outcome → Option Response
  | (_, _, .unfinished) => none
  | (log, s, .finished) => some (j.conclude s.written log.reverse.flatten [])
  | (log, s, .stopped fault) =>
    some (j.conclude s.written log.reverse.flatten [faultMessage fault])

variable (j : Job) (fuel : Nat) (stdin : Bytes)

theorem run_eq_report :
    j.run fuel stdin = j.report (j.logger.runSource [j.logLoaded] j.source (fun _ => none)
      j.maxSteps fuel ⟨stdin, none⟩) := by
  unfold run Machine.Logger.runSource
  cases Program.parse j.source with
  | error failure => simp [report, conclude, faultMessage, State.written, State.initial]
  | ok program =>
    simp only [logger, machine,
      Machine.runWith_log _ j.logStep fuel [j.logParsed program, j.logLoaded]]
    cases (Machine.mk program (fun _ => none) j.maxSteps).runWith
      (fun log instr v => j.logStep instr v :: log) fuel [] (.initial ⟨stdin, none⟩) with
    | mk log result =>
      obtain ⟨s, outcome⟩ := result
      cases outcome <;> simp [report, Machine.Logger.close]

theorem result_run : (j.run fuel stdin).map Response.result =
    result (Bytes.ofString "run") j.source j.maxSteps fuel stdin := by
  have hrun := j.logger.runSource_snd [j.logLoaded] j.source (fun _ => none) j.maxSteps fuel
    ⟨stdin, none⟩
  rw [run_eq_report, result, if_pos rfl, ← hrun]
  cases j.logger.runSource [j.logLoaded] j.source (fun _ => none) j.maxSteps fuel
    ⟨stdin, none⟩ with
  | mk log ending =>
    obtain ⟨s, outcome⟩ := ending
    cases outcome <;> rfl

theorem result_display (text : Program → Bytes) : (j.display text).result =
    match Program.parse j.source with
    | .error _ => ([], 1)
    | .ok program => (text program, 0) := by
  unfold display
  cases Program.parse j.source <;> rfl

theorem result_finish : (j.finish fuel stdin).map Response.result =
    result j.command j.source j.maxSteps fuel stdin := by
  unfold finish result
  by_cases hrun : j.command = Bytes.ofString "run"
  · have h := j.result_run fuel stdin
    rw [result, if_pos rfl] at h
    rw [if_pos hrun, if_pos hrun, h]
  rw [if_neg hrun, if_neg hrun]
  by_cases hcheck : j.command = Bytes.ofString "check"
  · rw [if_pos hcheck, if_pos hcheck]
    simp [Response.result, conclude]
  rw [if_neg hcheck, if_neg hcheck]
  by_cases htokens : j.command = Bytes.ofString "tokens"
  · rw [if_pos htokens, if_pos htokens]
    simp [Response.result, conclude]
  rw [if_neg htokens, if_neg htokens]
  by_cases hast : j.command = Bytes.ofString "ast"
  · rw [if_pos hast, if_pos hast]
    exact congrArg some (j.result_display Program.listing)
  rw [if_neg hast, if_neg hast]
  by_cases hlabels : j.command = Bytes.ofString "labels"
  · rw [if_pos hlabels, if_pos hlabels]
    exact congrArg some (j.result_display Program.labelListing)
  · rw [if_neg hlabels, if_neg hlabels]
    rfl

end Job

-- A command line in a directory asks for a command on a source. Its flags and the settings of its
-- file can be used, and together they give the limit.
def Asks (files : FileTree) (arguments : List Bytes) (command source : Bytes) (maxSteps : Int) :
    Prop :=
  ∃ flags rest base level path,
    Flags.parse arguments = .ok (flags, rest) ∧
    Id.run (settings (fun path => pure (files.find path)) flags.config) = .ok base ∧
    (flags.apply base).validate = .ok level ∧
    (flags.apply base).maxSteps = maxSteps ∧
    target? rest = some (command, path) ∧
    files.find path = .file source

theorem Asks.result_respond {files : FileTree} {arguments : List Bytes} {command source : Bytes}
    {maxSteps : Int} (h : Asks files arguments command source maxSteps) (fuel : Nat)
    (stdin : Bytes) : (respond files fuel stdin arguments).map Response.result =
      result command source maxSteps fuel stdin := by
  obtain ⟨flags, rest, base, level, path, hflags, hsettings, hvalid, rfl, htarget, hfile⟩ := h
  rw [respond_prepared hflags hsettings hvalid htarget hfile]
  exact Job.result_finish _ fuel stdin

-- Diagnostics have no influence on what a program does. Two command lines that ask for the same
-- command on the same source with the same limit have the same output and exit code, whatever else
-- they are given, and two loggers see the same source run to the same state and the same end.
theorem result_of_diagnostics :
    (∀ files files' arguments arguments' command source maxSteps,
      Asks files arguments command source maxSteps →
      Asks files' arguments' command source maxSteps → ∀ fuel stdin,
        (respond files fuel stdin arguments).map Response.result =
          (respond files' fuel stdin arguments').map Response.result) ∧
    ∀ {σ τ : Type} (l : Machine.Logger σ) (l' : Machine.Logger τ) (log : σ) (log' : τ)
      (source : Bytes) (printer : Nat → Option Bytes) (limit : Int) (fuel : Nat) (input : Input),
        (l.runSource log source printer limit fuel input).2 =
          (l'.runSource log' source printer limit fuel input).2 := by
  constructor
  · intro files files' arguments arguments' command source maxSteps h h' fuel stdin
    rw [h.result_respond fuel stdin, h'.result_respond fuel stdin]
  · intro σ τ l l' log log' source printer limit fuel input
    rw [l.runSource_snd, l'.runSource_snd]

-- A file that turns tracing on, and flags that turn colours and most of the log off.
theorem result_of_diagnostics_sampleFiles :
    let program := (Bytes.ofString "count.bas", Program.countingSource)
    let traced : FileTree :=
      .ofPaths [(defaultSettingsPath, Bytes.ofString "trace: true\nmax_steps: 5\n"), program]
    let quiet : FileTree := .ofPaths [program]
    ∀ fuel stdin, (respond traced fuel stdin [program.1]).map Response.result =
      (respond quiet fuel stdin (["-no-color", "-log-level", "error", "-max-steps=5", "run"].map
        Bytes.ofString ++ [program.1])).map Response.result := by
  intro program traced quiet
  refine result_of_diagnostics.1 _ _ _ _ (Bytes.ofString "run") program.2 5 ?_ ?_
  · refine ⟨Flags.none, [program.1], ⟨Bytes.ofString "info", true, none, 5⟩, .trace, program.1,
      eq_ok_of_toOption (by decide +kernel), ?_, eq_ok_of_toOption (by decide +kernel), rfl, rfl,
      by decide +kernel⟩
    exact eq_ok_of_toOption (by decide +kernel)
  · refine ⟨⟨[], some (Bytes.ofString "error"), none, some true, some 5⟩,
      [Bytes.ofString "run", program.1], .default, .error, program.1,
      eq_ok_of_toOption (by decide +kernel), ?_, eq_ok_of_toOption (by decide +kernel), rfl, rfl,
      by decide +kernel⟩
    exact eq_ok_of_toOption (by decide +kernel)

end CommandLine

end LineBasic
