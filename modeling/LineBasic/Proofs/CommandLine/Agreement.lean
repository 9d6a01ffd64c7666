import LineBasic.CommandLine
import LineBasic.Proofs.CommandLine.Lines
import LineBasic.Proofs.Program.Targets

namespace LineBasic.CommandLine

-- The work of a command on a source where nothing is configured.
def Job.plain (command path source : Bytes) : Job :=
  ⟨command, path, source, .info, false, 0⟩

theorem validate_default : Settings.default.validate = .ok .info := by
  have hinfo : LogLevel.ofName? (Bytes.ofString "info") = some .info := by decide +kernel
  have hsome : (Bytes.ofString "info").isEmpty = false := by decide
  simp [Settings.validate, Settings.level, Settings.default, hinfo, hsome]

theorem respond_prepared {files : FileTree} {arguments rest : List Bytes} {flags : Flags}
    {base : Settings} {level : LogLevel} {command path source : Bytes}
    (hflags : Flags.parse arguments = .ok (flags, rest))
    (hbase : Id.run (settings (fun path => pure (files.find path)) flags.config) = .ok base)
    (hlevel : (flags.apply base).validate = .ok level)
    (htarget : target? rest = some (command, path)) (hs : files.find path = .file source)
    (fuel : Nat) (stdin : Bytes) : respond files fuel stdin arguments =
      (Job.mk command path source level ((flags.apply base).color == some true)
        (flags.apply base).maxSteps).finish fuel stdin := by
  have hprepare : Id.run (prepare (fun path => pure (files.find path)) arguments) =
      .ok ⟨command, path, source, level, (flags.apply base).color == some true,
        (flags.apply base).maxSteps⟩ := by
    simp only [prepare, hflags, Id.run_bind, hbase, hlevel, htarget, hs, Id.run_pure]
    rfl
  rw [respond, hprepare]

-- Without flags and without a settings file a command works on its source with the default settings.
theorem respond_eq_finish {files : FileTree} {command path source : Bytes}
    (hc : Flags.form command = .positional) (hd : files.find defaultSettingsPath = .missing)
    (hs : files.find path = .file source) (fuel : Nat) (stdin : Bytes) :
    respond files fuel stdin [command, path] =
      (Job.plain command path source).finish fuel stdin := by
  have hflags : Flags.parse [command, path] = .ok (Flags.none, [command, path]) := by
    simp [Flags.parse, Flags.parseUpTo, hc]
  have hconfig : Flags.none.config.isEmpty = true := rfl
  have hbase : Id.run (settings (fun path => pure (files.find path)) Flags.none.config) =
      .ok .default := by
    simp only [settings, hconfig, if_true, hd, pure_bind, Id.run_pure]
  exact respond_prepared hflags hbase validate_default rfl hs fuel stdin

namespace Job

variable (path source : Bytes) (fuel : Nat) (stdin : Bytes)

-- The default log shows nothing but what goes wrong.
theorem conclude_plain (command stdout : Bytes) (messages : List Bytes) :
    (plain command path source).conclude stdout (plain command path source).logLoaded messages =
      ⟨if messages.isEmpty then 0 else 1, stdout, messages.flatMap (· ++ [10])⟩ :=
  rfl

theorem finish_run : (plain (Bytes.ofString "run") path source).finish fuel stdin =
    (plain (Bytes.ofString "run") path source).run fuel stdin :=
  rfl

theorem finish_check : (plain (Bytes.ofString "check") path source).finish fuel stdin =
    some ⟨if (Program.check source).isEmpty then 0 else 1, [],
      ((Program.check source).map Failure.message).flatMap (· ++ [10])⟩ := by
  rw [← List.isEmpty_map (f := Failure.message)]
  rfl

theorem finish_tokens : (plain (Bytes.ofString "tokens") path source).finish fuel stdin =
    let scan := Scan.ofSource source
    some ⟨if scan.failure.isNone then 0 else 1, scan.text,
      (scan.failure.toList.map Failure.message).flatMap (· ++ [10])⟩ := by
  have hempty : ((Scan.ofSource source).failure.toList.map Failure.message).isEmpty =
      (Scan.ofSource source).failure.isNone := by
    cases (Scan.ofSource source).failure <;> rfl
  dsimp only
  rw [← hempty]
  rfl

theorem finish_ast : (plain (Bytes.ofString "ast") path source).finish fuel stdin =
    some ((plain (Bytes.ofString "ast") path source).display Program.listing) :=
  rfl

theorem finish_labels : (plain (Bytes.ofString "labels") path source).finish fuel stdin =
    some ((plain (Bytes.ofString "labels") path source).display Program.labelListing) :=
  rfl

variable {path source fuel stdin}

theorem run_of_error {failure : Failure} (h : Program.parse source = .error failure)
    (command : Bytes) : (plain command path source).run fuel stdin =
      some ⟨1, [], failure.message ++ [10]⟩ := by
  have hparse : Program.parse (plain command path source).source = .error failure := h
  simp only [run, hparse, conclude_plain]
  simp

theorem display_of_error {failure : Failure} (h : Program.parse source = .error failure)
    (command : Bytes) (text : Program → Bytes) : (plain command path source).display text =
      ⟨1, [], failure.message ++ [10]⟩ := by
  have hparse : Program.parse (plain command path source).source = .error failure := h
  simp only [display, hparse, conclude_plain]
  simp

theorem display_of_ok {program : Program} (h : Program.parse source = .ok program)
    (command : Bytes) (text : Program → Bytes) : (plain command path source).display text =
      ⟨0, text program, []⟩ := by
  have hparse : Program.parse (plain command path source).source = .ok program := h
  simp only [display, hparse, conclude_plain]
  rfl

end Job

variable {files : FileTree} {path source : Bytes}

-- A source that cannot be parsed gets the same answer from the commands that need a program.
theorem respond_of_error (hd : files.find defaultSettingsPath = .missing)
    (hs : files.find path = .file source) {failure : Failure}
    (h : Program.parse source = .error failure) {command : String}
    (hc : command ∈ ["run", "check", "ast", "labels"]) (fuel : Nat) (stdin : Bytes) :
    respond files fuel stdin [Bytes.ofString command, path] =
      some ⟨1, [], failure.message ++ [10]⟩ := by
  simp only [List.mem_cons, List.not_mem_nil, or_false] at hc
  rcases hc with rfl | rfl | rfl | rfl
  · rw [respond_eq_finish rfl hd hs, Job.finish_run, Job.run_of_error h]
  · rw [respond_eq_finish rfl hd hs, Job.finish_check]
    simp [Program.check, h]
  · rw [respond_eq_finish rfl hd hs, Job.finish_ast, Job.display_of_error h]
  · rw [respond_eq_finish rfl hd hs, Job.finish_labels, Job.display_of_error h]

-- The check of a program writes one line for each jump to a label that is not declared.
theorem respond_check (hd : files.find defaultSettingsPath = .missing)
    (hs : files.find path = .file source) {program : Program}
    (h : Program.parse source = .ok program) (stdin : Bytes) :
    ∃ code stderr, (∀ fuel, respond files fuel stdin [Bytes.ofString "check", path] =
        some ⟨code, [], stderr⟩) ∧
      code = (if ∀ label ∈ program.targets, label.text ∈ program.names then 0 else 1) ∧
      Bytes.splitOn 10 stderr = ((program.targets.filter fun label =>
        label.text ∉ program.names).map fun label => (Failure.undeclared label).message) ++
          [[]] := by
  have hcheck : Program.check source =
      (program.targets.filter fun label => label.text ∉ program.names).map Failure.undeclared := by
    simp only [Program.check, h, Program.unresolved_eq h]
  have hlines : ∀ line ∈ (Program.check source).map Failure.message, (10 : UInt8) ∉ line := by
    intro line hline
    rw [hcheck, List.map_map] at hline
    obtain ⟨label, hlabel, rfl⟩ := List.mem_map.mp hline
    exact Failure.newline_not_mem_message
      (Program.newline_not_mem_target h (List.mem_filter.mp hlabel).1)
  refine ⟨if (Program.check source).isEmpty then 0 else 1,
    ((Program.check source).map Failure.message).flatMap (· ++ [10]), ?_, ?_, ?_⟩
  · intro fuel
    rw [respond_eq_finish rfl hd hs, Job.finish_check]
  · simp [hcheck]
  · rw [Bytes.splitOn_flatMap hlines, hcheck, List.map_map]
    rfl

-- With default settings the commands agree on every source. What cannot be parsed has the same
-- answer from all that need a program, and what breaks off cannot be parsed. What can be parsed is
-- shown without a word of complaint, and checked with one line for each jump to a missing label.
theorem commands_agree (hd : files.find defaultSettingsPath = .missing)
    (hs : files.find path = .file source) (stdin : Bytes) :
    let answer (command : String) (fuel : Nat) : Option Response :=
      respond files fuel stdin [Bytes.ofString command, path]
    (∀ failure, Program.parse source = .error failure →
      ∀ command ∈ ["run", "check", "ast", "labels"], ∀ fuel,
        answer command fuel = some ⟨1, [], failure.message ++ [10]⟩) ∧
    (∀ program, Program.parse source = .ok program →
      (∀ command ∈ ["ast", "labels"], ∃ text, ∀ fuel, answer command fuel = some ⟨0, text, []⟩) ∧
      ∃ code stderr, (∀ fuel, answer "check" fuel = some ⟨code, [], stderr⟩) ∧
        code = (if ∀ label ∈ program.targets, label.text ∈ program.names then 0 else 1) ∧
        Bytes.splitOn 10 stderr = ((program.targets.filter fun label =>
          label.text ∉ program.names).map fun label => (Failure.undeclared label).message) ++
            [[]]) ∧
    ∃ response, (∀ fuel, answer "tokens" fuel = some response) ∧
      (response.code = 1 → ∀ command ∈ ["run", "check", "ast", "labels"],
        ∃ stderr, ∀ fuel, answer command fuel = some ⟨1, [], stderr⟩) := by
  intro answer
  refine ⟨?_, ?_, ?_⟩
  · intro failure h command hc fuel
    exact respond_of_error hd hs h hc fuel stdin
  · intro program h
    constructor
    · intro command hc
      simp only [List.mem_cons, List.not_mem_nil, or_false] at hc
      rcases hc with rfl | rfl
      · refine ⟨program.listing, fun fuel => ?_⟩
        dsimp only [answer]
        rw [respond_eq_finish rfl hd hs, Job.finish_ast, Job.display_of_ok h]
      · refine ⟨program.labelListing, fun fuel => ?_⟩
        dsimp only [answer]
        rw [respond_eq_finish rfl hd hs, Job.finish_labels, Job.display_of_ok h]
    · exact respond_check hd hs h stdin
  · refine ⟨_, fun fuel => (respond_eq_finish rfl hd hs fuel stdin).trans
      (Job.finish_tokens path source fuel stdin), ?_⟩
    intro hcode command hc
    have hf : (Scan.ofSource source).failure ≠ none := by
      intro hnone
      simp [hnone] at hcode
    obtain ⟨failure, hparse⟩ := Program.parse_error_of_failure hf
    exact ⟨_, fun fuel => respond_of_error hd hs hparse hc fuel stdin⟩

-- A directory with a program that jumps to a missing label, and with a source that breaks off.
theorem commands_agree_sampleFiles :
    let files : FileTree := .ofPaths [(Bytes.ofString "jump.bas", Program.strayingSource),
      (Bytes.ofString "quote.bas", [34])]
    (∃ stderr, (∀ fuel, respond files fuel [] [Bytes.ofString "check", Bytes.ofString "jump.bas"] =
        some ⟨1, [], stderr⟩) ∧
      Bytes.splitOn 10 stderr =
        [Bytes.ofString "Syntax error on line 1: Label not declared: A", []]) ∧
    ∀ command ∈ ["run", "check", "ast", "labels"], ∃ stderr, ∀ fuel,
      respond files fuel [] [Bytes.ofString command, Bytes.ofString "quote.bas"] =
        some ⟨1, [], stderr⟩ := by
  intro files
  have hd : files.find defaultSettingsPath = .missing := by decide +kernel
  have hjump : files.find (Bytes.ofString "jump.bas") = .file Program.strayingSource := by
    decide +kernel
  have hquote : files.find (Bytes.ofString "quote.bas") = .file [34] := by decide +kernel
  constructor
  · obtain ⟨-, hok, -⟩ := commands_agree hd hjump []
    obtain ⟨-, code, stderr, hanswer, hcode, hlines⟩ := hok _ Program.parse_strayingSource
    have hone : code = 1 := hcode.trans (by decide)
    subst hone
    exact ⟨stderr, hanswer, hlines.trans (by decide +kernel)⟩
  · obtain ⟨-, -, response, hanswer, hagree⟩ := commands_agree hd hquote []
    refine hagree ?_
    have htokens := (respond_eq_finish rfl hd hquote 0 []).symm.trans (hanswer 0)
    rw [Job.finish_tokens] at htokens
    cases htokens
    rfl

end LineBasic.CommandLine
