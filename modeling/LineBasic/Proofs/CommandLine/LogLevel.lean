import LineBasic.Proofs.CommandLine.Agreement

namespace LineBasic

namespace LogLevel

def names : List String :=
  ["panic", "fatal", "error", "warn", "warning", "info", "debug", "trace"]

def IsName (text : Bytes) : Prop :=
  ∃ name ∈ names, Text.inSmallLetters text = Bytes.ofString name

-- A text that is to be a level and is none. No text at all asks for the ordinary level.
def IsBad (text : Bytes) : Prop :=
  text ≠ [] ∧ ¬IsName text

theorem isName_of_ofName? {text : Bytes} {level : LogLevel} (h : ofName? text = some level) :
    IsName text := by
  unfold ofName? at h
  dsimp only at h
  split at h
  · rename_i hwarn
    exact ⟨"warn", by decide, hwarn⟩
  · have htest := List.find?_some h
    refine ⟨level.name, ?_, (beq_iff_eq.mp htest).symm⟩
    cases level <;> decide

theorem exists_ofName? {text : Bytes} (h : IsName text) : ∃ level, ofName? text = some level := by
  obtain ⟨name, hname, hsmall⟩ := h
  have hall : ∀ name ∈ names, (if Bytes.ofString name = Bytes.ofString "warn" then some warning
      else all.find? fun level => Bytes.ofString level.name == Bytes.ofString name).isSome := by
    decide
  rw [ofName?, hsmall]
  exact Option.isSome_iff_exists.mp (hall name hname)

theorem isBad_loud : IsBad (Bytes.ofString "loud") := by
  unfold IsBad IsName
  decide +kernel

end LogLevel

namespace Settings

-- Only tracing lets settings with a bad level pass.
theorem validate_of_isBad {s : Settings} (h : LogLevel.IsBad s.logLevel) (ht : s.trace = false) :
    ∃ message, s.validate = .error message := by
  have hnone : LogLevel.ofName? s.logLevel = none := by
    cases hname : LogLevel.ofName? s.logLevel with
    | none => rfl
    | some level => exact (h.2 (LogLevel.isName_of_ofName? hname)).elim
  have hsome : s.logLevel.isEmpty = false := by simpa using h.1
  refine ⟨Bytes.ofString "not a valid logrus Level: " ++ Text.quoted s.logLevel, ?_⟩
  simp [validate, level, ht, hsome, hnone]

theorem validate_of_trace {s : Settings} (ht : s.trace = true) (hm : 0 ≤ s.maxSteps) :
    s.validate = .ok .trace := by
  simp [validate, level, ht, hm]

theorem validate_of_not_isBad {s : Settings} (h : ¬LogLevel.IsBad s.logLevel)
    (hm : 0 ≤ s.maxSteps) : ∃ level, s.validate = .ok level := by
  cases ht : s.trace with
  | true => exact ⟨.trace, validate_of_trace ht hm⟩
  | false =>
    by_cases hempty : s.logLevel = []
    · exact ⟨.info, by simp [validate, level, ht, hempty, hm]⟩
    · have hname : LogLevel.IsName s.logLevel := Classical.not_not.mp fun hno => h ⟨hempty, hno⟩
      obtain ⟨found, hfound⟩ := LogLevel.exists_ofName? hname
      exact ⟨found, by simp [validate, level, ht, hempty, hfound, hm]⟩

-- What a file gives on top of the default settings, and its complaints.
def read (content : Bytes) : Except Document.Malformed Progress := do
  match ← Document.Tree.read? content with
  | some tree => ofTree tree (content.length + 2)
  | none => return ⟨default, []⟩

-- The settings of a file that is read without complaints, before they are checked.
def given? (content : Bytes) : Option Settings :=
  match read content with
  | .ok ⟨settings, []⟩ => some settings
  | _ => none

theorem load_eq (content : Bytes) : load content =
    match read content with
    | .error m => .error (.malformed m)
    | .ok ⟨settings, []⟩ =>
      match settings.validate with
      | .ok _ => .ok settings
      | .error message => .error (.invalid message)
    | .ok ⟨_, complaints⟩ => .error (.misfits complaints) := by
  unfold load read
  rfl

-- A file that is read without complaints is loaded if its settings pass the check.
theorem load_eq_ok_iff {content : Bytes} {s : Settings} :
    load content = .ok s ↔ given? content = some s ∧ ∃ level, s.validate = .ok level := by
  rw [load_eq]
  unfold given?
  cases read content with
  | error m => simp
  | ok progress =>
    obtain ⟨settings, complaints⟩ := progress
    cases complaints with
    | cons complaint complaints => simp
    | nil =>
      dsimp only
      constructor
      · intro h
        cases hvalid : settings.validate with
        | ok level =>
          rw [hvalid] at h
          cases h
          exact ⟨rfl, level, hvalid⟩
        | error message =>
          rw [hvalid] at h
          cases h
      · rintro ⟨hsettings, level, hvalid⟩
        cases hsettings
        rw [hvalid]

end Settings

namespace CommandLine

-- The settings that flags are put on top of, before any check: those of the named file, else those
-- of the default file if there is one, else the default ones.
inductive Base (files : FileTree) (named : Bytes) : Settings → Prop where
  | absent (hn : named = []) (hd : files.find defaultSettingsPath = .missing) :
      Base files named .default
  | file {content : Bytes} {s : Settings}
      (hf : files.find (if named = [] then defaultSettingsPath else named) = .file content)
      (hs : Settings.given? content = some s) : Base files named s

theorem settingsAt_eq_ok_iff {path : Bytes} {entry : Entry} {base : Settings} :
    settingsAt path entry = .ok base ↔
      ∃ content, entry = .file content ∧ Settings.load content = .ok base := by
  cases entry with
  | file content =>
    simp only [settingsAt, Entry.read, Entry.file.injEq, exists_eq_left']
    cases Settings.load content <;> simp
  | _ => simp [settingsAt, Entry.read]

theorem settings_eq_ok_iff {files : FileTree} {named : Bytes} {base : Settings} :
    Id.run (settings (fun path => pure (files.find path)) named) = .ok base ↔
      Base files named base ∧ ∃ level, base.validate = .ok level := by
  have hload {path content : Bytes} (h : files.find path = .file content) :
      settingsAt path (files.find path) = .ok base ↔
        Settings.given? content = some base ∧ ∃ level, base.validate = .ok level := by
    rw [h, settingsAt_eq_ok_iff, ← Settings.load_eq_ok_iff]
    simp
  constructor
  · intro h
    by_cases hn : named = []
    · subst hn
      simp only [settings, List.isEmpty_nil, if_true, pure_bind] at h
      split at h
      · rename_i hmissing
        cases h
        exact ⟨.absent rfl hmissing, .info, validate_default⟩
      · obtain ⟨content, hf, -⟩ := settingsAt_eq_ok_iff.mp h
        obtain ⟨hs, hvalid⟩ := (hload hf).mp h
        exact ⟨.file hf hs, hvalid⟩
    · have hempty : named.isEmpty = false := by simpa using hn
      simp only [settings, hempty, pure_bind] at h
      obtain ⟨content, hf, -⟩ := settingsAt_eq_ok_iff.mp h
      obtain ⟨hs, hvalid⟩ := (hload hf).mp h
      exact ⟨.file (by rw [if_neg hn]; exact hf) hs, hvalid⟩
  · rintro ⟨hbase, hvalid⟩
    cases hbase with
    | absent hn hd => simp [settings, hn, hd]
    | file hf hs =>
      have hat := (hload hf).mpr ⟨hs, hvalid⟩
      by_cases hn : named = []
      · rw [if_pos hn] at hf hat
        rw [hf] at hat
        simp [settings, hn, hf, hat]
      · rw [if_neg hn] at hat
        simp [settings, hn, hat]

variable {files : FileTree} {arguments rest : List Bytes} {flags : Flags}

-- Where no settings can be had, or where they do not pass the check with the flags on top of them,
-- nothing is done.
theorem respond_refused (hflags : Flags.parse arguments = .ok (flags, rest))
    (h : ∀ base, Id.run (settings (fun path => pure (files.find path)) flags.config) = .ok base →
      ∃ message, (flags.apply base).validate = .error message) :
    ∃ stderr, ∀ fuel stdin, respond files fuel stdin arguments = some ⟨1, [], stderr⟩ := by
  cases hbase : Id.run (settings (fun path => pure (files.find path)) flags.config) with
  | error message =>
    refine ⟨red false message, fun fuel stdin => ?_⟩
    simp only [respond, prepare, hflags, Id.run_bind, hbase, Id.run_pure]
    rfl
  | ok base =>
    obtain ⟨message, hvalid⟩ := h base hbase
    refine ⟨red ((flags.apply base).color == some true) message, fun fuel stdin => ?_⟩
    simp only [respond, prepare, hflags, Id.run_bind, hbase, hvalid, Id.run_pure]
    rfl

-- Tracing is in force wherever the level is looked at: under the flags, and in the settings that they
-- are put on top of if the level comes from there.
def Traces (flags : Flags) (base : Settings) : Prop :=
  flags.trace.getD base.trace = true ∧ (flags.logLevel = none → base.trace = true)

-- Where tracing is in force, the work is done with the log of a trace. Apart from the settings that a
-- flag for the level goes over, no level is looked at.
theorem respond_of_traces {base : Settings} {command path source : Bytes}
    (hflags : Flags.parse arguments = .ok (flags, rest)) (hbase : Base files flags.config base)
    (htraces : Traces flags base) (hlevel : flags.logLevel ≠ none → ¬LogLevel.IsBad base.logLevel)
    (hbaseSteps : 0 ≤ base.maxSteps) (hsteps : 0 ≤ (flags.apply base).maxSteps)
    (htarget : target? rest = some (command, path)) (hs : files.find path = .file source)
    (fuel : Nat) (stdin : Bytes) : respond files fuel stdin arguments =
      (Job.mk command path source .trace ((flags.apply base).color == some true)
        (flags.apply base).maxSteps).finish fuel stdin := by
  obtain ⟨htrace, hfile⟩ := htraces
  have hvalid : ∃ level, base.validate = .ok level := by
    by_cases hnone : flags.logLevel = none
    · exact ⟨.trace, Settings.validate_of_trace (hfile hnone) hbaseSteps⟩
    · exact Settings.validate_of_not_isBad (hlevel hnone) hbaseSteps
  exact respond_prepared hflags (settings_eq_ok_iff.mpr ⟨hbase, hvalid⟩)
    (Settings.validate_of_trace htrace hsteps) htarget hs fuel stdin

-- A bad level is an error, whether it comes from a flag, a file or nowhere, and whatever else is asked
-- for, unless tracing goes over it. No settings at all are an error as well.
theorem badLevel_refused (hflags : Flags.parse arguments = .ok (flags, rest))
    (h : ∀ base, Base files flags.config base →
      LogLevel.IsBad (flags.logLevel.getD base.logLevel) ∧ ¬Traces flags base) :
    ∃ stderr, ∀ fuel stdin, respond files fuel stdin arguments = some ⟨1, [], stderr⟩ := by
  refine respond_refused hflags fun base hbase => ?_
  obtain ⟨hgiven, level, hvalid⟩ := settings_eq_ok_iff.mp hbase
  obtain ⟨hbad, htraces⟩ := h base hgiven
  cases ht : (flags.apply base).trace with
  | false => exact Settings.validate_of_isBad hbad ht
  | true =>
    -- the level is the one of the file then, which has passed a check without tracing
    exfalso
    have hfile : ¬(flags.logLevel = none → base.trace = true) := fun h => htraces ⟨ht, h⟩
    obtain ⟨hnone, hoff⟩ := Classical.not_imp.mp hfile
    rw [hnone] at hbad
    obtain ⟨message, hinvalid⟩ := Settings.validate_of_isBad hbad (Bool.eq_false_iff.mpr hoff)
    rw [hvalid] at hinvalid
    cases hinvalid

-- A file with a bad level that turns tracing on, and a flag that turns it off.
theorem badLevel_refused_untraced :
    let files : FileTree := .ofPaths
      [(defaultSettingsPath, Bytes.ofString "trace: true\nlog_level: loud\n"),
        (Bytes.ofString "p.bas", Bytes.ofString "PRINT 1\n")]
    ∃ stderr, ∀ fuel stdin, respond files fuel stdin
      [Bytes.ofString "-trace=false", Bytes.ofString "p.bas"] = some ⟨1, [], stderr⟩ := by
  intro files
  have hflags : Flags.parse [Bytes.ofString "-trace=false", Bytes.ofString "p.bas"] =
      .ok (⟨[], none, some false, none, none⟩, [Bytes.ofString "p.bas"]) :=
    eq_ok_of_toOption (by decide +kernel)
  have hfind : files.find defaultSettingsPath =
      .file (Bytes.ofString "trace: true\nlog_level: loud\n") := by decide +kernel
  have hgiven : Settings.given? (Bytes.ofString "trace: true\nlog_level: loud\n") =
      some ⟨Bytes.ofString "loud", true, none, 0⟩ := by decide +kernel
  refine badLevel_refused hflags fun base hbase => ?_
  cases hbase with
  | absent hn hd =>
    rw [hfind] at hd
    cases hd
  | file hf hs =>
    rw [if_pos rfl, hfind] at hf
    cases hf
    rw [hgiven] at hs
    cases hs
    exact ⟨LogLevel.isBad_loud, fun htraces => Bool.false_ne_true htraces.1⟩

-- With tracing on, a bad level is not looked at, and the program runs.
theorem badLevel_passes_traced :
    let files : FileTree := .ofPaths [(Bytes.ofString "p.bas", Bytes.ofString "PRINT 1\n")]
    let arguments := ["-trace", "-log-level", "loud", "p.bas"].map Bytes.ofString
    ∃ flags rest base, Flags.parse arguments = .ok (flags, rest) ∧ Base files flags.config base ∧
      LogLevel.IsBad (flags.logLevel.getD base.logLevel) ∧
      (respond files 2 [] arguments).map (fun response => (response.code, response.stdout)) =
        some (0, Bytes.ofString "1.0\n") := by
  intro files arguments
  refine ⟨⟨[], some (Bytes.ofString "loud"), some true, none, none⟩, [Bytes.ofString "p.bas"],
    .default, eq_ok_of_toOption (by decide +kernel), .absent rfl (by decide +kernel),
    LogLevel.isBad_loud, ?_⟩
  decide +kernel

end CommandLine

end LineBasic
