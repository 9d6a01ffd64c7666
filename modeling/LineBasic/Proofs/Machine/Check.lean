import LineBasic.Proofs.Machine.Fault
import LineBasic.Proofs.Program.Check

namespace LineBasic.Machine

variable {m : Machine} {s : State} {failure : Failure}

-- Only a jump fails for an unknown label, and it names the label.
theorem Raises.unknownLabel {instr : Instr} (h : m.Raises s instr (.failure failure))
    (hp : failure.problem = .unknownLabel) :
    ∃ label, instr.target? = some label ∧ m.program.labels.lookup? label.text = none ∧
      failure = ⟨.unknownLabel, label.line, label.text⟩ := by
  cases h with
  | operand he hv =>
    obtain hu | ho := Expr.evaluate_problem hv
    · simp [hp] at hu
    · simp [hp, Operator.problems] at ho
  | @label _ label ht hl => exact ⟨label, ht, hl, rfl⟩
  | _ => cases hp

theorem Ends.unknownLabel {result : State × Outcome} (h : m.Ends s result)
    (hr : result.2 = .stopped (.failure failure)) (hp : failure.problem = .unknownLabel) :
    ∃ label ∈ m.program.targets, m.program.labels.lookup? label.text = none ∧
      failure = ⟨.unknownLabel, label.line, label.text⟩ := by
  cases h with
  | unfinished => cases hr
  | finished hat => cases hr
  | limit hat hl =>
    cases hr
    cases hp
  | fault hat hs =>
    cases hr
    obtain ⟨label, ht, hl, hf⟩ := (step_raises hs).unknownLabel hp
    exact ⟨label, Program.mem_targets hat ht, hl, hf⟩

theorem runSource_of_error {source : Bytes} (h : Program.parse source = .error failure)
    (printer : Nat → Option Bytes) (limit : Int) (fuel : Nat) (input : Input) :
    runSource source printer limit fuel input =
      (.initial input, .stopped (.failure failure)) := by
  simp only [runSource, h]

theorem runSource_of_ok {source : Bytes} {program : Program}
    (h : Program.parse source = .ok program) (printer : Nat → Option Bytes) (limit : Int)
    (fuel : Nat) (input : Input) :
    runSource source printer limit fuel input =
      (⟨program, printer, limit⟩ : Machine).run fuel (.initial input) := by
  simp only [runSource, h]

-- A run that fails for an unknown label has got to a jump that the check reports.
theorem reported_of_unknownLabel {source : Bytes} {program : Program}
    (h : Program.parse source = .ok program) {printer : Nat → Option Bytes} {limit : Int}
    {fuel : Nat} {input : Input}
    (hr : (runSource source printer limit fuel input).2 = .stopped (.failure failure))
    (hp : failure.problem = .unknownLabel) :
    ⟨.undeclaredLabel, failure.line, failure.detail⟩ ∈ Program.check source := by
  rw [runSource_of_ok h] at hr
  obtain ⟨t, -, hends⟩ := run_ends (m := ⟨program, printer, limit⟩) fuel (.initial input)
  obtain ⟨label, ht, hl, rfl⟩ := hends.unknownLabel hr hp
  have hnew : label.text ∉ program.names := (Program.lookup?_eq_none_iff h _).mp hl
  simp only [Program.check, h, Program.unresolved_eq h]
  exact List.mem_map.mpr ⟨label, List.mem_filter.mpr ⟨ht, by simpa using hnew⟩, rfl⟩

-- The check and the run of a source agree. What cannot be parsed fails in the same way in both, and
-- the run prints and reads nothing. Otherwise the check reports the jumps to labels that are not
-- declared, in program order, and a run fails at no others.
theorem check_predicts_runs (source : Bytes) :
    (∀ failure, Program.parse source = .error failure →
      Program.check source = [failure] ∧
        ∀ printer limit fuel input, runSource source printer limit fuel input =
          (.initial input, .stopped (.failure failure))) ∧
    (∀ program, Program.parse source = .ok program →
      Program.check source = (program.targets.filter fun label =>
        label.text ∉ program.names).map Failure.undeclared ∧
        ∀ printer limit fuel input failure,
          (runSource source printer limit fuel input).2 = .stopped (.failure failure) →
            failure.problem = .unknownLabel →
              ⟨.undeclaredLabel, failure.line, failure.detail⟩ ∈ Program.check source) ∧
    (Program.check source = [] → ∀ printer limit fuel input failure,
      (runSource source printer limit fuel input).2 = .stopped (.failure failure) →
        failure.problem ≠ .unknownLabel) := by
  refine ⟨fun failure h => ⟨?_, runSource_of_error h⟩, fun program h => ⟨?_, ?_⟩, ?_⟩
  · simp only [Program.check, h]
  · simp only [Program.check, h, Program.unresolved_eq h]
  · intro printer limit fuel input failure hr hp
    exact reported_of_unknownLabel h hr hp
  · intro hnone printer limit fuel input failure hr hp
    cases hparse : Program.parse source with
    | error failure => simp [Program.check, hparse] at hnone
    | ok program =>
      have hmem := reported_of_unknownLabel hparse hr hp
      rw [hnone] at hmem
      cases hmem

theorem check_predicts_runs_strayingSource :
    Program.check Program.strayingSource = [⟨.undeclaredLabel, 1, Bytes.ofString "A"⟩] ∧
      (runSource Program.strayingSource (fun _ => none) 0 1 ⟨[], none⟩).2 =
        .stopped (.failure ⟨.unknownLabel, 1, Bytes.ofString "A"⟩) ∧
      ⟨.undeclaredLabel, 1, Bytes.ofString "A"⟩ ∈ Program.check Program.strayingSource := by
  have h := Program.parse_strayingSource
  have hrun : (runSource Program.strayingSource (fun _ => none) 0 1 ⟨[], none⟩).2 =
      .stopped (.failure ⟨.unknownLabel, 1, Bytes.ofString "A"⟩) := by
    rw [runSource_of_ok h]
    decide
  obtain ⟨hcheck, hreported⟩ := (check_predicts_runs Program.strayingSource).2.1 _ h
  exact ⟨hcheck.trans (by decide), hrun, hreported _ _ _ _ _ hrun rfl⟩

end LineBasic.Machine
