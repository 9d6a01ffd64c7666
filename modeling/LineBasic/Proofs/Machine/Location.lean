import LineBasic.Proofs.Machine.Fault
import LineBasic.Proofs.Program.Lines

namespace LineBasic

namespace Expr

theorem evaluate_line {e : Expr} {env : Env} {failure : Failure}
    (h : e.evaluate env = .error failure) : ∃ w ∈ e.words, failure.line = w.line := by
  induction e generalizing failure with
  | number value word => cases h
  | string value word => cases h
  | «variable» name =>
    simp only [evaluate, Env.get] at h
    split at h
    · cases h
    · cases h
      exact ⟨name, List.mem_cons_self, rfl⟩
  | grouping opening inner closing ih =>
    obtain ⟨w, hw, hline⟩ := ih h
    rw [words_grouping]
    exact ⟨w, List.mem_append_left _ (List.mem_cons_of_mem _ hw), hline⟩
  | binary left op sign right ihl ihr =>
    rw [words_binary]
    have hsign : sign ∈ left.words ++ sign :: right.words :=
      List.mem_append_right _ List.mem_cons_self
    simp only [evaluate] at h
    split at h
    · rename_i heq
      cases h
      obtain ⟨w, hw, hline⟩ := ihl heq
      exact ⟨w, List.mem_append_left _ hw, hline⟩
    · split at h
      · rename_i heq
        cases h
        obtain ⟨w, hw, hline⟩ := ihr heq
        exact ⟨w, List.mem_append_right _ (List.mem_cons_of_mem _ hw), hline⟩
      · split at h
        · cases h
        · cases h
          exact ⟨sign, hsign, rfl⟩
        · cases h
          exact ⟨sign, hsign, rfl⟩

end Expr

namespace Instr

theorem mem_words_of_operand {instr : Instr} {e : Expr} (he : e ∈ instr.operands) {w : Word}
    (hw : w ∈ e.words) : w ∈ instr.head.words := by
  cases instr with
  | simple stmt =>
    cases stmt with
    | assign name value =>
      rw [List.mem_singleton.mp he] at hw
      exact List.mem_cons_of_mem _ hw
    | print keyword elements =>
      exact List.mem_cons_of_mem _ (List.mem_flatMap.mpr ⟨e, he, hw⟩)
    | _ => cases he
  | branch keyword condition elseBranch endif =>
    rw [List.mem_singleton.mp he] at hw
    exact List.mem_cons_of_mem _ hw
  | loop keyword name first last exit =>
    obtain rfl | he := List.mem_cons.mp he
    · exact List.mem_append_left _ (List.mem_cons_of_mem _ hw)
    · rw [List.mem_singleton.mp he] at hw
      exact List.mem_append_right _ hw
  | _ => cases he

theorem mem_words_of_target {instr : Instr} {name : Word} (h : instr.target? = some name) :
    name ∈ instr.head.words := by
  unfold target? at h
  split at h
  · cases h
    exact List.mem_cons_of_mem _ List.mem_cons_self
  · cases h
    exact List.mem_cons_of_mem _ List.mem_cons_self
  · cases h

end Instr

namespace Machine

variable {m : Machine} {s : State}

theorem Raises.line {instr : Instr} {failure : Failure} (h : m.Raises s instr (.failure failure)) :
    ∃ w ∈ instr.head.words, failure.line = w.line := by
  cases h with
  | operand he hv =>
    obtain ⟨w, hw, hline⟩ := Expr.evaluate_line hv
    exact ⟨w, Instr.mem_words_of_operand he hw, hline⟩
  | @label _ label ht hl => exact ⟨label, Instr.mem_words_of_target ht, rfl⟩
  | _ => exact ⟨_, List.mem_cons_self, rfl⟩

-- The line of every failing statement is known, whatever state it fails in.
theorem within_of_step {source : Bytes} (h : Program.parse source = .ok m.program) {s' : State}
    {instr : Instr} (hat : m.program.code[s.pc]? = some instr) {failure : Failure}
    (hs : m.step instr s = (s', some (.failure failure))) :
    m.program.Within s.pc failure.line := by
  obtain ⟨w, hw, hline⟩ := (step_raises hs).line
  rw [hline]
  exact Program.within_of_mem h hat hw

-- The lines that positions are reported on go down the source, and a run that fails does so on a
-- line of the statement that it executes: not before the line of its position, and not after that
-- of the next one. At the step limit it is the line of the statement that would have come next.
theorem failures_located {source : Bytes} {program : Program}
    (h : Program.parse source = .ok program) :
    program.lines.Pairwise (· ≤ ·) ∧
    (∀ line ∈ program.lines, 1 ≤ line ∧ line ≤ 1 + source.count 10) ∧
    ∀ printer limit fuel input s' failure,
      let m : Machine := ⟨program, printer, limit⟩
      m.run fuel (.initial input) = (s', .stopped (.failure failure)) →
        (failure.problem ≠ .stepLimit ∧ ∃ t instr, m.Reaches (.initial input) t ∧
          program.code[t.pc]? = some instr ∧ m.step instr t = (s', some (.failure failure)) ∧
          program.Within t.pc failure.line) ∨
        (failure.problem = .stepLimit ∧ m.atLimit s' = true ∧
          ∃ line, program.lines[s'.pc]? = some line ∧ failure.line = line) := by
  refine ⟨Program.lines_sorted h, Program.lines_range h, ?_⟩
  intro printer limit fuel input s' failure m hrun
  obtain ⟨t, hreach, hends⟩ := run_ends (m := m) fuel (.initial input)
  rw [hrun] at hends
  cases hends with
  | @limit instr hat hl =>
    refine .inr ⟨rfl, hl, instr.word.line, ?_, rfl⟩
    have hat : program.code[s'.pc]? = some instr := hat
    rw [Program.getElem?_lines, hat]
    rfl
  | @fault instr s' fault hat hs =>
    exact .inl ⟨(step_raises hs).ne_stepLimit rfl, t, instr, hreach, hat, hs,
      within_of_step (m := m) h hat hs⟩

-- A program to try theorems about lines of statements on: the string in its second statement has a
-- newline, so the minus sign after it is on the third line.
def spreadSource : Bytes :=
  Bytes.ofString "PRINT 1\nPRINT \"a\nb\" - 1\nEND"

def spread : Block :=
  .simple (.print (.ofString "PRINT" 1) [.number (.ofInt 1) (.ofString "1" 1)])
    (.simple (.print (.ofString "PRINT" 2)
      [.binary (.string (Bytes.ofString "a\nb") (.ofString "\"a\nb\"" 2)) .sub (.ofString "-" 3)
        (.number (.ofInt 1) (.ofString "1" 3))])
      (.simple (.stop (.ofString "END" 4)) .done))

theorem parse_spreadSource : Program.parse spreadSource = .ok (.ofBlock spread) :=
  Program.parse_eq_ok.mpr ⟨_, eq_ok_of_toOption (by decide +kernel), rfl⟩

-- Without a limit it fails at the minus sign, between the lines 2 and 4; with one step allowed, in
-- front of the second PRINT.
theorem failures_located_spreadSource :
    let program := Program.ofBlock spread
    let m : Machine := ⟨program, fun _ => none, 0⟩
    let limited : Machine := ⟨program, fun _ => none, 1⟩
    let start := State.initial ⟨[], none⟩
    Program.parse spreadSource = .ok program ∧ program.lines = [1, 2, 4] ∧
    (∃ s' failure, m.run 2 start = (s', .stopped (.failure failure)) ∧ failure.line = 3 ∧
      ∃ t, m.Reaches start t ∧ program.Within t.pc 3) ∧
    ∃ s' failure, limited.run 2 start = (s', .stopped (.failure failure)) ∧
      failure.problem = .stepLimit ∧
      ∃ line, program.lines[s'.pc]? = some line ∧ failure.line = line := by
  intro program m limited start
  have h : Program.parse spreadSource = .ok program := parse_spreadSource
  obtain ⟨-, -, hruns⟩ := failures_located h
  have hrun : m.run 2 start = ((m.run 2 start).1, .stopped (.failure
      ⟨.operandTypes, 3, Bytes.ofString "string - number"⟩)) :=
    Prod.ext rfl (by decide +kernel)
  have hlimited : limited.run 2 start = ((limited.run 2 start).1, .stopped (.failure
      ⟨.stepLimit, 2, Bytes.ofString "1"⟩)) :=
    Prod.ext rfl (by decide +kernel)
  refine ⟨h, by decide +kernel, ⟨_, _, hrun, rfl, ?_⟩, _, _, hlimited, rfl, ?_⟩
  · obtain ⟨-, t, instr, hreach, -, -, hwithin⟩ | ⟨hlimit, -⟩ := hruns _ _ _ _ _ _ hrun
    · exact ⟨t, hreach, hwithin⟩
    · cases hlimit
  · obtain ⟨hno, -⟩ | ⟨-, -, hline⟩ := hruns _ _ _ _ _ _ hlimited
    · exact (hno rfl).elim
    · exact hline

end Machine

end LineBasic
