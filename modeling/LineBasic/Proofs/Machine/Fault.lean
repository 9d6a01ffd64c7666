import LineBasic.Proofs.Machine.Observation
import LineBasic.Proofs.Machine.Run

namespace LineBasic

namespace Instr

def operands : Instr → List Expr
  | .simple (.assign _ value) => [value]
  | .simple (.print _ elements) => elements
  | .branch _ condition _ _ => [condition]
  | .loop _ _ first last _ => [first, last]
  | _ => []

end Instr

namespace Expr

theorem evaluateAll_error {env : Env} {es : List Expr} {failure : Failure}
    (h : evaluateAll env es = .error failure) : ∃ e ∈ es, e.evaluate env = .error failure := by
  induction es with
  | nil => cases h
  | cons e rest ih =>
    simp only [evaluateAll] at h
    split at h
    · rename_i he
      cases h
      exact ⟨e, List.mem_cons_self, he⟩
    · split at h
      · rename_i hrest
        cases h
        obtain ⟨e', hmem, he'⟩ := ih hrest
        exact ⟨e', List.mem_cons_of_mem _ hmem, he'⟩
      · cases h

-- A bound fails with its expression, or because its value is no number.
theorem bound_error {env : Env} {line : Nat} {e : Expr} {failure : Failure}
    (h : e.bound env line = .error failure) :
    e.evaluate env = .error failure ∨ ∃ value, e.evaluate env = .ok value ∧
      value.kind ≠ .number ∧ failure = ⟨.operandTypes, line,
        Bytes.ofString "FOR bound is " ++ Bytes.ofString value.kind.name⟩ := by
  unfold bound at h
  split at h
  · rename_i he
    cases h
    exact .inl he
  · cases h
  · rename_i value hnumber he
    cases h
    refine .inr ⟨value, he, ?_, rfl⟩
    cases value with
    | number x => exact (hnumber x rfl).elim
    | _ => simp [Value.kind]

end Expr

namespace Machine

-- Every way in which a step can fail, with the failure that it is reported as.
inductive Raises (m : Machine) (s : State) : Instr → Fault → Prop where
  | operand {instr : Instr} {e : Expr} {failure : Failure} (he : e ∈ instr.operands)
      (hv : e.evaluate s.env = .error failure) : Raises m s instr (.failure failure)
  | bound {keyword name : Word} {first last e : Expr} {exit : Nat} {value : Value}
      (he : e ∈ [first, last]) (hv : e.evaluate s.env = .ok value) (hk : value.kind ≠ .number) :
      Raises m s (.loop keyword name first last exit)
        (.failure ⟨.operandTypes, keyword.line,
          Bytes.ofString "FOR bound is " ++ Bytes.ofString value.kind.name⟩)
  | condition {keyword : Word} {condition : Expr} {elseBranch endif : Nat} {value : Value}
      (hv : condition.evaluate s.env = .ok value) (hk : value.kind ≠ .boolean) :
      Raises m s (.branch keyword condition elseBranch endif)
        (.failure ⟨.conditionNotBoolean, keyword.line, Bytes.ofString value.kind.name⟩)
  | printer {keyword : Word} {elements : List Expr} {message : Bytes}
      (hp : m.printer (s.calls + 1) = some message) :
      Raises m s (.simple (.print keyword elements)) (.outside message)
  | prompt {keyword name : Word} {text message : Bytes}
      (hp : m.printer (s.calls + 1) = some message) :
      Raises m s (.simple (.input keyword (some text) name)) (.outside message)
  | reader {keyword name : Word} {prompt : Option Bytes} {message : Bytes}
      (hr : s.input.readLine.1 = .failed message) :
      Raises m s (.simple (.input keyword prompt name)) (.outside message)
  | ended {keyword name : Word} {prompt : Option Bytes} (hr : s.input.readLine.1 = .ended) :
      Raises m s (.simple (.input keyword prompt name))
        (.failure ⟨.inputExhausted, keyword.line, name.text⟩)
  | invalid {keyword name : Word} {prompt : Option Bytes} {text : Bytes}
      (hr : s.input.readLine.1 = .line text) (hn : Double.readInput? text = none) :
      Raises m s (.simple (.input keyword prompt name))
        (.failure ⟨.invalidInput, keyword.line, text⟩)
  | label {instr : Instr} {label : Word} (ht : instr.target? = some label)
      (hl : m.program.labels.lookup? label.text = none) :
      Raises m s instr (.failure ⟨.unknownLabel, label.line, label.text⟩)
  | ret {keyword : Word} (hr : s.env.returns = []) :
      Raises m s (.simple (.ret keyword)) (.failure ⟨.returnWithoutGosub, keyword.line, []⟩)
  | next {keyword : Word} {header : Nat} (hf : s.env.loops.get? header = none) :
      Raises m s (.next keyword header) (.failure ⟨.nextWithoutFor, keyword.line, []⟩)
  | stuck {keyword : Word} {header : Nat} : Raises m s (.next keyword header) .stuck

variable {m : Machine} {s s' : State} {fault : Fault}

theorem emit_fault {text : Bytes} (h : m.emit s text = (s', some fault)) :
    ∃ message, m.printer (s.calls + 1) = some message ∧ fault = .outside message := by
  unfold emit at h
  dsimp only at h
  split at h
  · rename_i message hp
    cases h
    exact ⟨message, hp, rfl⟩
  · cases h

theorem emit_input {text : Bytes} (h : m.emit s text = (s', none)) : s'.input = s.input := by
  unfold emit at h
  dsimp only at h
  split at h
  · cases h
  · cases h
    rfl

-- What reading a line raises depends on the input alone.
theorem receive_raises {t : State} {keyword name : Word} (prompt : Option Bytes)
    (hi : t.input = s.input) (h : receive keyword name t = (s', some fault)) :
    m.Raises s (.simple (.input keyword prompt name)) fault := by
  unfold receive at h
  rw [hi] at h
  dsimp only at h
  split at h
  · rename_i hr
    cases h
    exact .ended hr
  · rename_i message hr
    cases h
    exact .reader hr
  · rename_i text hr
    split at h
    · rename_i hn
      cases h
      exact .invalid hr hn
    · cases h

theorem position_raises {instr : Instr} {label : Word} {failure : Failure}
    (ht : instr.target? = some label)
    (h : m.program.labels.position label.text label.line = .error failure) :
    m.Raises s instr (.failure failure) := by
  unfold LabelTable.position at h
  split at h
  · cases h
  · rename_i hl
    cases h
    exact .label ht hl

theorem executeStmt_raises {stmt : Stmt}
    (h : m.executeStmt stmt (advance s) = (s', some fault)) :
    m.Raises s (.simple stmt) fault := by
  cases stmt with
  | assign name value =>
    simp only [executeStmt] at h
    split at h
    · rename_i failure hv
      cases h
      exact .operand (e := value) List.mem_cons_self hv
    · cases h
  | print keyword elements =>
    simp only [executeStmt] at h
    split at h
    · rename_i failure hv
      cases h
      obtain ⟨e, he, hv⟩ := Expr.evaluateAll_error hv
      exact .operand he hv
    · obtain ⟨message, hp, rfl⟩ := emit_fault h
      exact .printer hp
  | input keyword prompt name =>
    cases prompt with
    | none => exact receive_raises (t := advance s) none rfl h
    | some text =>
      simp only [executeStmt] at h
      split at h
      · rename_i t fault' hemit
        cases h
        obtain ⟨message, hp, rfl⟩ := emit_fault hemit
        exact .prompt hp
      · rename_i t hemit
        have hinput : t.input = (advance s).input := emit_input hemit
        exact receive_raises (some text) hinput h
  | goto keyword label =>
    simp only [executeStmt] at h
    split at h
    · rename_i failure hl
      cases h
      exact position_raises rfl hl
    · cases h
  | gosub keyword label =>
    simp only [executeStmt] at h
    split at h
    · rename_i failure hl
      cases h
      exact position_raises rfl hl
    · cases h
  | ret keyword =>
    simp only [executeStmt, Env.pop, advance] at h
    split at h
    · rename_i failure hpop
      cases hr : s.env.returns with
      | nil =>
        rw [hr] at hpop
        cases hpop
        cases h
        exact .ret hr
      | cons position rest =>
        rw [hr] at hpop
        cases hpop
    · cases h
  | label name => cases h
  | stop keyword => cases h

-- A step fails only for one of the reasons above.
theorem step_raises {instr : Instr} (h : m.step instr s = (s', some fault)) :
    m.Raises s instr fault := by
  cases instr with
  | simple stmt => exact executeStmt_raises h
  | branch keyword condition elseBranch endif =>
    simp only [step, execute] at h
    split at h
    · rename_i failure hv
      cases h
      exact .operand (e := condition) List.mem_cons_self hv
    · cases h
    · cases h
    · rename_i value htrue hfalse hv
      cases h
      refine .condition hv fun hk => ?_
      cases value with
      | boolean b =>
        cases b with
        | true => exact htrue rfl
        | false => exact hfalse rfl
      | _ => cases hk
  | otherwise keyword endif => cases h
  | loop keyword name first last exit =>
    have hbound {e : Expr} {failure : Failure} (he : e ∈ [first, last])
        (hb : e.bound s.env keyword.line = .error failure) :
        m.Raises s (.loop keyword name first last exit) (.failure failure) := by
      obtain hv | ⟨value, hv, hk, rfl⟩ := Expr.bound_error hb
      · exact .operand he hv
      · exact .bound he hv hk
    simp only [step, execute, startLoop] at h
    split at h
    · rename_i failure hb
      cases h
      exact hbound (by simp) hb
    · split at h
      · rename_i failure hb
        cases h
        exact hbound (by simp) hb
      · split at h <;> cases h
  | next keyword header =>
    simp only [step, execute, continueLoop, Env.frame] at h
    cases hf : s.env.loops.get? header with
    | none =>
      simp only [hf] at h
      cases h
      exact .next hf
    | some frame =>
      simp only [hf] at h
      split at h
      · cases h
      · split at h
        · cases h
        · cases h
          exact .stuck

-- Only the limit itself is reported as the step limit.
theorem Raises.ne_stepLimit {instr : Instr} (h : m.Raises s instr fault) {failure : Failure}
    (hf : fault = .failure failure) : failure.problem ≠ .stepLimit := by
  cases h with
  | operand he hv =>
    cases hf
    intro hp
    obtain hu | ho := Expr.evaluate_problem hv
    · simp [hp] at hu
    · simp [hp, Operator.problems] at ho
  | printer hp => cases hf
  | prompt hp => cases hf
  | reader hr => cases hf
  | stuck => cases hf
  | _ =>
    cases hf
    simp

end Machine

end LineBasic
