import LineBasic.Machine

namespace LineBasic

namespace Stmt

-- A statement that leaves the place of execution to go on with what comes next.
def isPlain : Stmt → Bool
  | .assign _ _ => true
  | .print _ _ => true
  | .input _ _ _ => true
  | .label _ => true
  | _ => false

end Stmt

namespace LabelTable

theorem position_eq_ok {t : LabelTable} {name : Bytes} {line : Int} {position : Nat} :
    t.position name line = .ok position ↔
      ∃ label, t.lookup? name = some label ∧ label.position = position := by
  unfold LabelTable.position
  cases t.lookup? name <;> simp

end LabelTable

namespace Machine

-- Everything that a step without a failure can do to the place of execution, the GOSUB stack and
-- the loops. Plain statements may change variables, output and input; all others do nothing else.
inductive Transfer (m : Machine) (s : State) : Instr → State → Prop where
  | plain {stmt : Stmt} {s' : State} (hp : stmt.isPlain) (hpc : s'.pc = s.pc + 1)
      (hs : s'.steps = s.steps + 1) (hr : s'.env.returns = s.env.returns)
      (hl : s'.env.loops = s.env.loops) : Transfer m s (.simple stmt) s'
  | goto {keyword name : Word} {label : Label}
      (hl : m.program.labels.lookup? name.text = some label) :
      Transfer m s (.simple (.goto keyword name))
        { s with pc := label.position, steps := s.steps + 1 }
  | gosub {keyword name : Word} {label : Label}
      (hl : m.program.labels.lookup? name.text = some label) :
      Transfer m s (.simple (.gosub keyword name))
        { s with pc := label.position, steps := s.steps + 1, env := s.env.push (s.pc + 1) }
  | ret {keyword : Word} {position : Nat} {rest : List Nat}
      (hr : s.env.returns = position :: rest) :
      Transfer m s (.simple (.ret keyword))
        { s with pc := position, steps := s.steps + 1, env := { s.env with returns := rest } }
  | stop {keyword : Word} :
      Transfer m s (.simple (.stop keyword)) { s with pc := m.program.size, steps := s.steps + 1 }
  | yes {keyword : Word} {condition : Expr} {elseBranch endif : Nat}
      (hc : condition.evaluate s.env = .ok (.boolean true)) :
      Transfer m s (.branch keyword condition elseBranch endif)
        { s with pc := s.pc + 1, steps := s.steps + 1 }
  | no {keyword : Word} {condition : Expr} {elseBranch endif : Nat}
      (hc : condition.evaluate s.env = .ok (.boolean false)) :
      Transfer m s (.branch keyword condition elseBranch endif)
        { s with pc := elseBranch, steps := s.steps + 1 }
  | otherwise {keyword : Word} {endif : Nat} :
      Transfer m s (.otherwise keyword endif) { s with pc := endif, steps := s.steps + 1 }
  | enter {keyword name : Word} {first last : Expr} {exit : Nat} {low high : Int}
      (hl : first.bound s.env keyword.line = .ok low)
      (hh : last.bound s.env keyword.line = .ok high) (hle : low ≤ high) :
      Transfer m s (.loop keyword name first last exit)
        { s with
          pc := s.pc + 1
          steps := s.steps + 1
          env := (s.env.enter s.pc ⟨low, high⟩).define name.text (counterValue low) }
  | skip {keyword name : Word} {first last : Expr} {exit : Nat} {low high : Int}
      (hl : first.bound s.env keyword.line = .ok low)
      (hh : last.bound s.env keyword.line = .ok high) (hlt : high < low) :
      Transfer m s (.loop keyword name first last exit)
        { s with pc := exit, steps := s.steps + 1, env := s.env.leave s.pc }
  | again {keyword keyword' name : Word} {header exit : Nat} {frame : Frame} {first last : Expr}
      (hf : s.env.loops.get? header = some frame) (hle : frame.counter + 1 ≤ frame.last)
      (hc : m.program.code[header]? = some (.loop keyword' name first last exit)) :
      Transfer m s (.next keyword header)
        { s with
          pc := header + 1
          steps := s.steps + 1
          env := (s.env.enter header ⟨frame.counter + 1, frame.last⟩).define name.text
            (counterValue (frame.counter + 1)) }
  | leave {keyword : Word} {header : Nat} {frame : Frame}
      (hf : s.env.loops.get? header = some frame) (hlt : frame.last < frame.counter + 1) :
      Transfer m s (.next keyword header)
        { s with pc := s.pc + 1, steps := s.steps + 1, env := s.env.leave header }

-- What a failing step leaves behind: the place of execution moves on, the environment stays.
structure Halts (s s' : State) : Prop where
  pc : s'.pc = s.pc + 1
  steps : s'.steps = s.steps + 1
  env : s'.env = s.env

-- Everything that a step can do, with a failure or without. Only a NEXT without its FOR in the
-- program gets stuck.
def Result (m : Machine) (s : State) (instr : Instr) : Effect → Prop
  | (s', none) => Transfer m s instr s'
  | (s', some fault) => Halts s s' ∧
      (fault = .stuck → ∃ keyword header, instr = .next keyword header ∧
        ∀ keyword' name first last exit,
          m.program.code[header]? ≠ some (.loop keyword' name first last exit))

variable (m : Machine) (s : State)

-- A plain statement works on variables, output and input alone, and a failing one on output and
-- input.
def Plainly (s : State) : Effect → Prop
  | (s', none) =>
    s'.pc = s.pc ∧ s'.steps = s.steps ∧ s'.env.returns = s.env.returns ∧
      s'.env.loops = s.env.loops
  | (s', some fault) => s'.pc = s.pc ∧ s'.steps = s.steps ∧ s'.env = s.env ∧ fault ≠ .stuck

theorem Plainly.of_frame {s s' : State} {effect : Effect} (h : Plainly s' effect)
    (hpc : s'.pc = s.pc) (hs : s'.steps = s.steps) (he : s'.env = s.env) : Plainly s effect := by
  obtain ⟨t, fault?⟩ := effect
  cases fault? <;> simpa only [Plainly, hpc, hs, he] using h

theorem fail_plainly (failure : Failure) : Plainly s (fail s failure) := by
  refine ⟨rfl, rfl, rfl, ?_⟩
  intro h
  cases h

-- The printer is out of reach of the place of execution and of the environment.
theorem emit_frame (text : Bytes) :
    (m.emit s text).1.pc = s.pc ∧ (m.emit s text).1.steps = s.steps ∧
      (m.emit s text).1.env = s.env := by
  unfold emit
  dsimp only
  split <;> exact ⟨rfl, rfl, rfl⟩

theorem emit_ne_stuck (text : Bytes) : (m.emit s text).2 ≠ some .stuck := by
  unfold emit
  dsimp only
  split <;> simp

theorem emit_plainly (text : Bytes) : Plainly s (m.emit s text) := by
  obtain ⟨hpc, hs, he⟩ := emit_frame m s text
  have hstuck := emit_ne_stuck m s text
  cases heq : m.emit s text with
  | mk s' fault? =>
    rw [heq] at hpc hs he hstuck
    cases fault? with
    | none => exact ⟨hpc, hs, congrArg Env.returns he, congrArg Env.loops he⟩
    | some fault => exact ⟨hpc, hs, he, fun h => hstuck (congrArg some h)⟩

theorem receive_plainly (keyword name : Word) : Plainly s (receive keyword name s) := by
  unfold receive
  dsimp only
  split
  · exact fail_plainly { s with input := s.input.readLine.2 } _
  · refine ⟨rfl, rfl, rfl, ?_⟩
    intro h
    cases h
  · split
    · exact fail_plainly { s with input := s.input.readLine.2 } _
    · exact ⟨rfl, rfl, rfl, rfl⟩

theorem executeStmt_plainly {stmt : Stmt} (h : stmt.isPlain) :
    Plainly s (m.executeStmt stmt s) := by
  cases stmt with
  | assign name value =>
    simp only [executeStmt]
    split
    · exact fail_plainly s _
    · exact ⟨rfl, rfl, rfl, rfl⟩
  | print keyword elements =>
    simp only [executeStmt]
    split
    · exact fail_plainly s _
    · exact emit_plainly m s _
  | input keyword prompt name =>
    cases prompt with
    | none => exact receive_plainly s keyword name
    | some text =>
      have hemit := emit_plainly m s text
      obtain ⟨hpc, hs, he⟩ := emit_frame m s text
      simp only [executeStmt]
      split
      · rename_i heq
        rwa [heq] at hemit
      · rename_i s' heq
        rw [heq] at hpc hs he
        exact (receive_plainly s' keyword name).of_frame hpc hs he
  | label name => exact ⟨rfl, rfl, rfl, rfl⟩
  | _ => cases h

theorem step_result (instr : Instr) : Result m s instr (m.step instr s) := by
  have hfail (failure : Failure) : Result m s instr
      (fail { s with pc := s.pc + 1, steps := s.steps + 1 } failure) :=
    ⟨⟨rfl, rfl, rfl⟩, fun h => by cases h⟩
  unfold step
  cases instr with
  | simple stmt =>
    by_cases hp : stmt.isPlain
    · have h := executeStmt_plainly m { s with pc := s.pc + 1, steps := s.steps + 1 } hp
      simp only [execute]
      cases heq : m.executeStmt stmt { s with pc := s.pc + 1, steps := s.steps + 1 } with
      | mk s' fault? =>
        rw [heq] at h
        cases fault? with
        | none => exact .plain hp h.1 h.2.1 h.2.2.1 h.2.2.2
        | some fault => exact ⟨⟨h.1, h.2.1, h.2.2.1⟩, fun hs => False.elim (h.2.2.2 hs)⟩
    · cases stmt with
      | goto keyword name =>
        simp only [execute, executeStmt]
        split
        · exact hfail _
        · rename_i position hpos
          obtain ⟨label, hl, rfl⟩ := LabelTable.position_eq_ok.mp hpos
          exact .goto hl
      | gosub keyword name =>
        simp only [execute, executeStmt]
        split
        · exact hfail _
        · rename_i position hpos
          obtain ⟨label, hl, rfl⟩ := LabelTable.position_eq_ok.mp hpos
          exact .gosub hl
      | ret keyword =>
        simp only [execute, executeStmt, Env.pop]
        cases hr : s.env.returns with
        | nil => exact hfail _
        | cons position rest => exact .ret hr
      | stop keyword => exact .stop
      | _ => exact False.elim (hp rfl)
  | branch keyword condition elseBranch endif =>
    simp only [execute]
    split
    · exact hfail _
    · rename_i hc
      exact .yes hc
    · rename_i hc
      exact .no hc
    · exact hfail _
  | otherwise keyword endif => exact .otherwise
  | loop keyword name first last exit =>
    simp only [execute, startLoop]
    split
    · exact hfail _
    · rename_i low hl
      split
      · exact hfail _
      · rename_i high hh
        split
        · rename_i hlt
          exact .skip hl hh hlt
        · rename_i hle
          exact .enter hl hh (Int.not_lt.mp hle)
  | next keyword header =>
    simp only [execute, continueLoop, Env.frame]
    cases hf : s.env.loops.get? header with
    | none => exact hfail _
    | some frame =>
      dsimp only
      split
      · rename_i hlt
        exact .leave hf hlt
      · rename_i hle
        split
        · rename_i hc
          exact .again hf (Int.not_lt.mp hle) hc
        · rename_i hno
          refine ⟨⟨rfl, rfl, rfl⟩, fun _ => ⟨keyword, header, rfl, ?_⟩⟩
          intro keyword' name first last exit hc
          exact hno _ _ _ _ _ hc

end Machine

end LineBasic
