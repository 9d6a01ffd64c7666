import LineBasic.Proofs.Block.Meaning
import LineBasic.Proofs.Expr.Evaluation
import LineBasic.Proofs.Machine.Transfer

namespace LineBasic

namespace Expr

-- The bounds of a loop are its start and its end without a fraction in thirty-two bits.
theorem boundOf_eq_saturated (x : Double) : boundOf x = x.saturated := by
  unfold boundOf Double.saturated
  split
  · rfl
  · rename_i hn
    have hle : x.magnitude ≤ Double.infinityBits := by simpa [Double.isNaN] using hn
    by_cases hi : x.magnitude = Double.infinityBits
    · have hinfinite : x.isInfinite = true := decide_eq_true hi
      have hnone : x.truncate? = none := by
        simp only [Double.truncate?, Double.isFinite, hi, Nat.lt_irrefl, decide_false,
          Bool.false_eq_true, if_false]
      rw [hnone, if_pos hinfinite]
      rfl
    · have hinfinite : ¬x.isInfinite = true := fun h => hi (of_decide_eq_true h)
      have hfinite : x.isFinite = true := decide_eq_true (Nat.lt_of_le_of_ne hle hi)
      have hwhole : x.truncate? = some (x.signedUnits.tdiv Double.one) := by
        unfold Double.truncate? Double.signedUnits
        rw [if_pos hfinite]
        split
        · rw [Int.neg_tdiv]
          rfl
        · rfl
      rw [hwhole, if_neg hinfinite]
      rfl

theorem saturated_range (x : Double) :
    leastBound ≤ x.saturated ∧ x.saturated ≤ greatestBound := by
  rw [← boundOf_eq_saturated]
  exact boundOf_range x

end Expr

-- The part of a state that a program without jumps works on.
def State.world (s : State) : World :=
  ⟨s.env.values, s.output, s.calls, s.input⟩

namespace Expr

theorem evaluate_world (e : Expr) (s : State) : e.evaluate s.env = e.evaluate s.world.env :=
  e.evaluate_values s.env

theorem bound_world (e : Expr) (keyword : Word) (s : State) :
    e.bound s.env keyword.line = e.whole keyword s.world := by
  unfold bound whole
  rw [e.evaluate_world s]
  cases e.evaluate s.world.env with
  | error failure => rfl
  | ok value =>
    cases value with
    | number x => simp only [boundOf_eq_saturated]
    | _ => rfl

end Expr

namespace Machine

variable (m : Machine) (s : State)

def course : Effect → Course
  | (s, none) => s.world.pass
  | (s, some fault) => (s.world, .failed fault)

theorem emit_course (text : Bytes) : course (m.emit s text) = s.world.write m.printer text := by
  simp only [emit, World.write, State.world]
  cases m.printer (s.calls + 1) <;> rfl

theorem receive_course (keyword name : Word) :
    course (receive keyword name s) = s.world.read keyword name := by
  simp only [receive, World.read, State.world]
  cases s.input.readLine with
  | mk reading rest =>
    cases reading with
    | ended => rfl
    | failed message => rfl
    | line text =>
      dsimp only
      cases Double.readInput? text <;> rfl

theorem executeStmt_course {stmt : Stmt} (h : stmt.isPlain) :
    course (m.executeStmt stmt s) = stmt.perform m.printer s.world := by
  cases stmt with
  | assign name value =>
    simp only [executeStmt, Stmt.perform, ← value.evaluate_world s]
    cases value.evaluate s.env <;> rfl
  | print keyword elements =>
    have he : Expr.evaluateAll s.env elements = Expr.evaluateAll s.world.env elements :=
      Expr.evaluateAll_values elements s.env
    simp only [executeStmt, Stmt.perform, ← he]
    cases Expr.evaluateAll s.env elements with
    | error failure => rfl
    | ok values => exact emit_course m s _
  | input keyword prompt name =>
    cases prompt with
    | none => exact receive_course s keyword name
    | some text =>
      simp only [executeStmt, Stmt.perform, ← emit_course m s text]
      cases m.emit s text with
      | mk s' fault? =>
        cases fault? with
        | none => exact receive_course s' keyword name
        | some fault => rfl
  | label name => rfl
  | _ => cases h

def advance (s : State) : State :=
  { s with pc := s.pc + 1, steps := s.steps + 1 }

theorem step_branch (keyword : Word) (condition : Expr) (elseBranch endif : Nat) :
    m.step (.branch keyword condition elseBranch endif) s =
      match condition.truth keyword s.world with
      | .error failure => fail (advance s) failure
      | .ok true => done (advance s)
      | .ok false => done ((advance s).jump elseBranch) := by
  simp only [step, execute, Expr.truth, ← condition.evaluate_world s, advance]
  cases condition.evaluate s.env with
  | error failure => rfl
  | ok value =>
    cases value with
    | boolean b => cases b <;> rfl
    | _ => rfl

theorem step_loop (keyword name : Word) (first last : Expr) (exit : Nat) :
    m.step (.loop keyword name first last exit) s =
      match first.whole keyword s.world with
      | .error failure => fail (advance s) failure
      | .ok low =>
        match last.whole keyword s.world with
        | .error failure => fail (advance s) failure
        | .ok high =>
          if high < low then
            done { advance s with env := s.env.leave s.pc, pc := exit }
          else
            done { advance s with
              env := (s.env.enter s.pc ⟨low, high⟩).define name.text (counterValue low) } := by
  simp only [step, execute, startLoop, ← Expr.bound_world _ keyword s, advance]
  rfl

variable {s} {keyword : Word} {header : Nat} {frame : Frame}

theorem step_next_leave (hf : s.env.loops.get? header = some frame)
    (hlt : frame.last < frame.counter + 1) :
    m.step (.next keyword header) s = done { advance s with env := s.env.leave header } := by
  simp [step, execute, continueLoop, Env.frame, hf, hlt, advance]

theorem step_next_again {keyword' name : Word} {first last : Expr} {exit : Nat}
    (hf : s.env.loops.get? header = some frame) (hle : frame.counter + 1 ≤ frame.last)
    (hc : m.program.code[header]? = some (.loop keyword' name first last exit)) :
    m.step (.next keyword header) s =
      done { advance s with
        env := (s.env.enter header ⟨frame.counter + 1, frame.last⟩).define name.text
          (counterValue (frame.counter + 1))
        pc := header + 1 } := by
  have hno : ¬frame.last < frame.counter + 1 := Int.not_lt.mpr hle
  simp [step, execute, continueLoop, Env.frame, hf, hno, hc, advance]

end Machine

end LineBasic
