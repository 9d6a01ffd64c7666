import LineBasic.Proofs.Machine.Transfer
import Mathlib.Logic.Relation

namespace LineBasic.Machine

variable (m : Machine)

-- A run goes on from the state after a step, and it ends at a position without an instruction, at
-- the limit, or at a failing step.
theorem run_succ (fuel : Nat) (s : State) :
    m.run (fuel + 1) s =
      match m.program.code[s.pc]? with
      | none => (s, .finished)
      | some instr =>
        if m.atLimit s then
          (s, .stopped (.failure ⟨.stepLimit, instr.word.line, Bytes.ofInt m.limit⟩))
        else
          match m.step instr s with
          | (s', none) => m.run fuel s'
          | (s', some fault) => (s', .stopped fault) := by
  unfold run
  rw [runWith]
  cases m.program.code[s.pc]? with
  | none => rfl
  | some instr =>
    dsimp only
    split
    · rfl
    · cases m.step instr s with
      | mk s' fault? => cases fault? <;> rfl

-- A step without a failure from the instruction at the place of execution.
def Moves (s s' : State) : Prop :=
  ∃ instr, m.program.code[s.pc]? = some instr ∧ m.atLimit s = false ∧ m.step instr s = (s', none)

def Reaches : State → State → Prop :=
  Relation.ReflTransGen m.Moves

-- With enough fuel a run comes to an end, and always to the same one.
def Stops (s : State) (result : State × Outcome) : Prop :=
  result.2 ≠ .unfinished ∧ ∃ enough, ∀ fuel, enough ≤ fuel → m.run fuel s = result

variable {m}

theorem transfer_of_moves {s s' : State} (h : m.Moves s s') :
    ∃ instr, m.program.code[s.pc]? = some instr ∧ m.Transfer s instr s' := by
  obtain ⟨instr, hat, -, hstep⟩ := h
  have hresult := step_result m s instr
  rw [hstep] at hresult
  exact ⟨instr, hat, hresult⟩

theorem atLimit_of_nonpos (hl : m.limit ≤ 0) (s : State) : m.atLimit s = false := by
  have : ¬0 < m.limit := by omega
  simp [atLimit, this]

theorem Stops.unique {s : State} {result result' : State × Outcome} (h : m.Stops s result)
    (h' : m.Stops s result') : result = result' := by
  obtain ⟨-, enough, hrun⟩ := h
  obtain ⟨-, enough', hrun'⟩ := h'
  rw [← hrun (max enough enough') (Nat.le_max_left _ _),
    hrun' (max enough enough') (Nat.le_max_right _ _)]

theorem run_of_end {s : State} (h : m.program.code[s.pc]? = none) (fuel : Nat) :
    m.run (fuel + 1) s = (s, .finished) := by
  rw [run_succ, h]

theorem run_of_fault {s s' : State} {instr : Instr} {fault : Fault}
    (hat : m.program.code[s.pc]? = some instr) (hl : m.atLimit s = false)
    (hs : m.step instr s = (s', some fault)) (fuel : Nat) :
    m.run (fuel + 1) s = (s', .stopped fault) := by
  rw [run_succ, hat]
  simp [hl, hs]

theorem run_of_moves {s s' : State} (h : m.Moves s s') (fuel : Nat) :
    m.run (fuel + 1) s = m.run fuel s' := by
  obtain ⟨instr, hat, hl, hs⟩ := h
  rw [run_succ, hat]
  simp [hl, hs]

theorem Stops.head {s s' : State} {result : State × Outcome} (h : m.Stops s' result)
    (hmove : m.Moves s s') : m.Stops s result := by
  obtain ⟨hne, enough, hrun⟩ := h
  refine ⟨hne, enough + 1, fun fuel hle => ?_⟩
  obtain ⟨fuel, rfl⟩ := Nat.exists_eq_add_of_le' hle
  rw [← Nat.add_assoc, run_of_moves hmove, hrun _ (Nat.le_add_left _ _)]

-- A run that has come to an end ends so with more fuel as well.
theorem run_add {s : State} {fuel : Nat} (h : (m.run fuel s).2 ≠ .unfinished) (more : Nat) :
    m.run (fuel + more) s = m.run fuel s := by
  induction fuel generalizing s with
  | zero => exact (h rfl).elim
  | succ fuel ih =>
    rw [Nat.add_right_comm, run_succ, run_succ]
    rw [run_succ] at h
    cases hat : m.program.code[s.pc]? with
    | none => rfl
    | some instr =>
      simp only [hat] at h ⊢
      split
      · rfl
      · rename_i hl
        rw [if_neg hl] at h
        cases hstep : m.step instr s with
        | mk s' fault? =>
          cases fault? with
          | some fault => rfl
          | none =>
            rw [hstep] at h
            exact ih h

theorem stops_of_run {s : State} {fuel : Nat} (h : (m.run fuel s).2 ≠ .unfinished) :
    m.Stops s (m.run fuel s) := by
  refine ⟨h, fuel, fun fuel' hle => ?_⟩
  obtain ⟨more, rfl⟩ := Nat.exists_eq_add_of_le hle
  exact run_add h more

theorem run_of_reaches {s s' : State} (h : m.Reaches s s') :
    ∃ steps, ∀ fuel, m.run (fuel + steps) s = m.run fuel s' := by
  induction h with
  | refl => exact ⟨0, fun _ => rfl⟩
  | tail _ hmove ih =>
    obtain ⟨steps, ih⟩ := ih
    refine ⟨steps + 1, fun fuel => ?_⟩
    have hstep := ih (fuel + 1)
    rw [run_of_moves hmove] at hstep
    rw [← hstep]
    congr 1
    omega

-- With enough fuel a run gets as far as that, and there is some left.
theorem run_past {s s' : State} (h : m.Reaches s s') :
    ∃ enough, ∀ fuel, enough ≤ fuel → ∃ more, m.run fuel s = m.run (more + 1) s' := by
  obtain ⟨steps, hrun⟩ := run_of_reaches h
  refine ⟨steps + 1, fun fuel hle => ?_⟩
  obtain ⟨more, rfl⟩ := Nat.exists_eq_add_of_le' hle
  refine ⟨more, ?_⟩
  rw [← hrun (more + 1)]
  congr 1
  omega

theorem run_finishes {s s' : State} (h : m.Reaches s s') (hend : m.program.code[s'.pc]? = none) :
    ∃ enough, ∀ fuel, enough ≤ fuel → m.run fuel s = (s', .finished) := by
  obtain ⟨enough, hpast⟩ := run_past h
  refine ⟨enough, fun fuel hle => ?_⟩
  obtain ⟨more, hrun⟩ := hpast fuel hle
  rw [hrun, run_of_end hend]

theorem run_fails {s t s' : State} {instr : Instr} {fault : Fault} (h : m.Reaches s t)
    (hat : m.program.code[t.pc]? = some instr) (hl : m.atLimit t = false)
    (hs : m.step instr t = (s', some fault)) :
    ∃ enough, ∀ fuel, enough ≤ fuel → m.run fuel s = (s', .stopped fault) := by
  obtain ⟨enough, hpast⟩ := run_past h
  refine ⟨enough, fun fuel hle => ?_⟩
  obtain ⟨more, hrun⟩ := hpast fuel hle
  rw [hrun, run_of_fault hat hl hs]

-- How a run ends in a state: the fuel is used up there, there is no instruction, the limit is
-- reached, or the step from there fails.
inductive Ends (m : Machine) (s : State) : State × Outcome → Prop where
  | unfinished : Ends m s (s, .unfinished)
  | finished (hat : m.program.code[s.pc]? = none) : Ends m s (s, .finished)
  | limit {instr : Instr} (hat : m.program.code[s.pc]? = some instr) (hl : m.atLimit s = true) :
      Ends m s (s, .stopped (.failure ⟨.stepLimit, instr.word.line, Bytes.ofInt m.limit⟩))
  | fault {instr : Instr} {s' : State} {fault : Fault} (hat : m.program.code[s.pc]? = some instr)
      (hs : m.step instr s = (s', some fault)) : Ends m s (s', .stopped fault)

theorem run_ends (fuel : Nat) (s : State) : ∃ t, m.Reaches s t ∧ m.Ends t (m.run fuel s) := by
  induction fuel generalizing s with
  | zero => exact ⟨s, .refl, .unfinished⟩
  | succ fuel ih =>
    cases hat : m.program.code[s.pc]? with
    | none =>
      rw [run_of_end hat]
      exact ⟨s, .refl, .finished hat⟩
    | some instr =>
      cases hl : m.atLimit s with
      | true =>
        have hrun : m.run (fuel + 1) s =
            (s, .stopped (.failure ⟨.stepLimit, instr.word.line, Bytes.ofInt m.limit⟩)) := by
          rw [run_succ, hat]
          simp [hl]
        rw [hrun]
        exact ⟨s, .refl, .limit hat hl⟩
      | false =>
        cases hs : m.step instr s with
        | mk s' fault? =>
          cases fault? with
          | none =>
            have hmove : m.Moves s s' := ⟨instr, hat, hl, hs⟩
            obtain ⟨t, hreach, hends⟩ := ih s'
            rw [run_of_moves hmove]
            exact ⟨t, .head hmove hreach, hends⟩
          | some fault =>
            rw [run_of_fault hat hl hs]
            exact ⟨s, .refl, .fault hat hs⟩

end LineBasic.Machine
