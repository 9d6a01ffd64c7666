import LineBasic.Proofs.Machine.Run

namespace LineBasic.Machine

-- A run without a failure from one state to another, with the states before each of its steps.
inductive Path (m : Machine) : State → List State → State → Prop where
  | here (s : State) : Path m s [] s
  | move {s s' t : State} {vs : List State} (hm : m.Moves s s') (h : Path m s' vs t) :
      Path m s (s :: vs) t

variable {m : Machine} {s t : State} {vs ws : List State}

-- A path can be cut at each of its states.
theorem path_append : m.Path s (vs ++ ws) t ↔ ∃ u, m.Path s vs u ∧ m.Path u ws t := by
  constructor
  · intro h
    induction vs generalizing s with
    | nil => exact ⟨s, .here s, h⟩
    | cons v vs ih =>
      cases h with
      | move hmove hrest =>
        obtain ⟨u, hleft, hright⟩ := ih hrest
        exact ⟨u, .move hmove hleft, hright⟩
  · rintro ⟨u, hleft, hright⟩
    induction hleft with
    | here => exact hright
    | move hmove _ ih => exact .move hmove (ih hright)

-- The state that a path starts from is followed by the one that its first step leads to.
theorem path_cons {v : State} :
    m.Path s (v :: vs) t ↔ v = s ∧ ∃ s', m.Moves s s' ∧ m.Path s' vs t := by
  constructor
  · intro h
    cases h with
    | move hmove hrest => exact ⟨rfl, _, hmove, hrest⟩
  · rintro ⟨rfl, s', hmove, hrest⟩
    exact .move hmove hrest

theorem Path.reaches (h : m.Path s vs t) : m.Reaches s t := by
  induction h with
  | here => exact .refl
  | move hmove _ ih => exact .head hmove ih

-- Every step is counted, a failing one too.
theorem step_steps (m : Machine) (instr : Instr) (s : State) :
    (m.step instr s).1.steps = s.steps + 1 := by
  have hresult := step_result m s instr
  cases hstep : m.step instr s with
  | mk s' fault? =>
    rw [hstep] at hresult
    cases fault? with
    | none =>
      cases hresult with
      | plain _ _ hs => exact hs
      | _ => rfl
    | some fault => exact hresult.1.steps

theorem steps_of_moves (h : m.Moves s t) : t.steps = s.steps + 1 := by
  obtain ⟨instr, -, -, hstep⟩ := h
  have hsteps := step_steps m instr s
  rwa [hstep] at hsteps

theorem Path.steps (h : m.Path s vs t) : t.steps = s.steps + vs.length := by
  induction h with
  | here => rfl
  | move hmove _ ih =>
    rw [ih, steps_of_moves hmove, List.length_cons]
    omega

-- No run takes more steps than it has fuel.
theorem steps_run_le (fuel : Nat) (s : State) : (m.run fuel s).1.steps ≤ s.steps + fuel := by
  induction fuel generalizing s with
  | zero => exact Nat.le_refl _
  | succ fuel ih =>
    rw [run_succ]
    cases hat : m.program.code[s.pc]? with
    | none => exact Nat.le_add_right _ _
    | some instr =>
      dsimp only
      split
      · exact Nat.le_add_right _ _
      · have hsteps := step_steps m instr s
        cases hstep : m.step instr s with
        | mk s' fault? =>
          rw [hstep] at hsteps
          cases fault? with
          | none =>
            have := ih s'
            dsimp only at hsteps ⊢
            omega
          | some fault =>
            dsimp only at hsteps ⊢
            omega

def history (m : Machine) (fuel : Nat) (s : State) : List State :=
  (m.runWith (fun seen _ v => seen ++ [v]) fuel [] s).1

theorem runWith_path {fuel : Nat} (h : (m.run fuel s).2 = .unfinished) (seen : List State) :
    ∃ vs, (m.runWith (fun seen _ v => seen ++ [v]) fuel seen s).1 = seen ++ vs ∧
      m.Path s vs (m.run fuel s).1 ∧ vs.length = fuel := by
  induction fuel generalizing s seen with
  | zero => exact ⟨[], by simp [runWith], .here s, rfl⟩
  | succ fuel ih =>
    rw [run_succ] at h ⊢
    rw [runWith]
    cases hat : m.program.code[s.pc]? with
    | none => simp [hat] at h
    | some instr =>
      cases hl : m.atLimit s with
      | true => simp [hat, hl] at h
      | false =>
        cases hstep : m.step instr s with
        | mk s' fault? =>
          simp only [hat, hl, hstep, Bool.false_eq_true, if_false] at h ⊢
          cases fault? with
          | some fault => simp at h
          | none =>
            obtain ⟨vs, hseen, hpath, hlength⟩ := ih h (seen ++ [s])
            refine ⟨s :: vs, by simp [hseen], .move ⟨instr, hat, hl, hstep⟩ hpath, ?_⟩
            rw [List.length_cons, hlength]

-- A run that is cut short has gone along a path of as many steps as it had fuel.
theorem path_of_unfinished {fuel : Nat} (h : m.run fuel s = (t, .unfinished)) :
    m.Path s (m.history fuel s) t ∧ (m.history fuel s).length = fuel := by
  obtain ⟨vs, hseen, hpath, hlength⟩ := runWith_path (congrArg Prod.snd h) []
  have hhistory : m.history fuel s = vs := hseen
  rw [hhistory]
  rw [h] at hpath
  exact ⟨hpath, hlength⟩

end LineBasic.Machine
