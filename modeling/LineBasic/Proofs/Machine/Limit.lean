import LineBasic.Proofs.Machine.Fault
import LineBasic.Proofs.Machine.Path
import LineBasic.Proofs.Program.Acceptance

namespace LineBasic.Machine

def limited (m : Machine) (steps : Nat) : Machine :=
  { m with limit := steps }

variable {m : Machine} {s t : State} {k : Nat}

theorem atLimit_limited (hk : 1 ≤ k) : (m.limited k).atLimit s = decide (k ≤ s.steps) := by
  have hpos : (0 : Int) < (m.limited k).limit := by
    show (0 : Int) < k
    omega
  rw [atLimit, decide_eq_true hpos, Bool.true_and]
  exact decide_eq_decide.mpr Int.ofNat_le

theorem reaches_limited (hk : 1 ≤ k) (h : m.Reaches s t) (hle : t.steps ≤ k) :
    (m.limited k).Reaches s t := by
  induction h with
  | refl => exact .refl
  | @tail v t _ hmove ih =>
    have hsteps := steps_of_moves hmove
    obtain ⟨instr, hat, -, hstep⟩ := hmove
    have hlimit : (m.limited k).atLimit v = false := by
      rw [atLimit_limited hk]
      exact decide_eq_false (by omega)
    exact .tail (ih (by omega)) ⟨instr, hat, hlimit, hstep⟩

theorem stops_limited (hl : m.limit ≤ 0) (hk : 1 ≤ k) {result : State × Outcome}
    (h : m.Stops s result) (hle : result.1.steps ≤ k) : (m.limited k).Stops s result := by
  obtain ⟨hne, enough, hrun⟩ := h
  refine ⟨hne, ?_⟩
  obtain ⟨t, hreach, hends⟩ := run_ends (m := m) enough s
  rw [hrun enough (Nat.le_refl _)] at hends
  cases hends with
  | unfinished => exact (hne rfl).elim
  | finished hat => exact run_finishes (reaches_limited hk hreach hle) hat
  | limit hat hat' => exact absurd hat' (by simp [atLimit_of_nonpos hl])
  | @fault instr s' fault hat hstep =>
    have hsteps := step_steps m instr t
    rw [hstep] at hsteps
    dsimp only at hsteps hle
    have hlimit : (m.limited k).atLimit t = false := by
      rw [atLimit_limited hk]
      exact decide_eq_false (by omega)
    exact run_fails (reaches_limited hk hreach (by omega)) hat hlimit hstep

-- A run that reaches the limit in front of an instruction ends there.
theorem stops_at_limit (hk : 1 ≤ k) {instr : Instr} (h : m.Reaches s t) (hsteps : t.steps = k)
    (hat : m.program.code[t.pc]? = some instr) :
    (m.limited k).Stops s
      (t, .stopped (.failure ⟨.stepLimit, instr.word.line, Bytes.ofNat k⟩)) := by
  refine ⟨by simp, ?_⟩
  obtain ⟨enough, hpast⟩ := run_past (reaches_limited hk h (Nat.le_of_eq hsteps))
  refine ⟨enough, fun fuel hle => ?_⟩
  obtain ⟨more, hrun⟩ := hpast fuel hle
  have hlimit : (m.limited k).atLimit t = true := by
    rw [atLimit_limited hk]
    exact decide_eq_true (Nat.le_of_eq hsteps.symm)
  have hat' : (m.limited k).program.code[t.pc]? = some instr := hat
  rw [hrun, run_succ, hat']
  simp only [hlimit, if_true]
  rfl

theorem run_ne_stepLimit (hl : m.limit ≤ 0) {fuel : Nat} {failure : Failure}
    (h : (m.run fuel s).2 = .stopped (.failure failure)) : failure.problem ≠ .stepLimit := by
  obtain ⟨t, -, hends⟩ := run_ends (m := m) fuel s
  generalize m.run fuel s = result at h hends
  cases hends with
  | unfinished => cases h
  | finished hat => cases h
  | limit hat hat' => exact absurd hat' (by simp [atLimit_of_nonpos hl])
  | fault hat hstep =>
    cases h
    exact (step_raises hstep).ne_stepLimit rfl

-- A run goes on for a number of steps and finds an instruction there, unless it ends by then.
theorem unfinished_or_stops (m : Machine) (s : State) (k : Nat) :
    (∃ result, m.Stops s result ∧ result.1.steps ≤ s.steps + k) ∨
      ∃ t instr, m.run k s = (t, .unfinished) ∧ m.program.code[t.pc]? = some instr := by
  have hsteps := steps_run_le (m := m) k s
  by_cases hrun : (m.run k s).2 = .unfinished
  · obtain ⟨t, ht⟩ : ∃ t, m.run k s = (t, .unfinished) := ⟨_, Prod.ext rfl hrun⟩
    cases hat : m.program.code[t.pc]? with
    | some instr => exact .inr ⟨t, instr, ht, hat⟩
    | none =>
      obtain ⟨hpath, -⟩ := path_of_unfinished ht
      rw [ht] at hsteps
      exact .inl ⟨_, ⟨by simp, run_finishes hpath.reaches hat⟩, hsteps⟩
  · exact .inl ⟨_, stops_of_run hrun, hsteps⟩

-- A limit only cuts a run off. A run that ends within it ends in the same way; of any other run the
-- limit leaves the first steps, and reports the line of the next instruction and the limit. A limit
-- that is not positive is none.
theorem stops_limited_or_cut (program : Program) (printer : Nat → Option Bytes) (input : Input)
    {free : Int} (hfree : free ≤ 0) {k : Nat} (hk : 1 ≤ k) :
    let m : Machine := ⟨program, printer, free⟩
    (∀ result, m.Stops (.initial input) result → result.1.steps ≤ k →
      (m.limited k).Stops (.initial input) result) ∧
    ((¬∃ result, m.Stops (.initial input) result ∧ result.1.steps ≤ k) →
      ∃ t instr, m.run k (.initial input) = (t, .unfinished) ∧ t.steps = k ∧
        program.code[t.pc]? = some instr ∧
        (m.limited k).Stops (.initial input)
          (t, .stopped (.failure ⟨.stepLimit, instr.word.line, Bytes.ofNat k⟩))) ∧
    ∀ fuel failure, (m.run fuel (.initial input)).2 = .stopped (.failure failure) →
      failure.problem ≠ .stepLimit := by
  intro m
  refine ⟨fun result h hle => stops_limited (m := m) hfree hk h hle, fun hno => ?_,
    fun fuel failure h => run_ne_stepLimit (m := m) hfree h⟩
  obtain ⟨result, hstops, hle⟩ | ⟨t, instr, hrun, hat⟩ :=
    unfinished_or_stops m (.initial input) k
  · rw [show (State.initial input).steps = 0 from rfl, Nat.zero_add] at hle
    exact (hno ⟨result, hstops, hle⟩).elim
  · obtain ⟨hpath, hlength⟩ := path_of_unfinished hrun
    have hsteps : t.steps = k := by
      rw [hpath.steps, hlength]
      exact Nat.zero_add k
    exact ⟨t, instr, hrun, hsteps, hat, stops_at_limit (m := m) hk hpath.reaches hsteps hat⟩

-- The program takes twelve steps, the last one at its END on line 4.
theorem stops_limited_or_cut_callingSource :
    ∃ program, Program.parse Program.callingSource = .ok program ∧
      let m : Machine := ⟨program, fun _ => none, 0⟩
      (m.limited 12).Stops (.initial ⟨[], none⟩) (m.run 13 (.initial ⟨[], none⟩)) ∧
      (m.limited 11).Stops (.initial ⟨[], none⟩)
        ((m.run 11 (.initial ⟨[], none⟩)).1, .stopped (.failure ⟨.stepLimit, 4, Bytes.ofString "11"⟩)) := by
  refine ⟨_, Program.parse_callingSource, ?_⟩
  intro m
  have hends : (m.run 13 (.initial ⟨[], none⟩)).2 = .finished := by decide +kernel
  have hsteps : (m.run 13 (.initial ⟨[], none⟩)).1.steps = 12 := by decide +kernel
  have hstops : m.Stops (.initial ⟨[], none⟩) (m.run 13 (.initial ⟨[], none⟩)) :=
    stops_of_run (by simp [hends])
  obtain ⟨hwithin, -, -⟩ := stops_limited_or_cut (.ofBlock Program.calling) (fun _ => none)
    ⟨[], none⟩ (Int.le_refl 0) (k := 12) (by decide)
  obtain ⟨-, hbeyond, -⟩ := stops_limited_or_cut (.ofBlock Program.calling) (fun _ => none)
    ⟨[], none⟩ (Int.le_refl 0) (k := 11) (by decide)
  refine ⟨hwithin _ hstops (Nat.le_of_eq hsteps), ?_⟩
  have hlong : ¬∃ result, m.Stops (.initial ⟨[], none⟩) result ∧ result.1.steps ≤ 11 := by
    rintro ⟨result, hresult, hle⟩
    rw [hresult.unique hstops, hsteps] at hle
    omega
  obtain ⟨t, instr, hrun, -, hat, hcut⟩ := hbeyond hlong
  have ht : (m.run 11 (.initial ⟨[], none⟩)).1 = t := congrArg Prod.fst hrun
  have hline : m.program.code[(m.run 11 (.initial ⟨[], none⟩)).1.pc]? =
      some (.simple (.stop (.ofString "END" 4))) := by decide +kernel
  rw [ht] at hline ⊢
  cases hline.symm.trans hat
  exact hcut

end LineBasic.Machine
