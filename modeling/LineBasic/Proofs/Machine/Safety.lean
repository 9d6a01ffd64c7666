import LineBasic.Proofs.Expr.Evaluation
import LineBasic.Proofs.Machine.Run
import LineBasic.Proofs.Program.WellFormed
import LineBasic.Proofs.Table

namespace LineBasic

-- The place of execution lies in the program or right after it, GOSUBs return right behind a GOSUB,
-- and every active loop belongs to a FOR and counts within the range of bounds.
structure State.Safe (p : Program) (s : State) : Prop where
  pc : s.pc ≤ p.size
  returns : ∀ r ∈ s.env.returns, 1 ≤ r ∧ r ≤ p.size ∧
    ∃ keyword label, p.code[r - 1]? = some (.simple (.gosub keyword label))
  loops : ∀ entry ∈ s.env.loops,
    (∃ keyword name first last exit, p.code[entry.1]? = some (.loop keyword name first last exit)) ∧
      -2147483648 ≤ entry.2.counter ∧ entry.2.counter ≤ entry.2.last ∧ entry.2.last ≤ 2147483647

namespace Machine

variable {m : Machine} {s s' : State} {instr : Instr}

theorem safe_initial (p : Program) (input : Input) : (State.initial input).Safe p :=
  ⟨Nat.zero_le _, fun _ h => (List.not_mem_nil h).elim, fun _ h => (List.not_mem_nil h).elim⟩

theorem lt_size {p : Program} {i : Nat} (h : p.code[i]? = some instr) : i < p.size :=
  (Array.getElem?_eq_some_iff.mp h).choose

-- A loop that is entered or goes on counts within the range of bounds, the others stay.
theorem loops_enter {env : Env} {position : Nat} {frame : Frame} {name : Bytes}
    {value : Value} {P : Nat × Frame → Prop} (hl : ∀ entry ∈ env.loops, P entry)
    (hf : P (position, frame)) :
    ∀ entry ∈ ((env.enter position frame).define name value).loops, P entry := by
  intro entry he
  obtain rfl | he := Table.mem_insert he
  · exact hf
  · exact hl entry he

theorem loops_leave {env : Env} {position : Nat} {P : Nat × Frame → Prop}
    (hl : ∀ entry ∈ env.loops, P entry) : ∀ entry ∈ (env.leave position).loops, P entry :=
  fun entry he => hl entry (List.mem_filter.mp he).1

theorem safe_of_transfer (hw : m.program.WellFormed) (hs : s.Safe m.program)
    (hat : m.program.code[s.pc]? = some instr) (h : m.Transfer s instr s') :
    s'.Safe m.program := by
  have hpc := lt_size hat
  cases h with
  | plain hp hpc' _ hr hl =>
    refine ⟨?_, ?_, ?_⟩
    · rw [hpc']
      exact hpc
    · rw [hr]
      exact hs.returns
    · rw [hl]
      exact hs.loops
  | goto hl =>
    obtain ⟨-, hlabel⟩ := (hw.label _ _).mp hl
    exact ⟨Nat.le_of_lt (lt_size hlabel), hs.returns, hs.loops⟩
  | gosub hl =>
    obtain ⟨-, hlabel⟩ := (hw.label _ _).mp hl
    refine ⟨Nat.le_of_lt (lt_size hlabel), ?_, hs.loops⟩
    intro r hr
    obtain rfl | hr := List.mem_cons.mp hr
    · exact ⟨Nat.le_add_left 1 _, hpc, _, _, hat⟩
    · exact hs.returns r hr
  | ret hr =>
    have hmem (r : Nat) (h : r ∈ _) : r ∈ s.env.returns := hr ▸ h
    obtain ⟨-, hle, -⟩ := hs.returns _ (hmem _ List.mem_cons_self)
    exact ⟨hle, fun r h => hs.returns r (hmem r (List.mem_cons_of_mem _ h)), hs.loops⟩
  | stop => exact ⟨Nat.le_refl _, hs.returns, hs.loops⟩
  | yes hc => exact ⟨hpc, hs.returns, hs.loops⟩
  | no hc =>
    obtain ⟨-, he, hend, -⟩ := hw.branch _ _ _ _ _ hat
    exact ⟨Nat.le_trans he hend, hs.returns, hs.loops⟩
  | otherwise =>
    obtain ⟨i, keyword, condition, -, hif⟩ := hw.otherwise _ _ _ hat
    obtain ⟨-, -, hend, -⟩ := hw.branch _ _ _ _ _ hif
    exact ⟨hend, hs.returns, hs.loops⟩
  | enter hl hh hle =>
    refine ⟨hpc, hs.returns, loops_enter hs.loops ?_⟩
    exact ⟨⟨_, _, _, _, _, hat⟩, (Expr.bound_range hl).1, hle, (Expr.bound_range hh).2⟩
  | skip hl hh hlt =>
    obtain ⟨-, hexit, -⟩ := hw.loop _ _ _ _ _ _ hat
    exact ⟨hexit, hs.returns, loops_leave hs.loops⟩
  | again hf hle hc =>
    obtain ⟨hfor, hlow, -, hhigh⟩ := hs.loops _ (Table.mem_of_get? hf)
    refine ⟨lt_size hc, hs.returns, loops_enter hs.loops ?_⟩
    exact ⟨hfor, by dsimp only at hlow ⊢; omega, hle, hhigh⟩
  | leave hf hlt => exact ⟨hpc, hs.returns, loops_leave hs.loops⟩

theorem safe_of_halts (hs : s.Safe m.program) (hat : m.program.code[s.pc]? = some instr)
    (h : Halts s s') : s'.Safe m.program := by
  refine ⟨?_, ?_, ?_⟩
  · rw [h.pc]
    exact lt_size hat
  · rw [h.env]
    exact hs.returns
  · rw [h.env]
    exact hs.loops

theorem safe_of_moves (hw : m.program.WellFormed) (hs : s.Safe m.program) (h : m.Moves s s') :
    s'.Safe m.program := by
  obtain ⟨instr, hat, htransfer⟩ := transfer_of_moves h
  exact safe_of_transfer hw hs hat htransfer

theorem safe_of_reaches (hw : m.program.WellFormed) (hs : s.Safe m.program) (h : m.Reaches s s') :
    s'.Safe m.program := by
  induction h with
  | refl => exact hs
  | tail _ hmove ih => exact safe_of_moves hw ih hmove

-- A run ends in a safe state from a safe state, and never at a NEXT without its FOR.
theorem safe_of_ends (hw : m.program.WellFormed) (hs : s.Safe m.program) {result : State × Outcome}
    (h : m.Ends s result) : result.1.Safe m.program ∧ result.2 ≠ .stopped .stuck := by
  cases h with
  | unfinished => exact ⟨hs, fun h => by cases h⟩
  | finished hat => exact ⟨hs, fun h => by cases h⟩
  | limit hat hl => exact ⟨hs, fun h => by cases h⟩
  | @fault instr s' fault hat hstep =>
    have hresult := step_result m s instr
    rw [hstep] at hresult
    refine ⟨safe_of_halts hs hat hresult.1, fun h => ?_⟩
    cases h
    obtain ⟨keyword, header, rfl, hno⟩ := hresult.2 rfl
    obtain ⟨-, keyword', name, first, last, hc⟩ := hw.next _ _ _ hat
    exact hno _ _ _ _ _ hc

-- Every run of a parsed program stays safe. In each state there is a statement to be executed unless
-- the program is over, a NEXT finds its FOR, every expression has a value or a reason for having none,
-- and no counter overflows. No run gets stuck.
theorem run_safe {source : Bytes} {program : Program} (h : Program.parse source = .ok program)
    (printer : Nat → Option Bytes) (limit : Int) (input : Input) :
    let m : Machine := ⟨program, printer, limit⟩
    (∀ s, m.Reaches (.initial input) s → s.Safe program ∧
      (s.pc = program.size ∨ ∃ instr, program.code[s.pc]? = some instr) ∧
      (∀ keyword header, program.code[s.pc]? = some (.next keyword header) →
        ∃ keyword' name first last exit,
          program.code[header]? = some (.loop keyword' name first last exit)) ∧
      (∀ e : Expr, (∃ value, e.evaluate s.env = .ok value) ∨ ∃ failure,
        e.evaluate s.env = .error failure ∧
          failure.problem ∈ [.undefinedVariable, .operandTypes, .divisionByZero, .modulusByZero]) ∧
      ∀ entry ∈ s.env.loops, entry.2.counter + 1 < 9223372036854775808) ∧
    ∀ fuel, (m.run fuel (.initial input)).1.Safe program ∧
      (m.run fuel (.initial input)).2 ≠ .stopped .stuck := by
  intro m
  obtain ⟨block, hp, rfl⟩ := Program.parse_eq_ok.mp h
  have hw : m.program.WellFormed := Program.wellFormed_ofBlock (Block.parse_sound hp).2.2
  have hsafe {s : State} (hreach : m.Reaches (.initial input) s) : s.Safe m.program :=
    safe_of_reaches hw (safe_initial _ input) hreach
  refine ⟨fun s hreach => ⟨hsafe hreach, ?_, ?_, ?_, ?_⟩, fun fuel => ?_⟩
  · obtain hlt | heq := Nat.lt_or_eq_of_le (hsafe hreach).pc
    · exact .inr ⟨_, Array.getElem?_eq_getElem hlt⟩
    · exact .inl heq
  · intro keyword header hat
    obtain ⟨-, keyword', name, first, last, hc⟩ := hw.next _ _ _ hat
    exact ⟨keyword', name, first, last, _, hc⟩
  · intro e
    cases heq : e.evaluate s.env with
    | ok value => exact .inl ⟨value, rfl⟩
    | error failure => exact .inr ⟨failure, rfl, List.mem_cons.mpr (Expr.evaluate_problem heq)⟩
  · intro entry he
    obtain ⟨-, -, hle, hlast⟩ := (hsafe hreach).loops entry he
    omega
  · obtain ⟨t, hreach, hends⟩ := run_ends (m := m) fuel (.initial input)
    exact safe_of_ends hw (hsafe hreach) hends

theorem run_safe_countingSource : ∃ program, Program.parse Program.countingSource = .ok program ∧
    ∀ fuel, ((⟨program, fun _ => none, 0⟩ : Machine).run fuel (.initial ⟨[], none⟩)).1.Safe
      program := by
  have h := Program.parse_eq_ok.mpr ⟨_, Program.parse_countingSource, rfl⟩
  exact ⟨_, h, fun fuel => ((run_safe h (fun _ => none) 0 ⟨[], none⟩).2 fuel).1⟩

end Machine

end LineBasic
