import LineBasic.Proofs.Machine.Run
import LineBasic.Proofs.Program.WellFormed
import Mathlib.Data.Multiset.DershowitzManna
import Mathlib.Tactic.Abel

namespace LineBasic

namespace Program

-- Every GOTO and GOSUB to a declared label leads to a position behind its own.
def JumpsForward (p : Program) : Prop :=
  ∀ (i : Nat) (h : i < p.code.size), ∀ word ∈ p.code[i].target?,
    ∀ label ∈ p.labels.lookup? word.text, i < label.position

instance (p : Program) : Decidable p.JumpsForward :=
  inferInstanceAs (Decidable (∀ (i : Nat) (h : i < p.code.size), ∀ word ∈ p.code[i].target?,
    ∀ label ∈ p.labels.lookup? word.text, i < label.position))

theorem JumpsForward.lt {p : Program} (hf : p.JumpsForward) {i : Nat} {instr : Instr} {word : Word}
    {label : Label} (hat : p.code[i]? = some instr) (ht : instr.target? = some word)
    (hl : p.labels.lookup? word.text = some label) : i < label.position := by
  obtain ⟨h, rfl⟩ := Array.getElem?_eq_some_iff.mp hat
  exact hf i h word ht label hl

end Program

-- One position, the first of the body, for each round that a loop may still go back for.
def Frame.rounds (header : Nat) (frame : Frame) : Multiset Nat :=
  .replicate (frame.last - frame.counter).toNat (header + 1)

-- The positions of the rounds of all loops.
def Table.rounds : Table Nat Frame → Multiset Nat
  | [] => 0
  | (header, frame) :: rest => frame.rounds header + rounds rest

-- Every position at which execution stands or to which it may still go back.
def State.arrivals (s : State) : Multiset Nat :=
  {s.pc} + (s.env.returns : Multiset Nat) + Table.rounds s.env.loops

theorem Frame.rounds_succ {header : Nat} {frame : Frame} (h : frame.counter + 1 ≤ frame.last) :
    frame.rounds header =
      {header + 1} + Frame.rounds header ⟨frame.counter + 1, frame.last⟩ := by
  have hcount : (frame.last - frame.counter).toNat =
      (frame.last - (frame.counter + 1)).toNat + 1 := by omega
  rw [rounds, rounds, hcount, Multiset.replicate_succ, Multiset.singleton_add]

namespace Table

-- A frame takes the place of the one with the same position, if there is one.
theorem rounds_insert (loops : Table Nat Frame) (header : Nat) :
    ∃ kept, rounds loops = kept + (loops.get? header).elim 0 (Frame.rounds header) ∧
      ∀ frame : Frame, rounds (loops.insert header frame) = kept + frame.rounds header := by
  induction loops with
  | nil => exact ⟨0, rfl, fun frame => by simp [insert, rounds]⟩
  | cons entry rest ih =>
    obtain ⟨k, f⟩ := entry
    obtain ⟨kept, hget, hinsert⟩ := ih
    by_cases hk : k = header
    · subst hk
      refine ⟨rounds rest, ?_, fun frame => ?_⟩
      · rw [rounds, add_comm]
        simp [get?]
      · rw [insert, if_pos rfl, rounds, add_comm]
    · have hbeq : (header == k) = false := by simpa using fun h : header = k => hk h.symm
      refine ⟨f.rounds k + kept, ?_, fun frame => ?_⟩
      · rw [rounds, hget, add_assoc]
        simp [get?, List.lookup_cons, hbeq]
      · rw [insert, if_neg hk, rounds, hinsert, add_assoc]

theorem rounds_erase (loops : Table Nat Frame) (header : Nat) :
    ∃ gone, rounds loops = rounds (loops.erase header) + gone := by
  induction loops with
  | nil => exact ⟨0, rfl⟩
  | cons entry rest ih =>
    obtain ⟨k, f⟩ := entry
    obtain ⟨gone, hgone⟩ := ih
    unfold erase at hgone ⊢
    by_cases hk : k = header
    · refine ⟨f.rounds k + gone, ?_⟩
      rw [List.filter_cons_of_neg (by simpa using hk), rounds, hgone]
      exact add_left_comm _ _ _
    · refine ⟨gone, ?_⟩
      rw [List.filter_cons_of_pos (by simpa using hk), rounds, rounds, hgone, add_assoc]

end Table

-- Some positions, `i` among them, make room for positions behind `i`.
def Advances (i : Nat) (before after : Multiset Nat) : Prop :=
  ∃ kept gone new, before = kept + gone ∧ after = kept + new ∧ i ∈ gone ∧ ∀ j ∈ new, i < j

-- In the distances to the end of the program this is a descent.
theorem Advances.isDershowitzMannaLT {i size : Nat} {before after : Multiset Nat}
    (h : Advances i before after) (hi : i < size) :
    (after.map (size - ·)).IsDershowitzMannaLT (before.map (size - ·)) := by
  obtain ⟨kept, gone, new, rfl, rfl, hgone, hnew⟩ := h
  refine ⟨kept.map (size - ·), new.map (size - ·), gone.map (size - ·), ?_,
    Multiset.map_add _ _ _, Multiset.map_add _ _ _, ?_⟩
  · intro hempty
    rw [Multiset.empty_eq_zero, Multiset.map_eq_zero] at hempty
    rw [hempty] at hgone
    exact Multiset.notMem_zero i hgone
  · intro y hy
    obtain ⟨j, hj, rfl⟩ := Multiset.mem_map.mp hy
    have hlt := hnew j hj
    exact ⟨size - i, Multiset.mem_map_of_mem _ hgone, by omega⟩

namespace Machine

variable {m : Machine} {s s' : State}

theorem advances_jump (hlt : s.pc < s'.pc) (hr : s'.env.returns = s.env.returns)
    (hl : s'.env.loops = s.env.loops) : Advances s.pc s.arrivals s'.arrivals := by
  refine ⟨s.env.returns + Table.rounds s.env.loops, {s.pc}, {s'.pc}, ?_, ?_, by simp, by simpa⟩
  · rw [State.arrivals, add_assoc, add_comm]
  · rw [State.arrivals, hr, hl, add_assoc, add_comm]

theorem advances_leave {header : Nat} (hlt : s.pc < s'.pc) (hr : s'.env.returns = s.env.returns)
    (hl : s'.env.loops = s.env.loops.erase header) : Advances s.pc s.arrivals s'.arrivals := by
  obtain ⟨gone, hgone⟩ := Table.rounds_erase s.env.loops header
  refine ⟨s.env.returns + Table.rounds (s.env.loops.erase header), {s.pc} + gone, {s'.pc}, ?_, ?_,
    by simp, by simpa⟩
  · rw [State.arrivals, hgone]
    abel
  · rw [State.arrivals, hr, hl]
    abel

theorem advances_of_transfer (hw : m.program.WellFormed) (hf : m.program.JumpsForward)
    {instr : Instr} (hat : m.program.code[s.pc]? = some instr) (h : m.Transfer s instr s') :
    Advances s.pc s.arrivals s'.arrivals := by
  have hpc : s.pc < m.program.size := (Array.getElem?_eq_some_iff.mp hat).choose
  cases h with
  | plain _ hpc' _ hr hl => exact advances_jump (by omega) hr hl
  | goto hl => exact advances_jump (hf.lt hat rfl hl) rfl rfl
  | @gosub keyword name label hl =>
    have hlt := hf.lt hat rfl hl
    refine ⟨s.env.returns + Table.rounds s.env.loops, {s.pc}, {label.position} + {s.pc + 1},
      ?_, ?_, by simp, by simpa using hlt⟩
    · rw [State.arrivals, add_assoc, add_comm]
    · rw [State.arrivals, Env.push, ← Multiset.cons_coe, ← Multiset.singleton_add]
      abel
  | @ret keyword position rest hr =>
    refine ⟨{position} + rest + Table.rounds s.env.loops, {s.pc}, 0, ?_, ?_, by simp, by simp⟩
    · rw [State.arrivals, hr, ← Multiset.cons_coe, ← Multiset.singleton_add]
      abel
    · rw [State.arrivals, add_zero]
  | stop => exact advances_jump hpc rfl rfl
  | yes hc => exact advances_jump (Nat.lt_succ_self _) rfl rfl
  | no hc =>
    obtain ⟨hlt, -⟩ := hw.branch _ _ _ _ _ hat
    exact advances_jump hlt rfl rfl
  | otherwise =>
    obtain ⟨i, keyword, condition, -, hif⟩ := hw.otherwise _ _ _ hat
    obtain ⟨-, hle, -⟩ := hw.branch _ _ _ _ _ hif
    exact advances_jump hle rfl rfl
  | @enter keyword name first last exit low high hl hh hle =>
    obtain ⟨kept, hget, hinsert⟩ := Table.rounds_insert s.env.loops s.pc
    refine ⟨s.env.returns + kept,
      {s.pc} + (s.env.loops.get? s.pc).elim 0 (Frame.rounds s.pc),
      {s.pc + 1} + Frame.rounds s.pc ⟨low, high⟩, ?_, ?_, by simp, ?_⟩
    · rw [State.arrivals, hget]
      abel
    · simp only [State.arrivals, Env.enter, Env.define, hinsert]
      abel
    · intro j hj
      obtain hj | hj := Multiset.mem_add.mp hj
      · rw [Multiset.mem_singleton.mp hj]
        exact Nat.lt_succ_self _
      · rw [Multiset.eq_of_mem_replicate hj]
        exact Nat.lt_succ_self _
  | skip hl hh hlt =>
    obtain ⟨hexit, -⟩ := hw.loop _ _ _ _ _ _ hat
    exact advances_leave (Nat.lt_of_succ_lt hexit) rfl rfl
  | @again keyword keyword' name header exit frame first last hframe hle hc =>
    obtain ⟨kept, hget, hinsert⟩ := Table.rounds_insert s.env.loops header
    rw [hframe, Option.elim_some, Frame.rounds_succ hle] at hget
    refine ⟨{header + 1} + s.env.returns + kept +
      Frame.rounds header ⟨frame.counter + 1, frame.last⟩, {s.pc}, 0, ?_, ?_, by simp, by simp⟩
    · rw [State.arrivals, hget]
      abel
    · simp only [State.arrivals, Env.enter, Env.define, hinsert]
      abel
  | leave hframe hlt => exact advances_leave (Nat.lt_succ_self _) rfl rfl

-- Every step replaces the position of execution by later ones, or goes back to a position that it
-- takes from those still to come. Hence a program without backward jumps cannot run forever.
theorem stops_of_jumpsForward (hw : m.program.WellFormed) (hf : m.program.JumpsForward)
    (hl : m.limit ≤ 0) (s : State) : ∃ result, m.Stops s result := by
  induction s using (InvImage.wf
    (fun s : State => s.arrivals.map (m.program.size - ·))
    Multiset.wellFounded_isDershowitzMannaLT).induction with
  | h s ih =>
    cases hat : m.program.code[s.pc]? with
    | none => exact ⟨(s, .finished), by simp, run_finishes .refl hat⟩
    | some instr =>
      have hresult := step_result m s instr
      have hfree := atLimit_of_nonpos hl s
      cases hstep : m.step instr s with
      | mk s' fault? =>
        rw [hstep] at hresult
        cases fault? with
        | some fault =>
          exact ⟨(s', .stopped fault), by simp, run_fails .refl hat hfree hstep⟩
        | none =>
          have hpc : s.pc < m.program.size := (Array.getElem?_eq_some_iff.mp hat).choose
          have hless := (advances_of_transfer hw hf hat hresult).isDershowitzMannaLT hpc
          obtain ⟨result, hstops⟩ := ih s' hless
          exact ⟨result, hstops.head ⟨instr, hat, hfree, hstep⟩⟩

-- Only backward jumps can make a program run forever.
theorem run_stops {source : Bytes} {program : Program} (hp : Program.parse source = .ok program)
    (hf : program.JumpsForward) (printer : Nat → Option Bytes) {limit : Int} (hl : limit ≤ 0)
    (input : Input) :
    ∃ result, (⟨program, printer, limit⟩ : Machine).Stops (.initial input) result := by
  obtain ⟨block, hb, rfl⟩ := Program.parse_eq_ok.mp hp
  have hw := Program.wellFormed_ofBlock (Block.parse_sound hb).2.2
  exact stops_of_jumpsForward (m := ⟨_, printer, limit⟩) hw hf hl _

theorem run_stops_callingSource :
    ∃ program, Program.parse Program.callingSource = .ok program ∧ program.JumpsForward ∧
      ∃ result, (⟨program, fun _ => none, 0⟩ : Machine).Stops (.initial ⟨[], none⟩) result := by
  have hp := Program.parse_callingSource
  have hf : (Program.ofBlock Program.calling).JumpsForward := by decide +kernel
  exact ⟨_, hp, hf, run_stops hp hf (fun _ => none) (Int.le_refl 0) ⟨[], none⟩⟩

end Machine

end LineBasic
