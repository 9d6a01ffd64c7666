import LineBasic.Proofs.Machine.Path
import LineBasic.Proofs.Program.Acceptance

namespace LineBasic

namespace Instr

def isGosub : Instr → Bool
  | .simple (.gosub _ _) => true
  | _ => false

def isReturn : Instr → Bool
  | .simple (.ret _) => true
  | _ => false

end Instr

namespace Machine

variable {m : Machine} {s s' t : State} {vs : List State}

def executes (m : Machine) (test : Instr → Bool) (s : State) : Bool :=
  m.program.code[s.pc]?.any test

theorem executes_eq {instr : Instr} (hat : m.program.code[s.pc]? = some instr)
    (test : Instr → Bool) : m.executes test s = test instr := by
  simp [executes, hat]

inductive Stacks (m : Machine) (s s' : State) : Prop where
  | keep {instr : Instr} (hat : m.program.code[s.pc]? = some instr) (hg : instr.isGosub = false)
      (hr : instr.isReturn = false) (hs : s'.env.returns = s.env.returns)
  | call {keyword label : Word} (hat : m.program.code[s.pc]? = some (.simple (.gosub keyword label)))
      (hs : s'.env.returns = (s.pc + 1) :: s.env.returns)
  | back {keyword : Word} (hat : m.program.code[s.pc]? = some (.simple (.ret keyword)))
      (hs : s.env.returns = s'.pc :: s'.env.returns)

theorem stacks_of_moves (h : m.Moves s s') : m.Stacks s s' := by
  obtain ⟨instr, hat, htransfer⟩ := transfer_of_moves h
  cases htransfer with
  | @plain stmt _ hp _ _ hr _ =>
    cases stmt with
    | gosub keyword label => cases hp
    | ret keyword => cases hp
    | _ => exact .keep hat rfl rfl hr
  | gosub hl => exact .call hat rfl
  | ret hr => exact .back hat hr
  | _ => exact .keep hat rfl rfl rfl

-- While the stack stays higher than `rest`, the position on top of `rest` stays where it is. The
-- step that takes it away is a RETURN, and it goes to that position.
theorem returns_of_path {position : Nat} {above rest : List Nat} (h : m.Path s vs t)
    (hs : s.env.returns = above ++ position :: rest)
    (hlong : ∀ v ∈ vs, rest.length < v.env.returns.length) :
    (∃ above', t.env.returns = above' ++ position :: rest) ∨
      t.env.returns = rest ∧ t.pc = position ∧ ∃ inner last keyword, vs = inner ++ [last] ∧
        m.program.code[last.pc]? = some (.simple (.ret keyword)) := by
  induction h generalizing above with
  | here => exact .inl ⟨above, hs⟩
  | @move v v' t vs hmove hrest ih =>
    have hlong' : ∀ u ∈ vs, rest.length < u.env.returns.length :=
      fun u hu => hlong u (List.mem_cons_of_mem _ hu)
    have hgoes {above' : List Nat} (hs' : v'.env.returns = above' ++ position :: rest) :
        (∃ above', t.env.returns = above' ++ position :: rest) ∨
          t.env.returns = rest ∧ t.pc = position ∧ ∃ inner last keyword,
            v :: vs = inner ++ [last] ∧
              m.program.code[last.pc]? = some (.simple (.ret keyword)) := by
      refine (ih hs' hlong').imp_right ?_
      rintro ⟨hr, hpc, inner, last, keyword, rfl, hat⟩
      exact ⟨hr, hpc, v :: inner, last, keyword, rfl, hat⟩
    cases stacks_of_moves hmove with
    | keep _ _ _ hkeep => exact hgoes (hkeep.trans hs)
    | call _ hcall =>
      have hs' : v'.env.returns = ((v.pc + 1) :: above) ++ position :: rest := by
        rw [hcall, hs, List.cons_append]
      exact hgoes hs'
    | @back keyword hat hback =>
      rw [hback] at hs
      cases above with
      | cons other above => exact hgoes (List.cons.inj hs).2
      | nil =>
        obtain ⟨hpc, hr⟩ := List.cons.inj hs
        -- The stack is down to `rest`, so the path has no further state.
        cases hrest with
        | here => exact .inr ⟨hr, hpc, [], v, keyword, rfl, hat⟩
        | move _ _ =>
          have hlow := hlong' v' List.mem_cons_self
          rw [hr] at hlow
          exact (Nat.lt_irrefl _ hlow).elim

-- The stack has one position for each GOSUB without its RETURN.
theorem length_returns_of_path (h : m.Path s vs t) :
    t.env.returns.length + vs.countP (m.executes Instr.isReturn) =
      s.env.returns.length + vs.countP (m.executes Instr.isGosub) := by
  induction h with
  | here => rfl
  | @move v v' t vs hmove _ hcount =>
    rw [List.countP_cons, List.countP_cons]
    cases stacks_of_moves hmove with
    | keep hat hg hr hs =>
      rw [executes_eq hat, executes_eq hat, hg, hr]
      rw [hs] at hcount
      simpa using hcount
    | call hat hs =>
      have hg : m.executes Instr.isGosub v = true := executes_eq hat _
      have hr : m.executes Instr.isReturn v = false := executes_eq hat _
      rw [hs, List.length_cons] at hcount
      rw [if_pos hg, if_neg (by simp [hr])]
      omega
    | back hat hs =>
      have hg : m.executes Instr.isGosub v = false := executes_eq hat _
      have hr : m.executes Instr.isReturn v = true := executes_eq hat _
      rw [hs, List.length_cons, if_pos hr, if_neg (by simp [hg])]
      omega

theorem step_ret_fails_iff (m : Machine) (keyword : Word) (s : State) :
    (m.step (.simple (.ret keyword)) s).2 =
        some (.failure ⟨.returnWithoutGosub, keyword.line, []⟩) ↔
      s.env.returns = [] := by
  simp only [step, execute, executeStmt, Env.pop]
  cases s.env.returns with
  | nil => simp [fail]
  | cons position rest => simp [done]

-- GOSUBs and RETURNs are matched in every run. The first state after a GOSUB whose stack is as low
-- as before it comes from a RETURN, has the same stack and lies right behind the GOSUB, and a RETURN
-- has nowhere to go exactly if as many RETURNs as GOSUBs have been executed.
theorem calls_matched (program : Program) (printer : Nat → Option Bytes) (limit : Int)
    (input : Input) :
    let m : Machine := ⟨program, printer, limit⟩
    (∀ before s inside t keyword label, m.Path (.initial input) (before ++ s :: inside) t →
      program.code[s.pc]? = some (.simple (.gosub keyword label)) →
      (∀ v ∈ inside, s.env.returns.length < v.env.returns.length) →
      t.env.returns.length ≤ s.env.returns.length →
        t.env.returns = s.env.returns ∧ t.pc = s.pc + 1 ∧ ∃ inner last keyword',
          inside = inner ++ [last] ∧ program.code[last.pc]? = some (.simple (.ret keyword'))) ∧
    ∀ before t keyword, m.Path (.initial input) before t →
      program.code[t.pc]? = some (.simple (.ret keyword)) →
        ((m.step (.simple (.ret keyword)) t).2 =
            some (.failure ⟨.returnWithoutGosub, keyword.line, []⟩) ↔
          before.countP (m.executes Instr.isReturn) = before.countP (m.executes Instr.isGosub)) := by
  intro m
  constructor
  · intro before s inside t keyword label hpath hat hlong hshort
    obtain ⟨_, -, hpath⟩ := path_append.mp hpath
    obtain ⟨rfl, s', hmove, hinside⟩ := path_cons.mp hpath
    have hcall : s'.env.returns = [] ++ (s.pc + 1) :: s.env.returns := by
      cases stacks_of_moves hmove with
      | keep hat' hg =>
        cases hat.symm.trans hat'
        cases hg
      | call _ hs => exact hs
      | back hat' => cases hat.symm.trans hat'
    obtain ⟨above, ht⟩ | hback := returns_of_path hinside hcall hlong
    · rw [ht] at hshort
      simp only [List.length_append, List.length_cons] at hshort
      omega
    · exact hback
  · intro before t keyword hpath _
    have hcount := length_returns_of_path hpath
    have hempty : (State.initial input).env.returns = [] := rfl
    rw [hempty, List.length_nil] at hcount
    rw [step_ret_fails_iff, ← List.length_eq_zero_iff]
    omega

-- The first call goes from the GOSUB behind the FOR over the label and the assignment to the
-- RETURN, and from there to the NEXT at position 2.
theorem calls_matched_callingSource :
    ∃ program, Program.parse Program.callingSource = .ok program ∧
      let m : Machine := ⟨program, fun _ => none, 0⟩
      let after (steps : Nat) := (m.run steps (.initial ⟨[], none⟩)).1
      (after 5).env.returns = (after 1).env.returns ∧ (after 5).pc = (after 1).pc + 1 ∧
        (m.step (.simple (.ret (.ofString "RETURN" 7))) (after 4)).2 ≠
          some (.failure ⟨.returnWithoutGosub, 7, []⟩) := by
  refine ⟨_, Program.parse_callingSource, ?_⟩
  intro m after
  obtain ⟨hmatched, hfails⟩ := calls_matched (.ofBlock Program.calling) (fun _ => none) 0 ⟨[], none⟩
  have hcall : m.Path (.initial ⟨[], none⟩)
      ([after 0] ++ after 1 :: [after 2, after 3, after 4]) (after 5) := by
    have hsplit : m.history 5 (.initial ⟨[], none⟩) =
        [after 0] ++ after 1 :: [after 2, after 3, after 4] := by decide +kernel
    have hrun : m.run 5 (.initial ⟨[], none⟩) = (after 5, .unfinished) := by decide +kernel
    obtain ⟨hpath, -⟩ := path_of_unfinished hrun
    rwa [hsplit] at hpath
  obtain ⟨hr, hpc, -⟩ := hmatched _ _ _ _ (.ofString "GOSUB" 2) (.ofString "S" 2) hcall
    (by decide +kernel) (by decide +kernel) (by decide +kernel)
  refine ⟨hr, hpc, ?_⟩
  have hrun : m.run 4 (.initial ⟨[], none⟩) = (after 4, .unfinished) := by decide +kernel
  obtain ⟨hreturn, -⟩ := path_of_unfinished hrun
  have hcounts : (m.history 4 (.initial ⟨[], none⟩)).countP (m.executes Instr.isReturn) ≠
      (m.history 4 (.initial ⟨[], none⟩)).countP (m.executes Instr.isGosub) := by decide +kernel
  exact fun hfail => hcounts ((hfails _ _ _ hreturn (by decide +kernel)).mp hfail)

end Machine

end LineBasic
