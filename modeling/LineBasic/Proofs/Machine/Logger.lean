import LineBasic.Proofs.Machine.Run

namespace LineBasic.Machine

variable {σ τ : Type} {observe : σ → Instr → State → σ} {observe' : τ → Instr → State → τ}

-- Where one observer sees what another one makes of its own view, the runs are the same and the
-- views stay related.
theorem runWith_map (m : Machine) (f : σ → τ)
    (h : ∀ seen instr s, f (observe seen instr s) = observe' (f seen) instr s) (fuel : Nat)
    (seen : σ) (s : State) :
    m.runWith observe' fuel (f seen) s = (m.runWith observe fuel seen s).map f id := by
  induction fuel generalizing seen s with
  | zero => rfl
  | succ fuel ih =>
    rw [runWith, runWith]
    cases m.program.code[s.pc]? with
    | none => rfl
    | some instr =>
      dsimp only
      split
      · rfl
      · rw [← h]
        cases m.step instr s with
        | mk s' fault? =>
          cases fault? with
          | none => exact ih (observe seen instr s) s'
          | some fault => rfl

-- An observer has no influence on the run that it sees.
theorem runWith_snd (m : Machine) (observe : σ → Instr → State → σ) (fuel : Nat) (seen : σ)
    (s : State) : (m.runWith observe fuel seen s).2 = m.run fuel s :=
  (congrArg Prod.snd (m.runWith_map (fun _ => ()) (fun _ _ _ => rfl) fuel seen s)).symm

-- The entries of the steps of a run stand behind those of before, and do not depend on them.
theorem runWith_log {α : Type} (m : Machine) (entry : Instr → State → α) (fuel : Nat)
    (log : List α) (s : State) :
    m.runWith (fun log instr v => entry instr v :: log) fuel log s =
      (m.runWith (fun log instr v => entry instr v :: log) fuel [] s).map (· ++ log) id :=
  m.runWith_map (· ++ log) (fun _ _ _ => rfl) fuel [] s

-- What keeps the log of a source that is run: it is told of the parsed program, of every step
-- before it is taken, and of the end of the run, with whether the run was free of failures.
structure Logger (σ : Type) where
  parsed : σ → Program → σ
  step : σ → Instr → State → σ
  finished : σ → Bool → State → σ

namespace Logger

-- The log at the end of a run. A run whose fuel did not last has not come to its end.
def close (l : Logger σ) (log : σ) (s : State) : Outcome → σ
  | .finished => l.finished log true s
  | .stopped _ => l.finished log false s
  | .unfinished => log

-- Parses a source and runs it from its start with a log. Nothing is told of a source that cannot
-- be parsed.
def runSource (l : Logger σ) (log : σ) (source : Bytes) (printer : Nat → Option Bytes)
    (limit : Int) (fuel : Nat) (input : Input) : σ × State × Outcome :=
  match Program.parse source with
  | .error failure => (log, .initial input, .stopped (.failure failure))
  | .ok program =>
    let (log, s, outcome) :=
      (Machine.mk program printer limit).runWith l.step fuel (l.parsed log program) (.initial input)
    (l.close log s outcome, s, outcome)

theorem runSource_snd (l : Logger σ) (log : σ) (source : Bytes) (printer : Nat → Option Bytes)
    (limit : Int) (fuel : Nat) (input : Input) :
    (l.runSource log source printer limit fuel input).2 =
      Machine.runSource source printer limit fuel input := by
  unfold runSource Machine.runSource
  cases Program.parse source with
  | error failure => rfl
  | ok program => exact runWith_snd _ l.step fuel _ _

end Logger

end LineBasic.Machine
