import LineBasic.Proofs.Machine.Fault
import LineBasic.Proofs.Program.Acceptance

namespace LineBasic

namespace Expr

-- The first element without a value decides.
theorem evaluateAll_append_error {env : Env} {before after : List Expr} {e : Expr}
    {values : List Value} {failure : Failure} (hb : evaluateAll env before = .ok values)
    (he : e.evaluate env = .error failure) :
    evaluateAll env (before ++ e :: after) = .error failure := by
  induction before generalizing values with
  | nil => simp [evaluateAll, he]
  | cons first rest ih =>
    simp only [evaluateAll] at hb
    split at hb
    · cases hb
    · rename_i hfirst
      split at hb
      · cases hb
      · rename_i hrest
        simp [evaluateAll, hfirst, ih hrest]

end Expr

namespace Machine

-- What an instruction that fails has done: nothing to the environment, and no more to the output
-- and the input than to print the prompt and to take the line of an INPUT.
structure Spares (instr : Instr) (s s' : State) : Prop where
  env : s'.env = s.env
  output : s'.output = s.output ∨ ∃ keyword text name,
    instr = .simple (.input keyword (some text) name) ∧ s'.output = text :: s.output
  input : s'.input = s.input ∨ ∃ keyword prompt name,
    instr = .simple (.input keyword prompt name) ∧ s'.input = s.input.readLine.2

variable {m : Machine} {s s' : State} {fault : Fault}

theorem spares_advance (instr : Instr) (s : State) : Spares instr s (advance s) :=
  ⟨rfl, .inl rfl, .inl rfl⟩

theorem emit_fails {text : Bytes} (h : m.emit s text = (s', some fault)) :
    s'.output = s.output ∧ s'.input = s.input := by
  unfold emit at h
  dsimp only at h
  split at h
  · cases h
    exact ⟨rfl, rfl⟩
  · cases h

theorem emit_prints {text : Bytes} (h : m.emit s text = (s', none)) :
    s'.output = text :: s.output := by
  unfold emit at h
  dsimp only at h
  split at h
  · cases h
  · cases h
    rfl

theorem receive_fails {keyword name : Word} (h : receive keyword name s = (s', some fault)) :
    s'.output = s.output ∧ s'.input = s.input.readLine.2 := by
  unfold receive at h
  dsimp only at h
  split at h
  · cases h
    exact ⟨rfl, rfl⟩
  · cases h
    exact ⟨rfl, rfl⟩
  · split at h
    · cases h
      exact ⟨rfl, rfl⟩
    · cases h

-- An INPUT may have printed its prompt and taken a line.
theorem input_spares {keyword name : Word} {prompt : Option Bytes}
    (h : m.step (.simple (.input keyword prompt name)) s = (s', some fault)) (he : s'.env = s.env) :
    Spares (.simple (.input keyword prompt name)) s s' := by
  cases prompt with
  | none =>
    obtain ⟨houtput, hinput⟩ := receive_fails (s := advance s) h
    exact ⟨he, .inl houtput, .inr ⟨_, _, _, rfl, hinput⟩⟩
  | some text =>
    simp only [step, execute, executeStmt] at h
    split at h
    · rename_i t fault' hemit
      cases h
      obtain ⟨houtput, hinput⟩ := emit_fails hemit
      exact ⟨he, .inl houtput, .inl hinput⟩
    · rename_i t hemit
      obtain ⟨houtput, hinput⟩ := receive_fails h
      refine ⟨he, .inr ⟨_, _, _, rfl, ?_⟩, .inr ⟨_, _, _, rfl, ?_⟩⟩
      · rw [houtput, emit_prints hemit]
      · rw [hinput, emit_input hemit]

-- The other statements without a body fail before they do anything.
theorem executeStmt_spares {stmt : Stmt}
    (h : m.step (.simple stmt) s = (s', some fault)) (he : s'.env = s.env) :
    Spares (.simple stmt) s s' := by
  cases stmt with
  | input keyword prompt name => exact input_spares h he
  | print keyword elements =>
    simp only [step, execute, executeStmt] at h
    split at h
    · cases h
      exact spares_advance _ s
    · obtain ⟨houtput, hinput⟩ := emit_fails h
      exact ⟨he, .inl houtput, .inl hinput⟩
  | label name => cases h
  | stop keyword => cases h
  | _ =>
    simp only [step, execute, executeStmt] at h
    split at h
    · cases h
      exact spares_advance _ s
    · cases h

theorem step_spares {instr : Instr} (h : m.step instr s = (s', some fault)) :
    Spares instr s s' := by
  have hresult := step_result m s instr
  rw [h] at hresult
  have he : s'.env = s.env := hresult.1.env
  cases instr with
  | simple stmt => exact executeStmt_spares h he
  | branch keyword condition elseBranch endif =>
    rw [step_branch] at h
    split at h
    · cases h
      exact spares_advance _ s
    · cases h
    · cases h
  | otherwise keyword endif => cases h
  | loop keyword name first last exit =>
    rw [step_loop] at h
    split at h
    · cases h
      exact spares_advance _ s
    · split at h
      · cases h
        exact spares_advance _ s
      · split at h <;> cases h
  | next keyword header =>
    simp only [step, execute, continueLoop] at h
    split at h
    · cases h
      exact spares_advance _ s
    · split at h
      · cases h
      · split at h
        · cases h
        · cases h
          exact spares_advance _ s

-- A failing statement changes nothing in the environment, and the state in which a run stops is one
-- that it has reached, but for the prompt and the line of an INPUT. A PRINT prints nothing unless
-- all of its elements have values, and a FOR starts nothing unless both of its bounds have.
theorem failing_step_spares (m : Machine) (s : State) :
    (∀ instr s' fault, m.step instr s = (s', some fault) → Spares instr s s') ∧
    (∀ keyword before e after values failure,
      Expr.evaluateAll s.env before = .ok values → e.evaluate s.env = .error failure →
        m.step (.simple (.print keyword (before ++ e :: after))) s = fail (advance s) failure) ∧
    (∀ keyword name first last exit low failure,
      first.bound s.env keyword.line = .ok low → last.bound s.env keyword.line = .error failure →
        m.step (.loop keyword name first last exit) s = fail (advance s) failure) ∧
    ∀ fuel s' fault, m.run fuel s = (s', .stopped fault) →
      ∃ t instr, m.Reaches s t ∧ m.program.code[t.pc]? = some instr ∧ Spares instr t s' := by
  refine ⟨fun _ _ _ h => step_spares h, ?_, ?_, ?_⟩
  · intro keyword before e after values failure hb he
    simp only [step, execute, executeStmt, Expr.evaluateAll_append_error hb he, advance]
  · intro keyword name first last exit low failure hl hh
    simp only [step, execute, startLoop, hl, hh, advance]
  · intro fuel s' fault hrun
    obtain ⟨t, hreach, hends⟩ := run_ends (m := m) fuel s
    rw [hrun] at hends
    cases hends with
    | limit hat _ => exact ⟨_, _, hreach, hat, rfl, .inl rfl, .inl rfl⟩
    | fault hat hs => exact ⟨_, _, hreach, hat, step_spares hs⟩

-- PRINT "H"; X and FOR I = 1 TO X fail without an X, and leave nothing behind.
theorem failing_step_spares_initial :
    let m : Machine := ⟨.ofBlock .done, fun _ => none, 0⟩
    let s : State := .initial ⟨[], none⟩
    let x : Word := .ofString "X" 1
    m.step (.simple (.print (.ofString "PRINT" 1)
      [.string (Bytes.ofString "H") (.ofString "\"H\"" 1), .variable x])) s =
        fail (advance s) ⟨.undefinedVariable, 1, x.text⟩ ∧
    m.step (.loop (.ofString "FOR" 1) (.ofString "I" 1) (.number (.ofInt 1) (.ofString "1" 1))
      (.variable x) 2) s = fail (advance s) ⟨.undefinedVariable, 1, x.text⟩ := by
  intro m s x
  obtain ⟨-, hprint, hloop, -⟩ := failing_step_spares m s
  have hone : Expr.bound s.env 1 (.number (.ofInt 1) (.ofString "1" 1)) =
      .ok (Expr.boundOf (.ofInt 1)) := rfl
  exact ⟨hprint _ [.string (Bytes.ofString "H") (.ofString "\"H\"" 1)] _ [] _ _ rfl rfl,
    hloop _ _ _ _ _ _ _ hone rfl⟩

end Machine

end LineBasic
