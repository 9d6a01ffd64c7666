import LineBasic.Proofs.Double.Integer
import LineBasic.Proofs.Machine.Observation
import LineBasic.Proofs.Machine.Path
import LineBasic.Proofs.Program.Acceptance
import LineBasic.Proofs.Program.WellFormed
import LineBasic.Proofs.Table

namespace LineBasic

-- The frame of a loop after some of its NEXTs, as long as there are rounds left.
def Frame.after? (low high : Int) (count : Nat) : Option Frame :=
  if low + count ≤ high then some ⟨low + count, high⟩ else none

namespace Frame

variable {low high : Int} {count : Nat}

theorem after?_eq_some {frame : Frame} :
    after? low high count = some frame ↔
      low + count ≤ high ∧ frame = ⟨low + count, high⟩ := by
  simp [after?, eq_comm]

theorem after?_eq_none : after? low high count = none ↔ high < low + count := by
  simp [after?]

theorem after?_succ (h : low + count + 1 ≤ high) :
    after? low high (count + 1) = some ⟨low + count + 1, high⟩ := by
  have hcast : low + (count + 1 : Nat) = low + count + 1 := by omega
  rw [after?, hcast, if_pos h]

end Frame

namespace Machine

def visits (position : Nat) (vs : List State) : Nat :=
  vs.countP fun v => decide (v.pc = position)

-- A NEXT goes back to the first statement of the body with the next value of the loop variable.
def Repeats (m : Machine) (keyword name : Word) (header : Nat) (n : Int) (s : State) : Prop :=
  (Double.ofInt n).Denotes n ∧
    ∃ s', m.step (.next keyword header) s = (s', none) ∧ s'.pc = header + 1 ∧
      s'.env.values = s.env.values.insert name.text (.number (Double.ofInt n))

-- A NEXT goes on behind the loop and keeps all variables.
def Leaves (m : Machine) (keyword : Word) (header exit : Nat) (s : State) : Prop :=
  ∃ s', m.step (.next keyword header) s = (s', none) ∧ s'.pc = exit ∧
    s'.env.values = s.env.values

-- A NEXT has no active FOR to go back to.
def Refuses (m : Machine) (keyword : Word) (header : Nat) (s : State) : Prop :=
  m.step (.next keyword header) s = fail (advance s) ⟨.nextWithoutFor, keyword.line, []⟩

variable {m : Machine} {s s' t : State} {vs : List State} {header position count : Nat}
  {next : Word} {low high : Int}

-- Only its FOR and its NEXT change the frame of a loop.
theorem get?_of_moves (hw : m.program.WellFormed)
    (hnext : m.program.code[position]? = some (.next next header)) (h : m.Moves s s')
    (hfor : s.pc ≠ header) (hpc : s.pc ≠ position) :
    s'.env.loops.get? header = s.env.loops.get? header := by
  obtain ⟨instr, hat, htransfer⟩ := transfer_of_moves h
  have hother {keyword : Word} {header' : Nat}
      (hat : m.program.code[s.pc]? = some (.next keyword header')) : header ≠ header' := by
    rintro rfl
    exact hpc (hw.next_unique hat hnext)
  cases htransfer with
  | plain _ _ _ _ hl => rw [hl]
  | enter => exact Table.get?_insert_of_ne _ _ hfor.symm
  | skip => exact Table.get?_erase_of_ne _ hfor.symm
  | again => exact Table.get?_insert_of_ne _ _ (hother hat)
  | leave => exact Table.get?_erase_of_ne _ (hother hat)
  | _ => rfl

theorem after?_of_next (hnext : m.program.code[s.pc]? = some (.next next header))
    (h : m.Moves s s') (hf : s.env.loops.get? header = Frame.after? low high count) :
    s'.env.loops.get? header = Frame.after? low high (count + 1) := by
  obtain ⟨instr, hat, htransfer⟩ := transfer_of_moves h
  cases hat.symm.trans hnext
  cases htransfer with
  | again hframe hle =>
    obtain ⟨-, rfl⟩ := Frame.after?_eq_some.mp (hf.symm.trans hframe)
    rw [Frame.after?_succ hle]
    exact Table.get?_insert_self s.env.loops _ _
  | leave hframe hlt =>
    obtain ⟨-, rfl⟩ := Frame.after?_eq_some.mp (hf.symm.trans hframe)
    have hover : high < low + (count + 1 : Nat) := by
      dsimp only at hlt
      omega
    rw [Frame.after?_eq_none.mpr hover]
    exact Table.get?_erase_self s.env.loops header

-- Until the FOR is executed again the frame depends on nothing but the number of NEXTs.
theorem after?_of_path (hw : m.program.WellFormed)
    (hnext : m.program.code[position]? = some (.next next header)) (h : m.Path s vs t)
    (hfor : ∀ v ∈ vs, v.pc ≠ header)
    (hf : s.env.loops.get? header = Frame.after? low high count) :
    t.env.loops.get? header = Frame.after? low high (count + visits position vs) := by
  induction h generalizing count with
  | here => exact hf
  | @move v v' t vs hmove _ ih =>
    have hrest : ∀ u ∈ vs, u.pc ≠ header := fun u hu => hfor u (List.mem_cons_of_mem _ hu)
    by_cases hpc : v.pc = position
    · have hvisits : visits position (v :: vs) = visits position vs + 1 :=
        List.countP_cons_of_pos (by simpa using hpc)
      rw [hvisits, Nat.add_comm _ 1, ← Nat.add_assoc]
      exact ih hrest (after?_of_next (hpc ▸ hnext) hmove hf)
    · have hvisits : visits position (v :: vs) = visits position vs :=
        List.countP_cons_of_neg (by simpa using hpc)
      rw [hvisits]
      refine ih hrest ?_
      rw [get?_of_moves hw hnext hmove (hfor v List.mem_cons_self) hpc, hf]

-- Executing a FOR starts the count, whether there are rounds or not.
theorem after?_of_loop {keyword name : Word} {first last : Expr} {exit : Nat} {x y : Double}
    (hloop : m.program.code[s.pc]? = some (.loop keyword name first last exit))
    (h : m.Moves s s') (hx : first.evaluate s.env = .ok (.number x))
    (hy : last.evaluate s.env = .ok (.number y)) :
    s'.env.loops.get? s.pc = Frame.after? x.saturated y.saturated 0 := by
  obtain ⟨instr, hat, htransfer⟩ := transfer_of_moves h
  cases hat.symm.trans hloop
  have hbounds {low high : Int} (hl : first.bound s.env keyword.line = .ok low)
      (hh : last.bound s.env keyword.line = .ok high) : low = x.saturated ∧ high = y.saturated := by
    simp only [Expr.bound, hx, hy, Except.ok.injEq, Expr.boundOf_eq_saturated] at hl hh
    exact ⟨hl.symm, hh.symm⟩
  cases htransfer with
  | enter hl hh hle =>
    obtain ⟨rfl, rfl⟩ := hbounds hl hh
    have hframe : Frame.after? x.saturated y.saturated 0 = some ⟨x.saturated, y.saturated⟩ := by
      simpa [Frame.after?] using hle
    rw [hframe]
    exact Table.get?_insert_self s.env.loops _ _
  | skip hl hh hlt =>
    obtain ⟨rfl, rfl⟩ := hbounds hl hh
    have hframe : Frame.after? x.saturated y.saturated 0 = none := by
      simpa [Frame.after?] using hlt
    rw [hframe]
    exact Table.get?_erase_self s.env.loops _

-- What a NEXT does follows from the number of NEXTs before it.
theorem next_of_after? (hw : m.program.WellFormed) {keyword name : Word} {first last : Expr}
    {exit : Nat} (hloop : m.program.code[header]? = some (.loop keyword name first last exit))
    (hnext : m.program.code[s.pc]? = some (.next next header))
    (hlow : Expr.leastBound ≤ low) (hhigh : high ≤ Expr.greatestBound)
    (hf : s.env.loops.get? header = Frame.after? low high count) :
    (low + count + 1 ≤ high → m.Repeats next name header (low + count + 1) s) ∧
      (low + count = high → m.Leaves next header exit s) ∧
      (high < low + count → m.Refuses next header s) := by
  refine ⟨fun hmore => ?_, fun hlast => ?_, fun hover => ?_⟩
  · have hframe := hf.trans (Frame.after?_eq_some.mpr ⟨by omega, rfl⟩)
    have hexact : (low + count + 1).natAbs < 2 ^ 53 := by
      unfold Expr.leastBound at hlow
      unfold Expr.greatestBound at hhigh
      omega
    exact ⟨Double.denotes_ofInt hexact, _, step_next_again m hframe hmore hloop, rfl, rfl⟩
  · have hframe := hf.trans (Frame.after?_eq_some.mpr ⟨Int.le_of_eq hlast, rfl⟩)
    have hexit : s.pc + 1 = exit := by
      obtain ⟨-, _, _, _, _, hloop'⟩ := hw.next _ _ _ hnext
      cases hloop.symm.trans hloop'
      rfl
    have hover : high < low + count + 1 := by omega
    exact ⟨_, step_next_leave m hframe hover, hexit, rfl⟩
  · have hnone := hf.trans (Frame.after?_eq_none.mpr hover)
    simp [Refuses, step, execute, continueLoop, Env.frame, hnone, advance]

-- Whatever happens between a FOR and the next time it is executed, its NEXT counts the rounds from
-- the start to the end of the loop, then leaves it once, and has no FOR to go back to after that.
-- Before the first FOR, and after a FOR that ends before it starts, there is none either.
theorem rounds_counted {source : Bytes} {program : Program}
    (hp : Program.parse source = .ok program) (printer : Nat → Option Bytes) (limit : Int)
    (input : Input) {header position exit : Nat} {keyword name next : Word} {first last : Expr}
    (hloop : program.code[header]? = some (.loop keyword name first last exit))
    (hnext : program.code[position]? = some (.next next header)) :
    let m : Machine := ⟨program, printer, limit⟩
    (∀ before t, m.Path (.initial input) before t → (∀ v ∈ before, v.pc ≠ header) →
      t.pc = position → m.Refuses next header t) ∧
    ∀ before s between t x y, m.Path (.initial input) (before ++ s :: between) t →
      s.pc = header → first.evaluate s.env = .ok (.number x) →
      last.evaluate s.env = .ok (.number y) → (∀ v ∈ between, v.pc ≠ header) →
      t.pc = position →
        let low := x.saturated
        let high := y.saturated
        let round : Int := visits position between + 1
        (low ≤ high →
          (round ≤ high - low → m.Repeats next name header (low + round) t) ∧
          (round = high - low + 1 → m.Leaves next header exit t) ∧
          (high - low + 1 < round → m.Refuses next header t)) ∧
        (high < low → m.Refuses next header t) := by
  intro m
  obtain ⟨block, hb, rfl⟩ := Program.parse_eq_ok.mp hp
  have hw : m.program.WellFormed := Program.wellFormed_ofBlock (Block.parse_sound hb).2.2
  constructor
  · intro before t hpath hfor hpc
    have hnone : (State.initial input).env.loops.get? header = Frame.after? 1 0 0 := rfl
    have hf := after?_of_path hw hnext hpath hfor hnone
    obtain ⟨-, -, hrefuses⟩ := next_of_after? hw hloop (hpc ▸ hnext) (by decide) (by decide) hf
    exact hrefuses (by omega)
  · intro before s between t x y hpath hs hx hy hfor hpc low high round
    obtain ⟨_, -, hpath⟩ := path_append.mp hpath
    obtain ⟨rfl, s', hmove, hbetween⟩ := path_cons.mp hpath
    have hstart := after?_of_loop (hs ▸ hloop) hmove hx hy
    rw [hs] at hstart
    have hf := after?_of_path hw hnext hbetween hfor hstart
    rw [Nat.zero_add] at hf
    obtain ⟨hlow, -⟩ := Expr.saturated_range x
    obtain ⟨-, hhigh⟩ := Expr.saturated_range y
    obtain ⟨hrepeats, hleaves, hrefuses⟩ := next_of_after? hw hloop (hpc ▸ hnext) hlow hhigh hf
    refine ⟨fun hle => ⟨fun hmore => ?_, fun hlast => ?_, fun hover => ?_⟩, fun hlt => ?_⟩
    · have hround : low + round = low + visits position between + 1 := (Int.add_assoc _ _ _).symm
      rw [hround]
      exact hrepeats (by omega)
    · exact hleaves (by omega)
    · exact hrefuses (by omega)
    · exact hrefuses (by omega)

-- The NEXT at position 2 sets I to 2 after the subroutine has set it to 7. Then it leaves the loop.
theorem rounds_counted_callingSource :
    ∃ program, Program.parse Program.callingSource = .ok program ∧
      let m : Machine := ⟨program, fun _ => none, 0⟩
      let after (steps : Nat) := (m.run steps (.initial ⟨[], none⟩)).1
      m.Repeats (.ofString "NEXT" 3) (.ofString "I" 1) 0 2 (after 5) ∧
        m.Leaves (.ofString "NEXT" 3) 0 3 (after 10) := by
  refine ⟨_, Program.parse_callingSource, ?_⟩
  intro m after
  have hnext : (Program.ofBlock Program.calling).code[2]? =
      some (.next (.ofString "NEXT" 3) 0) := rfl
  obtain ⟨-, hcounted⟩ :=
    rounds_counted Program.parse_callingSource (fun _ => none) 0 ⟨[], none⟩ rfl hnext
  have hlow : Double.saturated (.ofInt 1) = 1 := by decide +kernel
  have hhigh : Double.saturated (.ofInt 2) = 2 := by decide +kernel
  constructor
  · have hrun : m.run 5 (.initial ⟨[], none⟩) = (after 5, .unfinished) := by decide +kernel
    have hfor : m.history 5 (.initial ⟨[], none⟩) =
        [] ++ after 0 :: m.history 4 (after 1) := by decide +kernel
    obtain ⟨hpath, -⟩ := path_of_unfinished hrun
    rw [hfor] at hpath
    obtain ⟨hrounds, -⟩ := hcounted _ _ _ _ _ _ hpath rfl rfl rfl (by decide +kernel)
      (by decide +kernel)
    have hround : visits 2 (m.history 4 (after 1)) = 0 := by decide +kernel
    rw [hlow, hhigh, hround] at hrounds
    exact (hrounds (by decide)).1 (by decide)
  · have hrun : m.run 10 (.initial ⟨[], none⟩) = (after 10, .unfinished) := by decide +kernel
    have hfor : m.history 10 (.initial ⟨[], none⟩) =
        [] ++ after 0 :: m.history 9 (after 1) := by decide +kernel
    obtain ⟨hpath, -⟩ := path_of_unfinished hrun
    rw [hfor] at hpath
    obtain ⟨hrounds, -⟩ := hcounted _ _ _ _ _ _ hpath rfl rfl rfl (by decide +kernel)
      (by decide +kernel)
    have hround : visits 2 (m.history 9 (after 1)) = 1 := by decide +kernel
    rw [hlow, hhigh, hround] at hrounds
    exact (hrounds (by decide)).2.1 (by decide)

end Machine

end LineBasic
