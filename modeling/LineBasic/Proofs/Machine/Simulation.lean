import LineBasic.Proofs.Machine.Observation
import LineBasic.Proofs.Machine.Run
import LineBasic.Proofs.Program.Placement
import LineBasic.Proofs.Table

namespace LineBasic

theorem Course.andThen_pass (course : Course) : course.andThen World.pass = course := by
  obtain ⟨w, ending⟩ := course
  cases ending <;> rfl

-- The place of execution and the world of a state outside of every GOSUB.
structure State.At (s : State) (pc : Nat) (w : World) : Prop where
  pc : s.pc = pc
  world : s.world = w
  returns : s.env.returns = []

-- The loops whose FOR lies before a position are the same in two states.
def State.Keeps (base : Nat) (s s' : State) : Prop :=
  ∀ position < base, s'.env.loops.get? position = s.env.loops.get? position

theorem State.keeps_enter {s s' : State} {base : Nat} {frame : Frame} {name : Bytes} {value : Value}
    (h : s'.env = (s.env.enter base frame).define name value) : s.Keeps base s' := by
  intro position hlt
  rw [h]
  exact Table.get?_insert_of_ne _ frame (Nat.ne_of_lt hlt)

theorem State.keeps_leave {s s' : State} {base : Nat} (h : s'.env = s.env.leave base) :
    s.Keeps base s' := by
  intro position hlt
  rw [h]
  exact Table.get?_erase_of_ne _ (Nat.ne_of_lt hlt)

namespace Machine

-- From a state the machine carries out a course up to a position, without a change to the loops
-- around it, or as far as the course goes.
def Carries (m : Machine) (s : State) (base exit : Nat) : Course → Prop
  | (w, .through) => ∃ s', m.Reaches s s' ∧ s'.At exit w ∧ s.Keeps base s'
  | (w, .stopped) => ∃ s', m.Reaches s s' ∧ s'.pc = m.program.size ∧ s'.world = w
  | (w, .failed fault) => ∃ t instr s', m.Reaches s t ∧ m.program.code[t.pc]? = some instr ∧
      m.step instr t = (s', some fault) ∧ s'.world = w
  | (_, .left _) => False

variable {m : Machine} {s s' : State} {base base' middle exit : Nat} {w : World} {course : Course}

theorem carries_pass (hs : s.At exit w) : m.Carries s base exit w.pass :=
  ⟨s, .refl, hs, fun _ _ => rfl⟩

theorem carries_fail {instr : Instr} {fault : Fault} (hat : m.program.code[s.pc]? = some instr)
    (hstep : m.step instr s = (s', some fault)) (hw : s'.world = w) :
    m.Carries s base exit (w, .failed fault) :=
  ⟨s, instr, s', .refl, hat, hstep, hw⟩

theorem Carries.after (h : m.Carries s' base' exit course) (hr : m.Reaches s s')
    (hk : s.Keeps base s') (hb : base ≤ base') : m.Carries s base exit course := by
  obtain ⟨w, ending⟩ := course
  cases ending with
  | through =>
    obtain ⟨t, hreach, hat, hkeeps⟩ := h
    refine ⟨t, hr.trans hreach, hat, fun position hlt => ?_⟩
    rw [hkeeps position (Nat.lt_of_lt_of_le hlt hb), hk position hlt]
  | stopped =>
    obtain ⟨t, hreach, hpc, hw⟩ := h
    exact ⟨t, hr.trans hreach, hpc, hw⟩
  | failed fault =>
    obtain ⟨t, instr, s', hreach, hrest⟩ := h
    exact ⟨t, instr, s', hr.trans hreach, hrest⟩
  | left target => exact h

theorem Carries.widen (h : m.Carries s base' exit course) (hb : base ≤ base') :
    m.Carries s base exit course :=
  h.after .refl (fun _ _ => rfl) hb

-- Two courses in a row, the second one from wherever the first one leads.
theorem Carries.andThen {next : World → Course} (h : m.Carries s base' middle course)
    (hb : base ≤ base')
    (hnext : ∀ s' w, s'.At middle w → s.Keeps base' s' → m.Carries s' base exit (next w)) :
    m.Carries s base exit (course.andThen next) := by
  obtain ⟨w, ending⟩ := course
  cases ending with
  | through =>
    obtain ⟨s', hreach, hat, hkeeps⟩ := h
    have hk : s.Keeps base s' := fun position hlt => hkeeps position (Nat.lt_of_lt_of_le hlt hb)
    exact (hnext s' w hat hkeeps).after hreach hk (Nat.le_refl base)
  | stopped => exact h
  | failed fault => exact h
  | left target => exact h

section

variable (hl : m.limit ≤ 0)
include hl

theorem reaches_step {instr : Instr} (hat : m.program.code[s.pc]? = some instr)
    (hstep : m.step instr s = (s', none)) : m.Reaches s s' :=
  .single ⟨instr, hat, atLimit_of_nonpos hl s, hstep⟩

theorem carries_stmt {stmt : Stmt} (hs : s.At base w)
    (hat : m.program.code[base]? = some (.simple stmt))
    (ht : (Instr.simple stmt).target? = none) :
    m.Carries s base (base + 1) (stmt.perform m.printer w) := by
  obtain ⟨rfl, rfl, hreturns⟩ := hs
  by_cases hp : stmt.isPlain
  · have hcourse : Machine.course (m.step (.simple stmt) s) = stmt.perform m.printer s.world :=
      executeStmt_course m (advance s) hp
    have hplain : Plainly (advance s) (m.step (.simple stmt) s) :=
      executeStmt_plainly m (advance s) hp
    rw [← hcourse]
    cases hstep : m.step (.simple stmt) s with
    | mk s' fault? =>
      rw [hstep] at hplain
      cases fault? with
      | none =>
        obtain ⟨hpc, -, hr, hloops⟩ := hplain
        refine ⟨s', reaches_step hl hat hstep, ⟨hpc, rfl, hr.trans hreturns⟩, ?_⟩
        intro position _
        rw [hloops]
        rfl
      | some fault => exact carries_fail hat hstep rfl
  · cases stmt with
    | goto keyword label => cases ht
    | gosub keyword label => cases ht
    | ret keyword =>
      have hstep : m.step (.simple (.ret keyword)) s =
          fail (advance s) ⟨.returnWithoutGosub, keyword.line, []⟩ := by
        simp only [step, execute, executeStmt, Env.pop, hreturns]
        rfl
      exact carries_fail hat hstep rfl
    | stop keyword => exact ⟨_, reaches_step hl hat rfl, rfl, rfl⟩
    | _ => exact False.elim (hp rfl)

-- The rounds of a loop from the state right behind its FOR, with the counter at `n`. Each round
-- keeps the frame of the loop, because it only changes loops inside the body.
theorem carries_rounds {keyword name next : Word} {first last : Expr} {header tail : Nat}
    {body : World → Course} {high : Int}
    (hfor : m.program.code[header]? = some (.loop keyword name first last (tail + 1)))
    (hnext : m.program.code[tail]? = some (.next next header))
    (hbody : ∀ s w, s.At (header + 1) w → m.Carries s (header + 1) tail (body w))
    (count : Nat) (n : Int) (hn : n + count = high) (s : State) (w : World)
    (hs : s.At (header + 1) (w.define name.text (counterValue n)))
    (hf : s.env.loops.get? header = some ⟨n, high⟩) :
    m.Carries s header (tail + 1) (rounds name.text body n (count + 1) w) := by
  induction count generalizing n s w with
  | zero =>
    refine (hbody s _ hs).andThen (Nat.le_succ header) fun t v ht hkeeps => ?_
    obtain ⟨rfl, rfl, hreturns⟩ := ht
    have hframe := (hkeeps header (Nat.lt_succ_self header)).trans hf
    have hlast : high < n + 1 := by omega
    have hreach := reaches_step hl hnext (step_next_leave m hframe hlast)
    refine Carries.after ?_ hreach (State.keeps_leave rfl) (Nat.le_refl header)
    exact carries_pass ⟨rfl, rfl, hreturns⟩
  | succ count ih =>
    refine (hbody s _ hs).andThen (Nat.le_succ header) fun t v ht hkeeps => ?_
    obtain ⟨rfl, rfl, hreturns⟩ := ht
    have hframe := (hkeeps header (Nat.lt_succ_self header)).trans hf
    have hmore : n + 1 ≤ high := by omega
    have hreach := reaches_step hl hnext (step_next_again m hframe hmore hfor)
    refine Carries.after ?_ hreach (State.keeps_enter rfl) (Nat.le_refl header)
    refine ih (n + 1) (by omega) _ t.world ⟨rfl, rfl, hreturns⟩ ?_
    exact Table.get?_insert_self _ header _

theorem carries_branch {keyword : Word} {condition : Expr} {elseBranch endif : Nat}
    {yes no : Course} (hs : s.At base w)
    (hat : m.program.code[base]? = some (.branch keyword condition elseBranch endif))
    (hyes : ∀ s', s'.At (base + 1) w → m.Carries s' base exit yes)
    (hno : ∀ s', s'.At elseBranch w → m.Carries s' base exit no) :
    m.Carries s base exit
      (match condition.truth keyword w with
      | .error failure => w.reject failure
      | .ok true => yes
      | .ok false => no) := by
  obtain ⟨rfl, rfl, hreturns⟩ := hs
  have hstep := step_branch m s keyword condition elseBranch endif
  cases hc : condition.truth keyword s.world with
  | error failure =>
    rw [hc] at hstep
    exact carries_fail hat hstep rfl
  | ok b =>
    rw [hc] at hstep
    cases b with
    | true =>
      refine Carries.after ?_ (reaches_step hl hat hstep) (fun _ _ => rfl) (Nat.le_refl _)
      exact hyes _ ⟨rfl, rfl, hreturns⟩
    | false =>
      refine Carries.after ?_ (reaches_step hl hat hstep) (fun _ _ => rfl) (Nat.le_refl _)
      exact hno _ ⟨rfl, rfl, hreturns⟩

theorem carries_otherwise {keyword : Word} {endif : Nat} (hs : s.At middle w)
    (hat : m.program.code[middle]? = some (.otherwise keyword endif)) :
    m.Carries s base endif w.pass := by
  obtain ⟨rfl, rfl, hreturns⟩ := hs
  refine Carries.after ?_ (reaches_step hl hat rfl) (fun _ _ => rfl) (Nat.le_refl base)
  exact carries_pass ⟨rfl, rfl, hreturns⟩

theorem carries_loop {keyword name next : Word} {first last : Expr} {tail : Nat}
    {body : World → Course} (hs : s.At base w)
    (hfor : m.program.code[base]? = some (.loop keyword name first last (tail + 1)))
    (hnext : m.program.code[tail]? = some (.next next base))
    (hbody : ∀ s w, s.At (base + 1) w → m.Carries s (base + 1) tail (body w)) :
    m.Carries s base (tail + 1)
      (match first.whole keyword w with
      | .error failure => w.reject failure
      | .ok low =>
        match last.whole keyword w with
        | .error failure => w.reject failure
        | .ok high => rounds name.text body low (high + 1 - low).toNat w) := by
  obtain ⟨rfl, rfl, hreturns⟩ := hs
  have hstep := step_loop m s keyword name first last (tail + 1)
  cases hlow : first.whole keyword s.world with
  | error failure =>
    rw [hlow] at hstep
    exact carries_fail hfor hstep rfl
  | ok low =>
    rw [hlow] at hstep
    cases hhigh : last.whole keyword s.world with
    | error failure =>
      rw [hhigh] at hstep
      exact carries_fail hfor hstep rfl
    | ok high =>
      rw [hhigh] at hstep
      dsimp only at hstep ⊢
      by_cases hlt : high < low
      · rw [if_pos hlt] at hstep
        have hzero : (high + 1 - low).toNat = 0 := by omega
        rw [hzero]
        refine Carries.after ?_ (reaches_step hl hfor hstep) (State.keeps_leave rfl)
          (Nat.le_refl _)
        exact carries_pass ⟨rfl, rfl, hreturns⟩
      · rw [if_neg hlt] at hstep
        obtain ⟨count, hcount⟩ := Int.le.dest (Int.not_lt.mp hlt)
        have hrounds : (high + 1 - low).toNat = count + 1 := by omega
        rw [hrounds]
        refine Carries.after ?_ (reaches_step hl hfor hstep) (State.keeps_enter rfl)
          (Nat.le_refl _)
        refine carries_rounds hl hfor hnext hbody count low hcount _ s.world
          ⟨rfl, rfl, hreturns⟩ ?_
        exact Table.get?_insert_self _ s.pc _

-- A block without jumps is carried out from its first instruction to the one behind it.
theorem carries_of_placedAt
    (hj : ∀ (i : Nat) (instr : Instr), m.program.code[i]? = some instr → instr.target? = none)
    (block : Block) (base : Nat) (hp : block.PlacedAt m.program base) (s : State) (w : World)
    (hs : s.At base w) :
    m.Carries s base (base + block.size) (block.perform m.printer w) := by
  induction block generalizing base s w with
  | done => exact carries_pass hs
  | simple stmt rest ih =>
    obtain ⟨hat, hrest⟩ := hp
    simp only [Block.size, ← Nat.add_assoc]
    refine (carries_stmt hl hs hat (hj base _ hat)).andThen (Nat.le_refl base) ?_
    intro s' w' hs' _
    exact (ih _ hrest s' w' hs').widen (by omega)
  | branch keyword condition body rest ihb ihr =>
    obtain ⟨hat, hbody, hrest⟩ := hp
    simp only [Block.size, ← Nat.add_assoc]
    have hif := carries_branch hl hs hat
      (fun s' hs' => (ihb _ hbody s' w hs').widen (by omega)) (fun s' hs' => carries_pass hs')
    refine hif.andThen (Nat.le_refl base) fun s' w' hs' _ => ?_
    exact (ihr _ hrest s' w' hs').widen (by omega)
  | choice keyword condition body otherwise alternative rest ihb iha ihr =>
    obtain ⟨hat, hbody, helse, halt, hrest⟩ := hp
    simp only [Block.size, ← Nat.add_assoc]
    have hyes (s' : State) (hs' : s'.At (base + 1) w) :
        m.Carries s' base (base + 1 + body.size + 1 + alternative.size)
          (body.perform m.printer w) := by
      rw [← Course.andThen_pass (body.perform m.printer w)]
      exact (ihb _ hbody s' w hs').andThen (by omega)
        fun _ _ ht _ => carries_otherwise hl ht helse
    have hif := carries_branch hl hs hat hyes
      (fun s' hs' => (iha _ halt s' w hs').widen (by omega))
    refine hif.andThen (Nat.le_refl base) fun s' w' hs' _ => ?_
    exact (ihr _ hrest s' w' hs').widen (by omega)
  | loop keyword name first last body next rest ihb ihr =>
    obtain ⟨hat, hbody, hnext, hrest⟩ := hp
    simp only [Block.size, ← Nat.add_assoc]
    have hloop := carries_loop hl hs hat hnext (fun s' w' hs' => ihb _ hbody s' w' hs')
    refine hloop.andThen (Nat.le_refl base) fun s' w' hs' _ => ?_
    exact (ihr _ hrest s' w' hs').widen (by omega)

def outcomeOf : Ending → Outcome
  | .through => .finished
  | .stopped => .finished
  | .failed fault => .stopped fault
  | .left _ => .unfinished

theorem run_of_carries (h : m.Carries s base m.program.size course) :
    ∃ enough, ∀ fuel, enough ≤ fuel →
      (m.run fuel s).1.world = course.1 ∧ (m.run fuel s).2 = outcomeOf course.2 := by
  have hend {t : State} (hpc : t.pc = m.program.size) : m.program.code[t.pc]? = none := by
    rw [hpc]
    exact Array.getElem?_size
  -- One final state and outcome settle both parts.
  have hsettle {result : State × Outcome}
      (hrun : ∃ enough, ∀ fuel, enough ≤ fuel → m.run fuel s = result)
      (hw : result.1.world = course.1) (ho : result.2 = outcomeOf course.2) :
      ∃ enough, ∀ fuel, enough ≤ fuel →
        (m.run fuel s).1.world = course.1 ∧ (m.run fuel s).2 = outcomeOf course.2 := by
    obtain ⟨enough, hrun⟩ := hrun
    refine ⟨enough, fun fuel hle => ?_⟩
    rw [hrun fuel hle]
    exact ⟨hw, ho⟩
  obtain ⟨w, ending⟩ := course
  cases ending with
  | through =>
    obtain ⟨t, hreach, ht, -⟩ := h
    exact hsettle (run_finishes hreach (hend ht.pc)) ht.world rfl
  | stopped =>
    obtain ⟨t, hreach, hpc, hw⟩ := h
    exact hsettle (run_finishes hreach (hend hpc)) hw rfl
  | failed fault =>
    obtain ⟨t, instr, s', hreach, hat, hstep, hw⟩ := h
    exact hsettle (run_fails hreach hat (atLimit_of_nonpos hl t) hstep) hw rfl
  | left target => exact False.elim h

end

-- A program without GOTO and GOSUB runs as its nested source says, whatever the printer and the
-- input do: the same output and calls of the printer, the same variables, the same input left, and
-- the same outcome.
theorem run_eq_perform {source : Bytes} {program : Program}
    (hp : Program.parse source = .ok program)
    (hj : ∀ instr ∈ program.code, instr.target? = none)
    (printer : Nat → Option Bytes) {limit : Int} (hl : limit ≤ 0) (input : Input) :
    ∃ block, Block.parse (Scan.ofSource source) = .ok block ∧
      Program.ofBlock block = program ∧ ∃ enough, ∀ fuel, enough ≤ fuel →
        ((⟨program, printer, limit⟩ : Machine).run fuel (.initial input)).1.world =
            (block.perform printer (.initial input)).1 ∧
          ((⟨program, printer, limit⟩ : Machine).run fuel (.initial input)).2 =
            outcomeOf (block.perform printer (.initial input)).2 := by
  obtain ⟨block, hb, rfl⟩ := Program.parse_eq_ok.mp hp
  let m : Machine := ⟨.ofBlock block, printer, limit⟩
  have hat : (State.initial input).At 0 (.initial input) := ⟨rfl, rfl, rfl⟩
  have hjumps (i : Nat) (instr : Instr) (h : m.program.code[i]? = some instr) :
      instr.target? = none := hj instr (Array.mem_of_getElem? h)
  have hcarries : m.Carries (.initial input) 0 (0 + block.size) _ :=
    carries_of_placedAt hl hjumps block 0 block.placedAt_ofBlock _ _ hat
  rw [Nat.zero_add, ← Program.size_ofBlock] at hcarries
  exact ⟨block, hb, rfl, run_of_carries hl hcarries⟩

theorem run_eq_perform_countingSource :
    ∃ program, Program.parse Program.countingSource = .ok program ∧
      ∃ enough, ∀ fuel, enough ≤ fuel →
      ((⟨program, fun _ => none, 0⟩ : Machine).run fuel (.initial ⟨[], none⟩)).1.world =
          (Program.counting.perform (fun _ => none) (.initial ⟨[], none⟩)).1 ∧
        ((⟨program, fun _ => none, 0⟩ : Machine).run fuel (.initial ⟨[], none⟩)).2 =
          outcomeOf (Program.counting.perform (fun _ => none) (.initial ⟨[], none⟩)).2 := by
  have hp := Program.parse_eq_ok.mpr ⟨_, Program.parse_countingSource, rfl⟩
  have hj : ∀ instr ∈ (Program.ofBlock Program.counting).code, instr.target? = none := by decide
  obtain ⟨block, hb, -, hrun⟩ := run_eq_perform hp hj (fun _ => none) (Int.le_refl 0) ⟨[], none⟩
  cases hb.symm.trans Program.parse_countingSource
  exact ⟨_, hp, hrun⟩

example : (Program.counting.perform (fun _ => none) (.initial ⟨[], none⟩)).1.output =
    [Bytes.ofString "1.0\n"] ∧
      (Program.counting.perform (fun _ => none) (.initial ⟨[], none⟩)).2 = .stopped := by
  decide +kernel

end Machine

end LineBasic
