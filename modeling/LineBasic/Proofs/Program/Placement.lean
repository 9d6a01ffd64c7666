import LineBasic.Proofs.Program.Acceptance

namespace LineBasic

namespace Block

def size : Block → Nat
  | .done => 0
  | .simple _ rest => 1 + rest.size
  | .branch _ _ body rest => 1 + body.size + rest.size
  | .choice _ _ body _ alternative rest => 1 + body.size + 1 + alternative.size + rest.size
  | .loop _ _ _ _ body _ rest => 1 + body.size + 1 + rest.size

theorem length_flatten (block : Block) (base : Nat) : (block.flatten base).length = block.size := by
  induction block generalizing base with
  | done => rfl
  | simple stmt rest ih =>
    simp only [flatten, size, List.length_cons, ih]
    omega
  | branch keyword condition body rest ihb ihr =>
    simp only [flatten, size, List.length_append, List.length_cons, ihb, ihr]
    omega
  | choice keyword condition body otherwise alternative rest ihb iha ihr =>
    simp only [flatten, size, List.length_append, List.length_cons, ihb, iha, ihr]
    omega
  | loop keyword name first last body next rest ihb ihr =>
    simp only [flatten, size, List.length_append, List.length_cons, ihb, ihr]
    omega

def PlacedAt (p : Program) : Block → Nat → Prop
  | .done, _ => True
  | .simple stmt rest, base => p.code[base]? = some (.simple stmt) ∧ rest.PlacedAt p (base + 1)
  | .branch keyword condition body rest, base =>
    let endif := base + 1 + body.size
    p.code[base]? = some (.branch keyword condition endif endif) ∧ body.PlacedAt p (base + 1) ∧
      rest.PlacedAt p endif
  | .choice keyword condition body otherwise alternative rest, base =>
    let elseBranch := base + 1 + body.size + 1
    let endif := elseBranch + alternative.size
    p.code[base]? = some (.branch keyword condition elseBranch endif) ∧
      body.PlacedAt p (base + 1) ∧
      p.code[base + 1 + body.size]? = some (.otherwise otherwise endif) ∧
      alternative.PlacedAt p elseBranch ∧ rest.PlacedAt p endif
  | .loop keyword name first last body next rest, base =>
    let exit := base + 1 + body.size + 1
    p.code[base]? = some (.loop keyword name first last exit) ∧ body.PlacedAt p (base + 1) ∧
      p.code[base + 1 + body.size]? = some (.next next base) ∧ rest.PlacedAt p exit

end Block

namespace Program

-- Instructions lie in a row in a program from a position on.
def Holds (p : Program) (base : Nat) (instrs : List Instr) : Prop :=
  ∃ before after, p.code.toList = before ++ (instrs ++ after) ∧ before.length = base

variable {p : Program} {base : Nat}

theorem Holds.head {instr : Instr} {rest : List Instr} (h : p.Holds base (instr :: rest)) :
    p.code[base]? = some instr := by
  obtain ⟨before, after, hcode, hb⟩ := h
  rw [← Array.getElem?_toList, hcode, ← hb]
  simp

theorem Holds.tail {instr : Instr} {rest : List Instr} (h : p.Holds base (instr :: rest)) :
    p.Holds (base + 1) rest := by
  obtain ⟨before, after, hcode, hb⟩ := h
  exact ⟨before ++ [instr], after, by simpa using hcode, by simp [hb]⟩

theorem Holds.left {first rest : List Instr} (h : p.Holds base (first ++ rest)) :
    p.Holds base first := by
  obtain ⟨before, after, hcode, hb⟩ := h
  exact ⟨before, rest ++ after, by simpa using hcode, hb⟩

theorem Holds.right {first rest : List Instr} (h : p.Holds base (first ++ rest)) :
    p.Holds (base + first.length) rest := by
  obtain ⟨before, after, hcode, hb⟩ := h
  exact ⟨before ++ first, after, by simpa using hcode, by simp [hb]⟩

end Program

namespace Block

theorem placedAt_of_holds {p : Program} (block : Block) (base : Nat)
    (h : p.Holds base (block.flatten base)) : block.PlacedAt p base := by
  induction block generalizing base with
  | done => trivial
  | simple stmt rest ih => exact ⟨h.head, ih _ h.tail⟩
  | branch keyword condition body rest ihb ihr =>
    simp only [flatten, List.cons_append, length_flatten] at h
    have hrest := h.tail.right
    rw [length_flatten] at hrest
    exact ⟨h.head, ihb _ h.tail.left, ihr _ hrest⟩
  | choice keyword condition body otherwise alternative rest ihb iha ihr =>
    simp only [flatten, List.cons_append, List.append_assoc, length_flatten] at h
    have helse := h.tail.right
    rw [length_flatten] at helse
    have hrest := helse.tail.right
    rw [length_flatten] at hrest
    exact ⟨h.head, ihb _ h.tail.left, helse.head, iha _ helse.tail.left, ihr _ hrest⟩
  | loop keyword name first last body next rest ihb ihr =>
    simp only [flatten, List.cons_append, length_flatten] at h
    have hnext := h.tail.right
    rw [length_flatten] at hnext
    exact ⟨h.head, ihb _ h.tail.left, hnext.head, ihr _ hnext.tail⟩

theorem placedAt_ofBlock (block : Block) : block.PlacedAt (.ofBlock block) 0 := by
  apply placedAt_of_holds
  exact ⟨[], [], by simp [Program.ofBlock], rfl⟩

end Block

theorem Program.size_ofBlock (block : Block) : (ofBlock block).size = block.size := by
  simp [ofBlock, Program.size, Block.length_flatten]

end LineBasic
