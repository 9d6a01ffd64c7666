import LineBasic.Proofs.Block.Joined
import LineBasic.Proofs.Program.Check

namespace LineBasic

def Instr.moved (offset lines : Nat) : Instr → Instr
  | .simple stmt => .simple (stmt.reline (· + lines))
  | .branch keyword condition elseBranch endif =>
    .branch (keyword.reline (· + lines)) (condition.reline (· + lines)) (elseBranch + offset)
      (endif + offset)
  | .otherwise keyword endif => .otherwise (keyword.reline (· + lines)) (endif + offset)
  | .loop keyword name first last exit =>
    .loop (keyword.reline (· + lines)) (name.reline (· + lines)) (first.reline (· + lines))
      (last.reline (· + lines)) (exit + offset)
  | .next keyword header => .next (keyword.reline (· + lines)) (header + offset)

def Label.moved (offset lines : Nat) (label : Label) : Label :=
  ⟨label.name, label.position + offset, label.line + lines⟩

theorem Instr.declared?_moved (offset lines : Nat) (instr : Instr) :
    (instr.moved offset lines).declared? = instr.declared?.map (Word.reline (· + lines)) := by
  cases instr with
  | simple stmt => cases stmt <;> rfl
  | _ => rfl

namespace Block

theorem flatten_append (block other : Block) (base : Nat) :
    (block.append other).flatten base =
      block.flatten base ++ other.flatten (base + block.size) := by
  induction block generalizing base with
  | done => rfl
  | simple stmt rest ih => simp [append, flatten, size, ih, Nat.add_assoc]
  | branch keyword condition body rest _ ih =>
    simp [append, flatten, size, length_flatten, ih, Nat.add_assoc]
  | choice keyword condition body otherwise alternative rest _ _ ih =>
    simp [append, flatten, size, length_flatten, ih, Nat.add_assoc]
  | loop keyword name first last body next rest _ ih =>
    simp [append, flatten, size, length_flatten, ih, Nat.add_assoc]

-- A block is laid out in the same way wherever it starts.
theorem flatten_reline (offset lines : Nat) (block : Block) (base : Nat) :
    (block.reline (· + lines)).flatten (base + offset) =
      (block.flatten base).map (Instr.moved offset lines) := by
  have hcomm (position n : Nat) : position + offset + n = position + n + offset :=
    Nat.add_right_comm position offset n
  induction block generalizing base with
  | done => rfl
  | simple stmt rest ih => simp only [reline, flatten, hcomm, ih, List.map_cons, Instr.moved]
  | branch keyword condition body rest ihb ihr =>
    simp only [reline, flatten, length_flatten, hcomm, ihb, ihr, List.length_map, List.map_cons,
      List.map_append, Instr.moved]
  | choice keyword condition body otherwise alternative rest ihb iha ihr =>
    simp only [reline, flatten, length_flatten, hcomm, ihb, iha, ihr, List.length_map, List.map_cons,
      List.map_append, Instr.moved]
  | loop keyword name first last body next rest ihb ihr =>
    simp only [reline, flatten, length_flatten, hcomm, ihb, ihr, List.length_map, List.map_cons,
      List.map_append, Instr.moved]

end Block

namespace Program

theorem labelsFrom_append (position : Nat) (instrs others : List Instr) :
    labelsFrom position (instrs ++ others) =
      labelsFrom position instrs ++ labelsFrom (position + instrs.length) others := by
  induction instrs generalizing position with
  | nil => rfl
  | cons instr rest ih =>
    have hrest := ih (position + 1)
    rw [Nat.add_assoc, Nat.add_comm 1] at hrest
    simp only [List.cons_append, labelsFrom, List.length_cons, hrest]
    cases instr.declared? <;> rfl

theorem labelsFrom_moved (offset lines position : Nat) (instrs : List Instr) :
    labelsFrom (position + offset) (instrs.map (Instr.moved offset lines)) =
      (labelsFrom position instrs).map (Label.moved offset lines) := by
  induction instrs generalizing position with
  | nil => rfl
  | cons instr rest ih =>
    have hrest := ih (position + 1)
    rw [Nat.add_right_comm] at hrest
    simp only [List.map_cons, labelsFrom, Instr.declared?_moved, hrest]
    cases instr.declared? <;> rfl

-- The second of two blocks in a row lies behind the first one and further down.
theorem code_append (lines : Nat) (first second : Block) :
    (ofBlock (first.append (second.reline (· + lines)))).code.toList =
      (ofBlock first).code.toList ++
        (ofBlock second).code.toList.map (Instr.moved (ofBlock first).size lines) := by
  have hsecond := second.flatten_reline first.size lines 0
  rw [code_ofBlock, code_ofBlock, code_ofBlock, size_ofBlock, Block.flatten_append, hsecond]

-- A label of the first block comes before one of the same name in the second block.
theorem lookup?_append (lines : Nat) (first second : Block) (name : Bytes) :
    (ofBlock (first.append (second.reline (· + lines)))).labels.lookup? name =
      ((ofBlock first).labels.lookup? name).or
        (((ofBlock second).labels.lookup? name).map
          (Label.moved (ofBlock first).size lines)) := by
  have hsecond := second.flatten_reline first.size lines 0
  have hlabels := labelsFrom_moved first.size lines 0 (second.flatten 0)
  rw [lookup?_eq_find?, lookup?_eq_find?, lookup?_eq_find?, Block.flatten_append,
    labelsFrom_append, Block.length_flatten, hsecond, hlabels, List.find?_append, List.find?_map,
    size_ofBlock]
  rfl

theorem labels_size_append (lines : Nat) {first second : Block}
    (hn : (first.append (second.reline (· + lines))).labelNames.Nodup) :
    (ofBlock (first.append (second.reline (· + lines)))).labels.size =
      (ofBlock first).labels.size + (ofBlock second).labels.size := by
  have hnames := hn
  rw [Block.labelNames_append, Block.labelNames_reline, List.nodup_append] at hnames
  rw [(wellFormed_ofBlock hn).count, (wellFormed_ofBlock hnames.1).count,
    (wellFormed_ofBlock hnames.2.1).count, code_append, List.countP_append, List.countP_map]
  congr 1
  refine List.countP_congr fun instr _ => ?_
  simp [Instr.declared?_moved]

-- Two sources with a newline between them are derived as one.
theorem body_joined {a b : Bytes} {first second : Block}
    (ha : Block.parse (Scan.ofSource a) = .ok first)
    (hb : Block.parse (Scan.ofSource b) = .ok second) :
    (Scan.ofSource (a ++ 10 :: b)).failure = none ∧
      Block.Body (first.append (second.reline (· + (1 + a.count 10))))
        (Scan.ofSource (a ++ 10 :: b)).tokens [] := by
  obtain ⟨hfa, hba, -⟩ := Block.parse_sound ha
  obtain ⟨hfb, hbb, -⟩ := Block.parse_sound hb
  rw [Scan.ofSource_append_newline hfa]
  refine ⟨by simp [Scan.lowered, hfb], ?_⟩
  have hback (line : Nat) : line + (1 + a.count 10) - (1 + a.count 10) = line :=
    Nat.add_sub_cancel _ _
  have hsecond := hbb.reline (f := (· + (1 + a.count 10))) (g := (· - (1 + a.count 10))) hback
  have hend : (Scan.lineEnd (1 + a.count 10)).kind = .endOfLine := rfl
  have hfirst := hba.extend hend ((Scan.ofSource b).tokens.map (Token.reline (· + (1 + a.count 10))))
  rw [List.nil_append] at hfirst
  exact hfirst.leads _ _ [] (List.append_nil _).symm (.separator rfl hsecond)

-- The first label of the second block with a name from the first block repeats it.
theorem clashes_joined {first second : Block} {label : Word} (lines : Nat)
    (hn : first.labelNames.Nodup) (hn' : second.labelNames.Nodup)
    (h : second.labels.find? (·.text ∈ first.labelNames) = some label) :
    Block.Clashes [] (first.append (second.reline (· + lines))).labels
      (label.reline (· + lines)) := by
  obtain ⟨hmem, before, after, hlabels, hnew⟩ := List.find?_eq_some_iff_append.mp h
  rw [Block.labels_append, Block.labels_reline, hlabels]
  refine ⟨first.labels ++ before.map (Word.reline (· + lines)),
    after.map (Word.reline (· + lines)), by simp, ?_, ?_⟩
  · have hbefore : (before.map Word.text).Nodup := by
      rw [Block.labelNames, hlabels, List.map_append] at hn'
      exact (List.nodup_append.mp hn').1
    rw [List.nil_append, List.map_append, List.map_map]
    refine List.nodup_append.mpr ⟨hn, hbefore, ?_⟩
    rintro name hfirst other hother rfl
    obtain ⟨earlier, he, rfl⟩ := List.mem_map.mp hother
    have := hnew earlier he
    simp only [Bool.not_eq_true', decide_eq_false_iff_not] at this
    exact this hfirst
  · have hmem : label.text ∈ first.labelNames := by simpa using hmem
    rw [List.nil_append, List.map_append]
    exact List.mem_append_left _ hmem

-- Programs are relocatable. Two sources with a newline between them make the program of the first
-- one and behind it that of the second one with its positions and its lines moved, unless both
-- declare a label of the same name. Then the first such label of the second source is refused.
theorem parse_joined {a b : Bytes} {first second : Program} (ha : parse a = .ok first)
    (hb : parse b = .ok second) :
    ((∀ name ∈ first.names, name ∉ second.names) →
      ∃ p, parse (a ++ 10 :: b) = .ok p ∧
        p.code.toList = first.code.toList ++
          second.code.toList.map (Instr.moved first.size (1 + a.count 10)) ∧
        (∀ name, p.labels.lookup? name = (first.labels.lookup? name).or
          ((second.labels.lookup? name).map (Label.moved first.size (1 + a.count 10)))) ∧
        p.labels.size = first.labels.size + second.labels.size) ∧
    ((∃ name ∈ first.names, name ∈ second.names) →
      ∃ label, second.declared.find? (·.text ∈ first.names) = some label ∧
        parse (a ++ 10 :: b) =
          .error ⟨.duplicateLabel, ↑(label.line + (1 + a.count 10)), label.text⟩) := by
  obtain ⟨x, hx, rfl⟩ := parse_eq_ok.mp ha
  obtain ⟨y, hy, rfl⟩ := parse_eq_ok.mp hb
  obtain ⟨-, -, hnx⟩ := Block.parse_sound hx
  obtain ⟨-, -, hny⟩ := Block.parse_sound hy
  obtain ⟨hf, hbody⟩ := body_joined hx hy
  rw [names_ofBlock, names_ofBlock, declared_ofBlock]
  constructor
  · intro hdisjoint
    have hn : (x.append (y.reline (· + (1 + a.count 10)))).labelNames.Nodup := by
      rw [Block.labelNames_append, Block.labelNames_reline]
      refine List.nodup_append.mpr ⟨hnx, hny, ?_⟩
      rintro name hname other hother rfl
      exact hdisjoint name hname hother
    exact ⟨_, parse_eq_ok.mpr ⟨_, Block.parse_complete hf hbody hn, rfl⟩, code_append _ x y,
      lookup?_append _ x y, labels_size_append _ hn⟩
  · rintro ⟨name, hname, hother⟩
    cases hfind : y.labels.find? (·.text ∈ x.labelNames) with
    | none =>
      obtain ⟨label, hlabel, rfl⟩ := List.mem_map.mp hother
      have := List.find?_eq_none.mp hfind label hlabel
      exact False.elim (this (by simpa using hname))
    | some label =>
      refine ⟨label, rfl, ?_⟩
      have hparse := Block.parse_refuses hbody (clashes_joined (1 + a.count 10) hnx hny hfind)
      simp only [parse, hparse, Except.map, Word.reline]

-- Behind one statement the subroutine lies a position and a line further on. Behind itself it is
-- declared again.
theorem parse_joined_callingSource :
    (∃ p, parse (strayingSource ++ 10 :: callingSource) = .ok p ∧ p.size = 8 ∧
      p.labels.lookup? (Bytes.ofString "S") = some ⟨Bytes.ofString "S", 5, 6⟩) ∧
    parse (callingSource ++ 10 :: callingSource) =
      .error ⟨.duplicateLabel, 12, Bytes.ofString "S"⟩ := by
  constructor
  · obtain ⟨p, hp, hcode, hlookup, -⟩ :=
      (parse_joined parse_strayingSource parse_callingSource).1 (by decide)
    refine ⟨p, hp, ?_, (hlookup (Bytes.ofString "S")).trans (by decide)⟩
    have hlength := congrArg List.length hcode
    rw [Array.length_toList] at hlength
    exact hlength.trans (by decide)
  · obtain ⟨label, hfind, hparse⟩ :=
      (parse_joined parse_callingSource parse_callingSource).2
        ⟨Bytes.ofString "S", by decide, by decide⟩
    have hlabel : (ofBlock calling).declared.find? (·.text ∈ (ofBlock calling).names) =
        some (.ofString "S" 5) := by decide
    cases hlabel.symm.trans hfind
    exact hparse

end Program

end LineBasic
