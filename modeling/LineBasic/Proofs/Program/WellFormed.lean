import LineBasic.Proofs.LabelTable
import LineBasic.Proofs.Program.Placement

namespace LineBasic

-- Where the range of an IF or of a FOR ends, which starts at its own position.
def Instr.rangeEnd? : Instr → Option Nat
  | .branch _ _ _ endif => some endif
  | .loop _ _ _ _ exit => some exit
  | _ => none

namespace Program

-- What the positions in an instruction at `i` have to do with the rest of the program. The range
-- of the instruction ends at `top` or before.
def Fits (p : Program) (top i : Nat) : Instr → Prop
  | .simple _ => True
  | .branch _ _ elseBranch endif =>
    i < elseBranch ∧ elseBranch ≤ endif ∧ endif ≤ top ∧
      (elseBranch = endif ∨ ∃ word, p.code[elseBranch - 1]? = some (.otherwise word endif))
  | .otherwise _ endif =>
    ∃ j keyword condition, j < i ∧ p.code[j]? = some (.branch keyword condition (i + 1) endif)
  | .loop _ _ _ _ exit =>
    i + 1 < exit ∧ exit ≤ top ∧ ∃ word, p.code[exit - 1]? = some (.next word i)
  | .next _ header =>
    header < i ∧
      ∃ keyword name first last, p.code[header]? = some (.loop keyword name first last (i + 1))

theorem Fits.mono {p : Program} {top top' i : Nat} {instr : Instr} (h : p.Fits top i instr)
    (ht : top ≤ top') : p.Fits top' i instr := by
  cases instr with
  | simple stmt => trivial
  | branch keyword condition elseBranch endif =>
    obtain ⟨hi, he, hend, helse⟩ := h
    exact ⟨hi, he, Nat.le_trans hend ht, helse⟩
  | otherwise word endif => exact h
  | loop keyword name first last exit =>
    obtain ⟨hi, hexit, hnext⟩ := h
    exact ⟨hi, Nat.le_trans hexit ht, hnext⟩
  | next word header => exact h

theorem Fits.range_le {p : Program} {top i e : Nat} {instr : Instr} (h : p.Fits top i instr)
    (he : instr.rangeEnd? = some e) : i < e ∧ e ≤ top := by
  cases instr with
  | branch keyword condition elseBranch endif =>
    cases he
    exact ⟨Nat.lt_of_lt_of_le h.1 h.2.1, h.2.2.1⟩
  | loop keyword name first last exit =>
    cases he
    exact ⟨Nat.lt_of_succ_lt h.1, h.2.1⟩
  | _ => cases he

-- From `low` up to `high` every instruction fits and no range leaves the stretch. Of two ranges the
-- first one ends before the second one starts, or not before the second one ends.
structure Closed (p : Program) (low high : Nat) : Prop where
  fits : ∀ i instr, low ≤ i → i < high → p.code[i]? = some instr → p.Fits high i instr
  nested : ∀ i j instr other e f, low ≤ i → i < j → j < high → p.code[i]? = some instr →
    instr.rangeEnd? = some e → p.code[j]? = some other → other.rangeEnd? = some f → e ≤ j ∨ f ≤ e

variable {p : Program} {low middle high : Nat}

theorem closed_empty (p : Program) (low : Nat) : p.Closed low low := by
  constructor
  · intros
    omega
  · intros
    omega

theorem closed_single {instr : Instr} (hat : p.code[low]? = some instr)
    (hf : p.Fits (low + 1) low instr) : p.Closed low (low + 1) := by
  constructor
  · intro i other hi hlt hat'
    obtain rfl : i = low := by omega
    cases hat.symm.trans hat'
    exact hf
  · intros
    omega

theorem Closed.append (h : p.Closed low middle) (h' : p.Closed middle high)
    (hle : middle ≤ high) : p.Closed low high := by
  constructor
  · intro i instr hi hlt hat
    by_cases hm : i < middle
    · exact (h.fits i instr hi hm hat).mono hle
    · exact h'.fits i instr (by omega) hlt hat
  · intro i j instr other e f hi hij hj hat he hat' hf
    by_cases hm : j < middle
    · exact h.nested i j instr other e f hi hij hm hat he hat' hf
    · by_cases him : i < middle
      · have := ((h.fits i instr hi him hat).range_le he).2
        exact .inl (by omega)
      · exact h'.nested i j instr other e f (by omega) hij hj hat he hat' hf

-- An instruction whose range is the whole stretch encloses what comes after it.
theorem Closed.enclosed {instr : Instr} (h : p.Closed (low + 1) high)
    (hat : p.code[low]? = some instr) (hr : instr.rangeEnd? = some high)
    (hf : p.Fits high low instr) : p.Closed low high := by
  constructor
  · intro i other hi hlt hat'
    obtain rfl | hi : i = low ∨ low + 1 ≤ i := by omega
    · cases hat.symm.trans hat'
      exact hf
    · exact h.fits i other hi hlt hat'
  · intro i j first second e f hi hij hj hat' he hat'' hf'
    obtain rfl | hi : i = low ∨ low + 1 ≤ i := by omega
    · cases hat.symm.trans hat'
      cases hr.symm.trans he
      exact .inr ((h.fits j second hij hj hat'').range_le hf').2
    · exact h.nested i j first second e f hi hij hj hat' he hat'' hf'

end Program

namespace Block

theorem closed_of_placedAt {p : Program} (block : Block) (base : Nat) (h : block.PlacedAt p base) :
    p.Closed base (base + block.size) := by
  induction block generalizing base with
  | done => exact Program.closed_empty p base
  | simple stmt rest ih =>
    obtain ⟨hhead, hrest⟩ := h
    have htail := ih _ hrest
    have hall := (Program.closed_single hhead trivial).append htail (by omega)
    simpa only [size, Nat.add_assoc] using hall
  | branch keyword condition body rest ihb ihr =>
    obtain ⟨hhead, hbody, hrest⟩ := h
    have hif := (ihb _ hbody).enclosed hhead rfl
      ⟨by omega, Nat.le_refl _, Nat.le_refl _, .inl rfl⟩
    have hall := hif.append (ihr _ hrest) (by omega)
    simpa only [size, Nat.add_assoc] using hall
  | choice keyword condition body otherwise alternative rest ihb iha ihr =>
    obtain ⟨hhead, hbody, helse, halt, hrest⟩ := h
    have hword := Program.closed_single helse ⟨base, keyword, condition, by omega, hhead⟩
    have hinside := ((ihb _ hbody).append hword (by omega)).append (iha _ halt) (by omega)
    have hif := hinside.enclosed hhead rfl
      ⟨by omega, by omega, Nat.le_refl _, .inr ⟨otherwise, helse⟩⟩
    have hall := hif.append (ihr _ hrest) (by omega)
    simpa only [size, Nat.add_assoc] using hall
  | loop keyword name first last body next rest ihb ihr =>
    obtain ⟨hhead, hbody, hnext, hrest⟩ := h
    have hword := Program.closed_single hnext
      ⟨by omega, keyword, name, first, last, hhead⟩
    have hinside := (ihb _ hbody).append hword (by omega)
    have hfor := hinside.enclosed hhead rfl ⟨by omega, Nat.le_refl _, next, hnext⟩
    have hall := hfor.append (ihr _ hrest) (by omega)
    simpa only [size, Nat.add_assoc] using hall

end Block

namespace Instr

theorem declared?_eq_some {instr : Instr} {name : Word} :
    instr.declared? = some name ↔ instr = .simple (.label name) := by
  unfold declared?
  split
  · simp
  · rename_i hno
    constructor
    · intro h
      cases h
    · intro h
      exact False.elim (hno name h)

end Instr

namespace Program

def labelsFrom : Nat → List Instr → List Label
  | _, [] => []
  | position, instr :: rest =>
    match instr.declared? with
    | some name => ⟨name.text, position, name.line⟩ :: labelsFrom (position + 1) rest
    | none => labelsFrom (position + 1) rest

theorem declareLabels_eq (t : LabelTable) (position : Nat) (instrs : List Instr) :
    declareLabels t position instrs = t.declareAll (labelsFrom position instrs) := by
  induction instrs generalizing t position with
  | nil => rfl
  | cons instr rest ih =>
    unfold declareLabels labelsFrom
    cases instr.declared? with
    | none => exact ih t _
    | some name => exact ih _ _

theorem length_labelsFrom (position : Nat) (instrs : List Instr) :
    (labelsFrom position instrs).length = instrs.countP fun instr => instr.declared?.isSome := by
  induction instrs generalizing position with
  | nil => rfl
  | cons instr rest ih =>
    unfold labelsFrom
    cases h : instr.declared? with
    | none => simp [h, ih]
    | some name => simp [h, ih]

theorem map_name_labelsFrom (position : Nat) (instrs : List Instr) :
    (labelsFrom position instrs).map Label.name =
      (instrs.filterMap Instr.declared?).map Word.text := by
  induction instrs generalizing position with
  | nil => rfl
  | cons instr rest ih =>
    unfold labelsFrom
    cases h : instr.declared? with
    | none => simp [h, ih]
    | some name => simp [h, ih]

-- A label is listed exactly if its statement stands at its position.
theorem mem_labelsFrom {position : Nat} {instrs : List Instr} {label : Label} :
    label ∈ labelsFrom position instrs ↔
      position ≤ label.position ∧
        instrs[label.position - position]? = some (.simple (.label ⟨label.name, label.line⟩)) := by
  induction instrs generalizing position with
  | nil => simp [labelsFrom]
  | cons instr rest ih =>
    have hrest : label ∈ labelsFrom (position + 1) rest ↔ position < label.position ∧
        (instr :: rest)[label.position - position]? =
          some (.simple (.label ⟨label.name, label.line⟩)) := by
      rw [ih]
      refine and_congr_right fun hlt => ?_
      have hindex : label.position - position = label.position - (position + 1) + 1 := by omega
      rw [hindex, List.getElem?_cons_succ]
    have hhead (he : label.position = position)
        (h : (instr :: rest)[label.position - position]? =
          some (.simple (.label ⟨label.name, label.line⟩))) :
        instr = .simple (.label ⟨label.name, label.line⟩) := by
      simpa [he] using h
    unfold labelsFrom
    split
    · rename_i name hname
      have hinstr := Instr.declared?_eq_some.mp hname
      rw [List.mem_cons, hrest]
      constructor
      · rintro (rfl | ⟨hlt, hat⟩)
        · simp [hinstr]
        · exact ⟨Nat.le_of_lt hlt, hat⟩
      · rintro ⟨hle, hat⟩
        obtain he | hlt := Nat.eq_or_lt_of_le hle
        · left
          cases hinstr.symm.trans (hhead he.symm hat)
          rw [he]
        · exact .inr ⟨hlt, hat⟩
    · rename_i hnone
      rw [hrest]
      refine and_congr_left fun hat => ⟨Nat.le_of_lt, fun hle => ?_⟩
      refine Nat.lt_of_le_of_ne hle fun he => ?_
      rw [Instr.declared?_eq_some.mpr (hhead he.symm hat)] at hnone
      cases hnone

end Program

theorem Block.filterMap_declared?_flatten (block : Block) (base : Nat) :
    (block.flatten base).filterMap Instr.declared? = block.labels := by
  induction block generalizing base with
  | done => rfl
  | simple stmt rest ih =>
    have hrest := ih (base + 1)
    cases stmt with
    | label name => exact congrArg (name :: ·) hrest
    | _ => exact hrest
  | branch keyword condition body rest ihb ihr =>
    simp only [flatten, labels, List.cons_append]
    rw [List.filterMap_cons_none rfl, List.filterMap_append, ihb, ihr]
  | choice keyword condition body otherwise alternative rest ihb iha ihr =>
    simp only [flatten, labels, List.cons_append, List.append_assoc]
    rw [List.filterMap_cons_none rfl, List.filterMap_append, List.filterMap_cons_none rfl,
      List.filterMap_append, ihb, iha, ihr]
  | loop keyword name first last body next rest ihb ihr =>
    simp only [flatten, labels, List.cons_append]
    rw [List.filterMap_cons_none rfl, List.filterMap_append, List.filterMap_cons_none rfl, ihb, ihr]

namespace Program

-- Jumps inside IFs and FORs lead where they should, ranges do not cross, and the label table lists
-- the label statements.
structure WellFormed (p : Program) : Prop where
  branch : ∀ (i : Nat) (keyword : Word) (condition : Expr) (elseBranch endif : Nat),
    p.code[i]? = some (.branch keyword condition elseBranch endif) →
      i < elseBranch ∧ elseBranch ≤ endif ∧ endif ≤ p.size ∧
        (elseBranch = endif ∨ ∃ word, p.code[elseBranch - 1]? = some (.otherwise word endif))
  otherwise : ∀ (j : Nat) (word : Word) (endif : Nat), p.code[j]? = some (.otherwise word endif) →
    ∃ i keyword condition, i < j ∧ p.code[i]? = some (.branch keyword condition (j + 1) endif)
  loop : ∀ (i : Nat) (keyword name : Word) (first last : Expr) (exit : Nat),
    p.code[i]? = some (.loop keyword name first last exit) →
      i + 1 < exit ∧ exit ≤ p.size ∧ ∃ word, p.code[exit - 1]? = some (.next word i)
  next : ∀ (j : Nat) (word : Word) (i : Nat), p.code[j]? = some (.next word i) →
    i < j ∧ ∃ keyword name first last, p.code[i]? = some (.loop keyword name first last (j + 1))
  ranges : ∀ (i j e f : Nat) (instr other : Instr), p.code[i]? = some instr →
    instr.rangeEnd? = some e → p.code[j]? = some other → other.rangeEnd? = some f →
      (e ≤ j ∨ f ≤ i) ∨ (i ≤ j ∧ f ≤ e) ∨ (j ≤ i ∧ e ≤ f)
  label : ∀ (name : Bytes) (label : Label), p.labels.lookup? name = some label ↔
    label.name = name ∧ p.code[label.position]? = some (.simple (.label ⟨name, label.line⟩))
  unique : ∀ (i j : Nat) (name : Bytes) (line line' : Nat),
    p.code[i]? = some (.simple (.label ⟨name, line⟩)) →
      p.code[j]? = some (.simple (.label ⟨name, line'⟩)) → i = j
  count : p.labels.size = p.code.toList.countP fun instr => instr.declared?.isSome

-- No two NEXTs belong to the same FOR.
theorem WellFormed.next_unique {p : Program} (hw : p.WellFormed) {i j header : Nat}
    {word word' : Word} (hi : p.code[i]? = some (.next word header))
    (hj : p.code[j]? = some (.next word' header)) : i = j := by
  obtain ⟨-, _, _, _, _, hloop⟩ := hw.next _ _ _ hi
  obtain ⟨-, _, _, _, _, hloop'⟩ := hw.next _ _ _ hj
  cases hloop.symm.trans hloop'
  rfl

theorem map_name_labelsFrom_flatten (block : Block) :
    (labelsFrom 0 (block.flatten 0)).map Label.name = block.labelNames := by
  rw [map_name_labelsFrom, Block.filterMap_declared?_flatten]
  rfl

theorem labels_ofBlock (block : Block) :
    (ofBlock block).labels = LabelTable.empty.declareAll (labelsFrom 0 (block.flatten 0)) :=
  declareLabels_eq _ _ _

theorem lookup?_ofBlock {block : Block} (hn : block.labelNames.Nodup) (name : Bytes)
    (label : Label) : (ofBlock block).labels.lookup? name = some label ↔ label.name = name ∧
      (ofBlock block).code[label.position]? = some (.simple (.label ⟨name, label.line⟩)) := by
  have hd : ((labelsFrom 0 (block.flatten 0)).map Label.name).Nodup := by
    rwa [map_name_labelsFrom_flatten]
  rw [labels_ofBlock, LabelTable.lookup?_declareAll_empty hd, mem_labelsFrom,
    ← Array.getElem?_toList, code_ofBlock]
  constructor
  · rintro ⟨⟨-, hat⟩, rfl⟩
    exact ⟨rfl, hat⟩
  · rintro ⟨rfl, hat⟩
    exact ⟨⟨Nat.zero_le _, hat⟩, rfl⟩

theorem wellFormed_ofBlock {block : Block} (hn : block.labelNames.Nodup) :
    (ofBlock block).WellFormed := by
  have hclosed := block.closed_of_placedAt 0 block.placedAt_ofBlock
  rw [Nat.zero_add, ← size_ofBlock] at hclosed
  have hlt {i : Nat} {instr : Instr} (h : (ofBlock block).code[i]? = some instr) :
      i < (ofBlock block).size := (Array.getElem?_eq_some_iff.mp h).choose
  have hfits (i : Nat) (instr : Instr) (h : (ofBlock block).code[i]? = some instr) :
      (ofBlock block).Fits (ofBlock block).size i instr :=
    hclosed.fits i instr (Nat.zero_le i) (hlt h) h
  have hlookup := lookup?_ofBlock hn
  refine ⟨fun i _ _ _ _ h => hfits i _ h, fun j _ _ h => hfits j _ h,
    fun i _ _ _ _ _ h => hfits i _ h, fun j _ _ h => hfits j _ h, ?_, hlookup, ?_, ?_⟩
  · intro i j e f instr other hat he hat' hf
    obtain hij | rfl | hji := Nat.lt_trichotomy i j
    · have := hclosed.nested i j instr other e f (Nat.zero_le i) hij (hlt hat') hat he hat' hf
      omega
    · cases hat.symm.trans hat'
      cases he.symm.trans hf
      exact .inr (.inl ⟨Nat.le_refl i, Nat.le_refl e⟩)
    · have := hclosed.nested j i other instr f e (Nat.zero_le j) hji (hlt hat) hat' hf hat he
      omega
  · intro i j name line line' hat hat'
    have hi := (hlookup name ⟨name, i, line⟩).mpr ⟨rfl, hat⟩
    have hj := (hlookup name ⟨name, j, line'⟩).mpr ⟨rfl, hat'⟩
    cases hi.symm.trans hj
    rfl
  · rw [labels_ofBlock, LabelTable.size_declareAll (by rwa [map_name_labelsFrom_flatten])
      (fun _ _ => rfl), length_labelsFrom]
    exact Nat.zero_add _

theorem wellFormed_of_parse {source : Bytes} {program : Program}
    (h : parse source = .ok program) : program.WellFormed := by
  obtain ⟨block, hp, rfl⟩ := parse_eq_ok.mp h
  exact wellFormed_ofBlock (Block.parse_sound hp).2.2

theorem wellFormed_countingSource :
    ∃ program, parse countingSource = .ok program ∧ program.size = 6 ∧ program.WellFormed := by
  have h := parse_eq_ok.mpr ⟨_, parse_countingSource, rfl⟩
  exact ⟨_, h, by decide, wellFormed_of_parse h⟩

end Program

end LineBasic
