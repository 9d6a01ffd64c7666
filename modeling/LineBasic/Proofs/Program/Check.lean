import LineBasic.Proofs.Program.WellFormed

namespace LineBasic

def Failure.undeclared (label : Word) : Failure :=
  ⟨.undeclaredLabel, label.line, label.text⟩

namespace Program

def declared (p : Program) : List Word :=
  p.code.toList.filterMap Instr.declared?

def targets (p : Program) : List Word :=
  p.code.toList.filterMap Instr.target?

def names (p : Program) : List Bytes :=
  p.declared.map Word.text

theorem declared_ofBlock (block : Block) : (ofBlock block).declared = block.labels :=
  block.filterMap_declared?_flatten 0

theorem names_ofBlock (block : Block) : (ofBlock block).names = block.labelNames :=
  congrArg (List.map Word.text) (declared_ofBlock block)

theorem mem_targets {p : Program} {i : Nat} {instr : Instr} {label : Word}
    (hat : p.code[i]? = some instr) (ht : instr.target? = some label) : label ∈ p.targets := by
  rw [← Array.getElem?_toList] at hat
  exact List.mem_filterMap.mpr ⟨instr, List.mem_of_getElem? hat, ht⟩

theorem lookup?_eq_find? (block : Block) (name : Bytes) :
    (ofBlock block).labels.lookup? name =
      (labelsFrom 0 (block.flatten 0)).find? (·.name == name) := by
  rw [labels_ofBlock, LabelTable.lookup?_declareAll]
  exact Option.none_or

-- The label table has every declared name, and no other.
theorem lookup?_eq_none_iff {source : Bytes} {p : Program} (h : parse source = .ok p)
    (name : Bytes) : p.labels.lookup? name = none ↔ name ∉ p.names := by
  obtain ⟨block, -, rfl⟩ := parse_eq_ok.mp h
  rw [lookup?_eq_find?, names_ofBlock, ← map_name_labelsFrom_flatten, List.find?_eq_none]
  simp [List.mem_map]

-- Every jump to a label that is not declared is reported, in program order.
theorem unresolved_eq {source : Bytes} {p : Program} (h : parse source = .ok p) :
    p.unresolved =
      (p.targets.filter fun label => label.text ∉ p.names).map Failure.undeclared := by
  have hlookup := lookup?_eq_none_iff h
  unfold unresolved targets
  induction p.code.toList with
  | nil => rfl
  | cons instr rest ih =>
    rw [List.filterMap_cons, List.filterMap_cons, ih]
    cases instr.target? with
    | none => rfl
    | some label =>
      cases hl : p.labels.lookup? label.text with
      | none =>
        have hnew := (hlookup label.text).mp hl
        simp [hl, hnew, Failure.undeclared]
      | some found =>
        have hold : label.text ∈ p.names := by
          refine Decidable.not_not.mp fun hnew => ?_
          rw [(hlookup label.text).mpr hnew] at hl
          cases hl
        simp [hl, hold]

-- A program to try theorems about missing labels on: its only statement jumps to one.
def strayingSource : Bytes :=
  Bytes.ofString "GOTO A"

def straying : Block :=
  .simple (.goto (.ofString "GOTO" 1) (.ofString "A" 1)) .done

theorem parse_strayingSource : parse strayingSource = .ok (.ofBlock straying) :=
  parse_eq_ok.mpr ⟨_, rfl, rfl⟩

end Program

end LineBasic
