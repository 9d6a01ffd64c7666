import LineBasic.Program.Listing
import LineBasic.Proofs.Program.Acceptance
import LineBasic.Proofs.Token.Scan

namespace LineBasic.Program

variable {source : Bytes} {program : Program}

-- A line from that of one position on, and up to that of the next one if there is one.
def Within (p : Program) (position : Nat) (line : Int) : Prop :=
  (∃ own, p.lines[position]? = some own ∧ (own : Int) ≤ line) ∧
    ∀ next, p.lines[position + 1]? = some next → line ≤ next

theorem getElem?_lines (p : Program) (position : Nat) :
    p.lines[position]? = p.code[position]?.map fun instr => instr.word.line := by
  simp [lines]

-- The words of a program stand in the source one after the other, whatever the nesting.
theorem lines_words (h : parse source = .ok program) :
    (program.code.toList.flatMap fun instr => instr.head.words).Pairwise
        (fun v w => v.line ≤ w.line) ∧
      ∀ instr ∈ program.code, ∀ w ∈ instr.head.words, 1 ≤ w.line ∧ w.line ≤ 1 + source.count 10 := by
  obtain ⟨block, hblock, rfl⟩ := parse_eq_ok.mp h
  obtain ⟨-, hbody, -⟩ := Block.parse_sound hblock
  obtain ⟨hsorted, hrange⟩ := Scan.lines_tokens (.start source)
  rw [← Scan.ofSource_eq] at hsorted hrange
  have hwords : ((ofBlock block).code.toList.flatMap fun instr => instr.head.words).Sublist
      ((Scan.ofSource source).tokens.map Token.toWord) := by
    have hwords := hbody.allWords
    rwa [← block.map_head_flatten 0, List.flatMap_map] at hwords
  have hlines : ((Scan.ofSource source).tokens.map Token.toWord).Pairwise
      fun v w => v.line ≤ w.line := List.pairwise_map.mpr hsorted
  refine ⟨hlines.sublist hwords, fun instr hinstr w hw => ?_⟩
  have hmem := hwords.subset (List.mem_flatMap.mpr ⟨instr, Array.mem_toList_iff.mpr hinstr, hw⟩)
  obtain ⟨t, ht, rfl⟩ := List.mem_map.mp hmem
  rw [← Scan.line_ofSource]
  exact hrange t ht

theorem word_mem_words (instr : Instr) : instr.word ∈ instr.head.words := by
  obtain ⟨rest, hrest⟩ := instr.head.words_eq_cons
  rw [hrest, instr.word_head]
  exact List.mem_cons_self

theorem lines_sorted (h : parse source = .ok program) : program.lines.Pairwise (· ≤ ·) := by
  have hbetween := (List.pairwise_flatMap.mp (lines_words h).1).2
  exact List.pairwise_map.mpr
    (hbetween.imp fun hle => hle _ (word_mem_words _) _ (word_mem_words _))

theorem lines_range (h : parse source = .ok program) :
    ∀ line ∈ program.lines, 1 ≤ line ∧ line ≤ 1 + source.count 10 := by
  intro line hline
  obtain ⟨instr, hinstr, rfl⟩ := List.mem_map.mp hline
  exact (lines_words h).2 instr (Array.mem_toList_iff.mp hinstr) _ (word_mem_words instr)

-- The words of a statement are on the lines from its own one to that of the next statement.
theorem within_of_mem (h : parse source = .ok program) {position : Nat} {instr : Instr}
    (hat : program.code[position]? = some instr) {w : Word} (hw : w ∈ instr.head.words) :
    program.Within position w.line := by
  obtain ⟨hinside, hbetween⟩ := List.pairwise_flatMap.mp (lines_words h).1
  rw [← Array.getElem?_toList] at hat
  constructor
  · refine ⟨instr.word.line, by rw [getElem?_lines, ← Array.getElem?_toList, hat]; rfl, ?_⟩
    have hown := hinside instr (List.mem_of_getElem? hat)
    obtain ⟨rest, hrest⟩ := instr.head.words_eq_cons
    rw [hrest, instr.word_head] at hw hown
    obtain rfl | hw := List.mem_cons.mp hw
    · exact Int.le_refl _
    · exact Int.ofNat_le.mpr ((List.pairwise_cons.mp hown).1 w hw)
  · intro next hnext
    rw [getElem?_lines, ← Array.getElem?_toList, Option.map_eq_some_iff] at hnext
    obtain ⟨other, hother, rfl⟩ := hnext
    obtain ⟨hlt, rfl⟩ := List.getElem?_eq_some_iff.mp hat
    obtain ⟨hlt', rfl⟩ := List.getElem?_eq_some_iff.mp hother
    exact Int.ofNat_le.mpr (List.pairwise_iff_getElem.mp hbetween position (position + 1) hlt hlt'
      (Nat.lt_succ_self _) w hw _ (word_mem_words _))

end LineBasic.Program
