import LineBasic.Proofs.Program.Check
import LineBasic.Proofs.Token.Scan

namespace LineBasic

def Head.target? : Head → Option Word
  | .simple (.goto _ label) => some label
  | .simple (.gosub _ label) => some label
  | _ => none

theorem Instr.target?_head (instr : Instr) : instr.head.target? = instr.target? := by
  cases instr with
  | simple stmt => cases stmt <;> rfl
  | _ => rfl

namespace Block

-- A label is the word of one of the tokens, a name or a reserved word.
def Mentions (ts : List Token) (label : Word) : Prop :=
  ∃ token ∈ ts, isName token ∧ token.toWord = label

theorem Mentions.mono {ts us : List Token} {label : Word} (h : Mentions ts label)
    (hsub : ts ⊆ us) : Mentions us label := by
  obtain ⟨token, ht, hname⟩ := h
  exact ⟨token, hsub ht, hname⟩

theorem Derives.mentions {stmt : Stmt} {ts after : List Token} (h : Derives stmt ts after)
    {label : Word} (hl : (Head.simple stmt).target? = some label) : Mentions ts label := by
  cases h with
  | goto hn =>
    cases hl
    exact ⟨_, by simp, hn, rfl⟩
  | gosub hn =>
    cases hl
    exact ⟨_, by simp, hn, rfl⟩
  | _ => cases hl

theorem Body.mentions {block : Block} {ts after : List Token} (h : Body block ts after)
    {head : Head} (hmem : head ∈ block.heads) {label : Word} (hl : head.target? = some label) :
    Mentions ts label := by
  induction h with
  | done => cases hmem
  | separator _ _ ih => exact (ih hmem).mono (by simp)
  | simple hs _ ih =>
    rcases List.mem_cons.mp hmem with rfl | hmem
    · exact (hs.mentions hl).mono (by simp)
    · exact (ih hmem).mono (by simp)
  | branch _ _ _ ihb ihr =>
    simp only [heads, List.cons_append, List.mem_cons, List.mem_append] at hmem
    rcases hmem with rfl | hmem | hmem
    · cases hl
    · exact (ihb hmem).mono fun token ht => by simp [ht]
    · exact (ihr hmem).mono fun token ht => by simp [ht]
  | choice _ _ _ _ ihb iha ihr =>
    simp only [heads, List.cons_append, List.append_assoc, List.mem_cons, List.mem_append] at hmem
    rcases hmem with rfl | hmem | rfl | hmem | hmem
    · cases hl
    · exact (ihb hmem).mono fun token ht => by simp [ht]
    · cases hl
    · exact (iha hmem).mono fun token ht => by simp [ht]
    · exact (ihr hmem).mono fun token ht => by simp [ht]
  | loop _ _ _ _ _ ihb ihr =>
    simp only [heads, List.cons_append, List.mem_cons, List.mem_append] at hmem
    rcases hmem with rfl | hmem | rfl | hmem
    · cases hl
    · exact (ihb hmem).mono fun token ht => by simp [ht]
    · cases hl
    · exact (ihr hmem).mono fun token ht => by simp [ht]

end Block

namespace Program

theorem newline_not_mem_target {source : Bytes} {p : Program} (h : parse source = .ok p)
    {label : Word} (hmem : label ∈ p.targets) : (10 : UInt8) ∉ label.text := by
  obtain ⟨block, hp, rfl⟩ := parse_eq_ok.mp h
  obtain ⟨-, hb, -⟩ := Block.parse_sound hp
  obtain ⟨instr, hinstr, hl⟩ := List.mem_filterMap.mp hmem
  have hhead : instr.head ∈ block.heads := by
    rw [← block.map_head_flatten 0]
    exact List.mem_map_of_mem hinstr
  rw [← instr.target?_head] at hl
  obtain ⟨⟨word, kind⟩, ht, hname, rfl⟩ := hb.mentions hhead hl
  refine Scan.newline_not_mem_name ht ?_
  unfold Block.isName at hname
  cases kind with
  | «variable» => exact .inl rfl
  | command word => exact .inr ⟨word, rfl⟩
  | _ => cases hname

end Program

end LineBasic
