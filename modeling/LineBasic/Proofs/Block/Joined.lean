import LineBasic.Proofs.Block.Reline
import LineBasic.Proofs.Block.Soundness

namespace LineBasic.Block

variable {token : Token}

theorem not_endOfLine_of_mem_tokens {e : Expr} (h : token ∈ e.tokens) : token.kind ≠ .endOfLine := by
  induction e with
  | grouping opening inner closing ih =>
    simp only [Expr.tokens, List.cons_append, List.mem_cons, List.mem_append, List.not_mem_nil,
      or_false] at h
    rcases h with rfl | h | rfl
    · simp
    · exact ih h
    · simp
  | binary left op sign right ihl ihr =>
    simp only [Expr.tokens, List.mem_append, List.mem_cons] at h
    rcases h with h | rfl | h
    · exact ihl h
    · simp
    · exact ihr h
  | _ =>
    cases List.mem_singleton.mp h
    simp

theorem PrintList.not_endOfLine {elements : List Expr} {ts : List Token}
    (h : PrintList elements ts) (hmem : token ∈ ts) : token.kind ≠ .endOfLine := by
  induction h with
  | empty => cases hmem
  | last => exact not_endOfLine_of_mem_tokens hmem
  | more _ hs _ ih =>
    rcases List.mem_append.mp hmem with hmem | hmem
    · exact not_endOfLine_of_mem_tokens hmem
    · rcases List.mem_cons.mp hmem with rfl | hmem
      · rcases isListSeparator_iff.mp hs with hk | hk <;> simp [hk]
      · exact ih hmem

-- The end of a line limits a list as the end of the input does.
theorem Longest.extend {ts after : List Token} (h : Longest ts after)
    (ht : token.kind = .endOfLine) (more : List Token) :
    Longest ts (after ++ token :: more) := by
  intro es' ts' after' hl he
  rw [← List.append_assoc] at he
  rcases List.append_eq_append_iff.mp he with ⟨between, hb, -⟩ | ⟨between, hb, hm⟩
  · exact h _ _ between hl hb.symm
  · cases between with
    | nil => exact h _ _ [] hl (by rw [List.append_nil, hb, List.append_nil])
    | cons other between =>
      -- a list that is longer than what stands before the end of the line takes it as an element
      obtain ⟨rfl, -⟩ := List.cons.inj hm
      exact False.elim (hl.not_endOfLine (by simp [hb]) ht)

theorem Derives.extend {stmt : Stmt} {ts after : List Token} (h : Derives stmt ts after)
    (ht : token.kind = .endOfLine) (more : List Token) :
    Derives stmt ts (after ++ token :: more) := by
  cases h with
  | label => exact .label
  | assign hv => exact .assign hv
  | print hl hmax => exact .print hl (hmax.extend ht more)
  | input => exact .input
  | prompt => exact .prompt
  | separatedPrompt hs => exact .separatedPrompt hs
  | goto hn => exact .goto hn
  | gosub hn => exact .gosub hn
  | ret => exact .ret
  | stop => exact .stop

theorem Repeats.extend {name : Word} {ts after : List Token} (h : Repeats name ts after)
    (ht : token.kind = .endOfLine) (more : List Token) :
    Repeats name ts (after ++ token :: more) := by
  cases h with
  | «variable» he => exact .variable he
  | nothing hnone =>
    refine .nothing ?_
    intro word rest he
    cases after with
    | nil =>
      obtain ⟨rfl, -⟩ := List.cons.inj he
      cases ht
    | cons first after =>
      obtain ⟨rfl, -⟩ := List.cons.inj he
      exact hnone word after rfl

-- A body is the same in front of the end of a line as in front of the end of the input.
theorem Body.extend {block : Block} {ts after : List Token} (h : Body block ts after)
    (ht : token.kind = .endOfLine) (more : List Token) :
    Body block ts (after ++ token :: more) := by
  induction h with
  | done => exact .done
  | separator hs _ ih => exact .separator hs ih
  | simple hs _ ih =>
    have hstmt := hs.extend ht more
    rw [List.append_assoc] at hstmt
    exact .simple hstmt ih
  | branch hc _ _ ihb ihr =>
    rw [List.append_assoc] at ihb
    exact .branch hc ihb ihr
  | choice hc _ _ _ ihb iha ihr =>
    rw [List.append_assoc] at ihb iha
    exact .choice hc ihb iha ihr
  | loop hf hl _ hn _ ihb ihr =>
    have hnext := hn.extend ht more
    rw [List.append_assoc] at ihb hnext
    exact .loop hf hl ihb hnext ihr

-- A body goes on with the statements of the body after it.
theorem Body.leads {block : Block} {ts rest : List Token} (h : Body block ts rest) :
    Leads block ts rest := by
  intro others us after hrest ho
  induction h with
  | done => exact ho
  | separator hs _ ih => exact .separator hs (ih hrest)
  | @simple stmt others' ts us' after' hs _ ih =>
    subst hrest
    rw [List.append_assoc]
    exact .simple (by rwa [List.append_assoc]) (ih rfl)
  | branch hc hb _ _ ih =>
    subst hrest
    simpa [append] using Body.branch hc (by simpa using hb) (ih rfl)
  | choice hc hb ha _ _ _ ih =>
    subst hrest
    simpa [append] using Body.choice hc (by simpa using hb) (by simpa using ha) (ih rfl)
  | loop hf hl hb hn _ _ ih =>
    subst hrest
    simpa [append] using Body.loop hf hl (by simpa using hb) (by simpa using hn) (ih rfl)

end LineBasic.Block
