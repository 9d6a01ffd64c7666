import LineBasic.Proofs.Block.Grammar
import LineBasic.Proofs.Token.Scan

namespace LineBasic

variable {f g : Nat → Nat}

theorem Token.map_reline_reline (h : ∀ line, g (f line) = line) (ts : List Token) :
    (ts.map (reline f)).map (reline g) = ts := by
  induction ts with
  | nil => rfl
  | cons t rest ih =>
    rw [List.map_cons, List.map_cons, ih]
    simp [reline, Word.reline, h]

namespace Expr

def reline (f : Nat → Nat) : Expr → Expr
  | .number value word => .number value (word.reline f)
  | .string value word => .string value (word.reline f)
  | .variable name => .variable (name.reline f)
  | .grouping opening inner closing =>
    .grouping (opening.reline f) (inner.reline f) (closing.reline f)
  | .binary left op sign right => .binary (left.reline f) op (sign.reline f) (right.reline f)

theorem tokens_reline (f : Nat → Nat) (e : Expr) :
    (e.reline f).tokens = e.tokens.map (Token.reline f) := by
  induction e with
  | grouping opening inner closing ih => simp [reline, tokens, ih, Token.reline]
  | binary left op sign right ihl ihr => simp [reline, tokens, ihl, ihr, Token.reline]
  | _ => rfl

theorem rank_reline (f : Nat → Nat) (e : Expr) : (e.reline f).rank = e.rank := by
  cases e <;> rfl

theorem Layered.reline (f : Nat → Nat) {e : Expr} (h : e.Layered) : (e.reline f).Layered := by
  induction e with
  | grouping opening inner closing ih => exact ih h
  | binary left op sign right ihl ihr =>
    obtain ⟨hleft, hright, hlr, hrr⟩ := h
    refine ⟨ihl hleft, ihr hright, ?_, ?_⟩
    · rwa [rank_reline]
    · rwa [rank_reline]
  | _ => trivial

end Expr

def Stmt.reline (f : Nat → Nat) : Stmt → Stmt
  | .assign name value => .assign (name.reline f) (value.reline f)
  | .print keyword elements => .print (keyword.reline f) (elements.map (Expr.reline f))
  | .input keyword prompt name => .input (keyword.reline f) prompt (name.reline f)
  | .goto keyword target => .goto (keyword.reline f) (target.reline f)
  | .gosub keyword target => .gosub (keyword.reline f) (target.reline f)
  | .ret keyword => .ret (keyword.reline f)
  | .label name => .label (name.reline f)
  | .stop keyword => .stop (keyword.reline f)

namespace Block

def reline (f : Nat → Nat) : Block → Block
  | .done => .done
  | .simple stmt rest => .simple (stmt.reline f) (rest.reline f)
  | .branch keyword condition body rest =>
    .branch (keyword.reline f) (condition.reline f) (body.reline f) (rest.reline f)
  | .choice keyword condition body otherwise alternative rest =>
    .choice (keyword.reline f) (condition.reline f) (body.reline f) (otherwise.reline f)
      (alternative.reline f) (rest.reline f)
  | .loop keyword name first last body next rest =>
    .loop (keyword.reline f) (name.reline f) (first.reline f) (last.reline f) (body.reline f)
      (next.reline f) (rest.reline f)

theorem labels_reline (f : Nat → Nat) (block : Block) :
    (block.reline f).labels = block.labels.map (Word.reline f) := by
  induction block with
  | done => rfl
  | simple stmt rest ih => cases stmt <;> simp [reline, Stmt.reline, labels, ih]
  | branch keyword condition body rest ihb ihr => simp [reline, labels, ihb, ihr]
  | choice keyword condition body otherwise alternative rest ihb iha ihr =>
    simp [reline, labels, ihb, iha, ihr]
  | loop keyword name first last body next rest ihb ihr => simp [reline, labels, ihb, ihr]

theorem labelNames_reline (f : Nat → Nat) (block : Block) :
    (block.reline f).labelNames = block.labelNames := by
  unfold labelNames
  rw [labels_reline, List.map_map]
  rfl

theorem PrintList.reline (f : Nat → Nat) {elements : List Expr} {ts : List Token}
    (h : PrintList elements ts) :
    PrintList (elements.map (Expr.reline f)) (ts.map (Token.reline f)) := by
  induction h with
  | empty => exact .empty
  | last he =>
    rw [← Expr.tokens_reline]
    exact .last (he.reline f)
  | more he hs _ ih =>
    rw [List.map_append, ← Expr.tokens_reline]
    exact .more (he.reline f) hs ih

-- A longer list on the new lines would be one on the old lines as well.
theorem Longest.reline (hgf : ∀ line, g (f line) = line) {ts after : List Token}
    (h : Longest ts after) : Longest (ts.map (Token.reline f)) (after.map (Token.reline f)) := by
  intro es' ts' after' hl he
  have hback := congrArg (List.map (Token.reline g)) he
  rw [List.map_append, List.map_append, Token.map_reline_reline hgf,
    Token.map_reline_reline hgf] at hback
  have := h _ _ _ (hl.reline g) hback
  rwa [List.length_map] at this ⊢

theorem Derives.reline (hgf : ∀ line, g (f line) = line) {stmt : Stmt} {ts after : List Token}
    (h : Derives stmt ts after) :
    Derives (stmt.reline f) (ts.map (Token.reline f)) (after.map (Token.reline f)) := by
  cases h with
  | label => exact .label
  | assign hv =>
    simp only [List.map_cons, ← Expr.tokens_reline]
    exact .assign (hv.reline f)
  | print hl hmax => exact .print (hl.reline f) (hmax.reline hgf)
  | input => exact .input
  | prompt => exact .prompt
  | @separatedPrompt _ _ _ _ separator _ hs =>
    have hs' : isListSeparator (separator.reline f) := hs
    exact .separatedPrompt hs'
  | @goto _ name _ hn =>
    have hn' : isName (name.reline f) := hn
    exact .goto hn'
  | @gosub _ name _ hn =>
    have hn' : isName (name.reline f) := hn
    exact .gosub hn'
  | ret => exact .ret
  | stop => exact .stop

theorem Repeats.reline (f : Nat → Nat) {name : Word} {ts after : List Token}
    (h : Repeats name ts after) :
    Repeats (name.reline f) (ts.map (Token.reline f)) (after.map (Token.reline f)) := by
  cases h with
  | «variable» he => exact .variable he
  | nothing hnone =>
    refine .nothing ?_
    intro word rest he
    obtain ⟨⟨old, kind⟩, more, rfl, ht, -⟩ := List.map_eq_cons_iff.mp he
    cases ht
    exact hnone old more rfl

theorem Body.reline (hgf : ∀ line, g (f line) = line) {block : Block} {ts after : List Token}
    (h : Body block ts after) :
    Body (block.reline f) (ts.map (Token.reline f)) (after.map (Token.reline f)) := by
  induction h with
  | done => exact .done
  | separator hs _ ih => exact .separator hs ih
  | simple hs _ ih =>
    have hstmt := hs.reline hgf
    rw [List.map_append] at hstmt ⊢
    exact .simple hstmt ih
  | branch hc _ _ ihb ihr =>
    simp only [List.map_append, List.map_cons, ← Expr.tokens_reline] at ihb ⊢
    exact .branch (hc.reline f) ihb ihr
  | choice hc _ _ _ ihb iha ihr =>
    simp only [List.map_append, List.map_cons, ← Expr.tokens_reline] at ihb iha ⊢
    exact .choice (hc.reline f) ihb iha ihr
  | loop hf hl _ hn _ ihb ihr =>
    have hnext := hn.reline f
    simp only [List.map_append, List.map_cons, ← Expr.tokens_reline] at ihb hnext ⊢
    exact .loop (hf.reline f) (hl.reline f) ihb hnext ihr

end Block

end LineBasic
