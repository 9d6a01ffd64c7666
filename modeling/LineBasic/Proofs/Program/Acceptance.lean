import LineBasic.Proofs.Block.Completeness

namespace LineBasic

def Word.ofString (text : String) (line : Nat) : Word :=
  ⟨Bytes.ofString text, line⟩

theorem eq_ok_of_toOption {ε α : Type} {result : Except ε α} {a : α}
    (h : result.toOption = some a) : result = .ok a := by
  cases result with
  | error e => cases h
  | ok other => exact congrArg Except.ok (Option.some.inj h)

namespace Expr

def words (e : Expr) : List Word :=
  e.tokens.map Token.toWord

theorem words_grouping (opening : Word) (inner : Expr) (closing : Word) :
    (grouping opening inner closing).words = opening :: inner.words ++ [closing] := by
  simp [words, tokens]

theorem words_binary (left : Expr) (op : Operator) (sign : Word) (right : Expr) :
    (binary left op sign right).words = left.words ++ sign :: right.words := by
  simp [words, tokens]

end Expr

namespace Stmt

-- The word that a statement is reported against, and those of its label or its expressions.
def words : Stmt → List Word
  | .assign name value => name :: value.words
  | .print keyword elements => keyword :: elements.flatMap Expr.words
  | .goto keyword name => [keyword, name]
  | .gosub keyword name => [keyword, name]
  | stmt => [stmt.word]

end Stmt

namespace Head

def word : Head → Word
  | .simple stmt => stmt.word
  | .branch keyword _ => keyword
  | .otherwise keyword => keyword
  | .loop keyword _ _ _ => keyword
  | .next keyword => keyword

-- The words that a statement can fail at, in source order.
def words : Head → List Word
  | .simple stmt => stmt.words
  | .branch keyword condition => keyword :: condition.words
  | .otherwise keyword => [keyword]
  | .loop keyword _ first last => keyword :: first.words ++ last.words
  | .next keyword => [keyword]

theorem words_eq_cons (head : Head) : ∃ rest, head.words = head.word :: rest := by
  cases head with
  | simple stmt => cases stmt <;> exact ⟨_, rfl⟩
  | _ => exact ⟨_, rfl⟩

end Head

theorem Instr.word_head (instr : Instr) : instr.head.word = instr.word := by
  cases instr <;> rfl

namespace Block

theorem PrintList.words {elements : List Expr} {ts : List Token} (h : PrintList elements ts) :
    (elements.flatMap Expr.words).Sublist (ts.map Token.toWord) := by
  induction h with
  | empty => exact .slnil
  | last _ => simp [Expr.words]
  | more _ _ _ ih =>
    rw [List.flatMap_cons, List.map_append, List.map_cons]
    exact (List.Sublist.refl _).append (ih.cons _)

-- A statement has its words among its tokens, and is reported against the first one.
theorem Derives.words {stmt : Stmt} {ts after : List Token} (h : Derives stmt ts after) :
    stmt.words.Sublist (ts.map Token.toWord) := by
  cases h with
  | print hl _ => exact hl.words.cons_cons _
  | assign _ => exact ((List.Sublist.refl _).cons _).cons_cons _
  | _ => simp [Stmt.words, Stmt.word]

-- The statements of a block have their words among its tokens, in the same order.
theorem Body.allWords {block : Block} {ts after : List Token} (h : Body block ts after) :
    (block.heads.flatMap Head.words).Sublist (ts.map Token.toWord) := by
  induction h with
  | done => exact .slnil
  | separator _ _ ih => exact ih.cons _
  | simple hs _ ih =>
    simp only [heads, List.flatMap_cons, List.map_append]
    exact hs.words.append ih
  | @branch keyword thenWord endWord condition body rest ts us after _ _ _ ihb ihr =>
    simp only [heads, List.flatMap_cons, List.flatMap_append, List.map_cons, List.map_append,
      List.cons_append, List.append_assoc, Head.words]
    have hinner := (ihb.append (ihr.cons endWord)).cons thenWord
    exact ((List.Sublist.refl condition.words).append hinner).cons_cons _
  | @choice keyword thenWord otherwise endWord condition body alternative rest ts vs us after _ _ _
      _ ihb iha ihr =>
    simp only [heads, List.flatMap_cons, List.flatMap_append, List.map_cons, List.map_append,
      List.cons_append, List.nil_append, List.append_assoc, Head.words]
    have hinner := (ihb.append ((iha.append (ihr.cons endWord)).cons_cons otherwise)).cons thenWord
    exact ((List.Sublist.refl condition.words).append hinner).cons_cons _
  | @loop keyword name sign toWord next low high body rest ts ws us after _ _ _ _ _ ihb ihr =>
    simp only [heads, List.flatMap_cons, List.flatMap_append, List.map_cons, List.map_append,
      List.cons_append, List.nil_append, List.append_assoc, Head.words]
    -- the variable may be repeated after the NEXT, which is not one of its words
    have hafter := ihr.trans (List.sublist_append_right (ws.map Token.toWord) _)
    have hinner := (List.Sublist.refl high.words).append (ihb.append (hafter.cons_cons next))
    have hbounds := (List.Sublist.refl low.words).append (hinner.cons toWord)
    exact ((hbounds.cons _).cons _).cons_cons _

theorem Body.words {block : Block} {ts after : List Token} (h : Body block ts after) :
    (block.heads.map Head.word).Sublist (ts.map Token.toWord) := by
  refine List.Sublist.trans ?_ h.allWords
  generalize block.heads = heads
  induction heads with
  | nil => exact .slnil
  | cons head rest ih =>
    obtain ⟨more, hm⟩ := head.words_eq_cons
    rw [List.map_cons, List.flatMap_cons, hm, List.cons_append]
    exact (ih.trans (List.sublist_append_right _ _)).cons_cons _

end Block

namespace Program

theorem parse_eq_ok {source : Bytes} {program : Program} :
    parse source = .ok program ↔
      ∃ block, Block.parse (Scan.ofSource source) = .ok block ∧ ofBlock block = program := by
  unfold parse
  cases Block.parse (Scan.ofSource source) with
  | error failure => simp [Except.map]
  | ok block => simp [Except.map]

theorem parse_eq_error {source : Bytes} {failure : Failure} :
    parse source = .error failure ↔ Block.parse (Scan.ofSource source) = .error failure := by
  unfold parse
  cases Block.parse (Scan.ofSource source) <;> simp [Except.map]

theorem parse_error_of_failure {source : Bytes} (h : (Scan.ofSource source).failure ≠ none) :
    ∃ failure, parse source = .error failure := by
  cases hparse : parse source with
  | error failure => exact ⟨failure, rfl⟩
  | ok program =>
    obtain ⟨block, hp, -⟩ := parse_eq_ok.mp hparse
    exact (h (Block.parse_sound hp).1).elim

theorem code_ofBlock (block : Block) : (ofBlock block).code.toList = block.flatten 0 :=
  rfl

-- A source is accepted if and only if it does not break off and its tokens are derived with
-- labels of different names. The program has the statements of the derivation in source order.
theorem parse_eq_ok_iff_derived (source : Bytes) (program : Program) :
    parse source = .ok program ↔
      (Scan.ofSource source).failure = none ∧
        ∃ block, Block.Body block (Scan.ofSource source).tokens [] ∧ block.labelNames.Nodup ∧
          program = ofBlock block ∧ program.code.toList.map Instr.head = block.heads ∧
          (program.code.toList.map Instr.word).Sublist
            ((Scan.ofSource source).tokens.map Token.toWord) := by
  rw [parse_eq_ok]
  constructor
  · rintro ⟨block, hp, rfl⟩
    obtain ⟨hf, hb, hn⟩ := Block.parse_sound hp
    have hheads := block.map_head_flatten 0
    have hwords : ((ofBlock block).code.toList.map Instr.word) = block.heads.map Head.word := by
      rw [code_ofBlock, ← hheads, List.map_map]
      exact List.map_congr_left fun instr _ => instr.word_head.symm
    refine ⟨hf, block, hb, hn, rfl, hheads, ?_⟩
    rw [hwords]
    exact hb.words
  · rintro ⟨hf, block, hb, hn, rfl, -, -⟩
    exact ⟨block, Block.parse_complete hf hb hn, rfl⟩

-- A program to try theorems about parsed programs on: its loop prints 1 and ends the program in the
-- second of three rounds.
def countingSource : Bytes :=
  Bytes.ofString "FOR I = 1 TO 3;IF I = 2 THEN END ELSE PRINT I ENDIF;NEXT"

def counting : Block :=
  .loop (.ofString "FOR" 1) (.ofString "I" 1) (.number (.ofInt 1) (.ofString "1" 1))
    (.number (.ofInt 3) (.ofString "3" 1))
    (.choice (.ofString "IF" 1)
      (.binary (.variable (.ofString "I" 1)) .eq (.ofString "=" 1)
        (.number (.ofInt 2) (.ofString "2" 1)))
      (.simple (.stop (.ofString "END" 1)) .done) (.ofString "ELSE" 1)
      (.simple (.print (.ofString "PRINT" 1) [.variable (.ofString "I" 1)]) .done) .done)
    (.ofString "NEXT" 1) .done

theorem parse_countingSource : Block.parse (Scan.ofSource countingSource) = .ok counting :=
  eq_ok_of_toOption (by decide +kernel)

-- A program to try theorems about jumps on: in each of two rounds its loop calls a subroutine that
-- assigns the loop variable.
def callingSource : Bytes :=
  Bytes.ofString "FOR I = 1 TO 2\nGOSUB S\nNEXT\nEND\nS:\nI = 7\nRETURN"

def calling : Block :=
  .loop (.ofString "FOR" 1) (.ofString "I" 1) (.number (.ofInt 1) (.ofString "1" 1))
    (.number (.ofInt 2) (.ofString "2" 1))
    (.simple (.gosub (.ofString "GOSUB" 2) (.ofString "S" 2)) .done)
    (.ofString "NEXT" 3)
    (.simple (.stop (.ofString "END" 4))
      (.simple (.label (.ofString "S" 5))
        (.simple (.assign (.ofString "I" 6) (.number (.ofInt 7) (.ofString "7" 6)))
          (.simple (.ret (.ofString "RETURN" 7)) .done))))

theorem parse_callingSource : parse callingSource = .ok (.ofBlock calling) :=
  parse_eq_ok.mpr ⟨_, eq_ok_of_toOption (by decide +kernel), rfl⟩

end Program

end LineBasic
