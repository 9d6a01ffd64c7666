import LineBasic.Proofs.Block.Soundness

namespace LineBasic.Block

variable {s : Scan}

-- A body ends here: the input is over, or a closing word stands in front.
def Stops : List Token → Prop
  | [] => True
  | token :: _ => closes token

def Opens (token : Token) : Prop :=
  isSeparator token = false ∧ closes token = false

theorem opens_command {word : Word} {command : Command} (he : command ≠ .Else)
    (hf : command ≠ .Endif) (hn : command ≠ .Next) : Opens ⟨word, .command command⟩ := by
  simp [Opens, isSeparator, closes, he, hf, hn]

theorem Derives.front {stmt : Stmt} {ts after : List Token} (h : Derives stmt ts after) :
    ∃ token rest, ts = token :: rest ∧ Opens token ∧
      (token.kind = .label ∨ token.kind = .variable ∨ ∃ command, token.kind = .command command) := by
  cases h
  case label => exact ⟨_, _, rfl, by simp [Opens, isSeparator, closes], .inl rfl⟩
  case assign => exact ⟨_, _, rfl, by simp [Opens, isSeparator, closes], .inr (.inl rfl)⟩
  all_goals
    exact ⟨_, _, rfl, opens_command (by simp) (by simp) (by simp), .inr (.inr ⟨_, rfl⟩)⟩

theorem closes_iff {token : Token} :
    closes token ↔ token.kind = .command .Else ∨ token.kind = .command .Endif ∨
      token.kind = .command .Next := by
  simp [closes, or_assoc]

theorem Stops.follows {after : List Token} (h : Stops after) : Follows after := by
  cases after with
  | nil => trivial
  | cons token rest =>
    refine .inr (.inr (.inr ?_))
    rcases closes_iff.mp h with h | h | h <;> exact ⟨_, h⟩

theorem Body.follows {block : Block} {ts after : List Token} (h : Body block ts after)
    (ha : Stops after) : Follows (ts ++ after) := by
  cases h with
  | done => exact ha.follows
  | separator hs _ => exact .inl hs
  | simple hs _ =>
    obtain ⟨token, rest, rfl, -, hk⟩ := hs.front
    exact .inr hk
  | branch => exact .inr (.inr (.inr ⟨_, rfl⟩))
  | choice => exact .inr (.inr (.inr ⟨_, rfl⟩))
  | loop => exact .inr (.inr (.inr ⟨_, rfl⟩))

theorem sequence_of_stops {body : BodyParser} {fuel : Nat} {names : List Bytes}
    {after : List Token} (h : Stops after) :
    sequence s body fuel names after = .ok (.done, after) := by
  cases fuel with
  | zero => rfl
  | succ fuel =>
    cases after with
    | nil => rfl
    | cons token rest =>
      have hsep : isSeparator token = false := by
        rcases closes_iff.mp h with h | h | h <;> simp [isSeparator, h]
      have hc : closes token = true := h
      simp [sequence, hsep, hc]

theorem skipListSeparator_variable {name : Word} {rest : List Token} :
    skipListSeparator (⟨name, .variable⟩ :: rest) = ⟨name, .variable⟩ :: rest :=
  rfl

theorem skipListSeparator_cons {separator : Token} {rest : List Token}
    (h : isListSeparator separator) : skipListSeparator (separator :: rest) = rest := by
  obtain ⟨word, kind⟩ := separator
  rcases isListSeparator_iff.mp h with rfl | rfl <;> rfl

-- Every statement without a body is read in front of what can follow it.
theorem statement_complete {body : BodyParser} {names : List Bytes} {stmt : Stmt}
    {ts after : List Token} (h : Derives stmt ts after) (ha : Follows after)
    (hn : (names ++ (single stmt).labelNames).Nodup) :
    statement s body names (ts ++ after) = .ok (single stmt, after) := by
  cases h with
  | @label name =>
    have hnew : name.text ∉ names := by
      intro hmem
      rw [List.nodup_append] at hn
      exact hn.2.2 _ hmem _ (by simp [single, labelNames, labels]) rfl
    simp [statement, hnew]
  | assign hv =>
    exact bind_eq_ok.mpr ⟨_, expectEqual_eq_ok.mpr ⟨_, rfl⟩,
      bind_eq_ok.mpr ⟨_, Expr.parse_complete hv ha.bounded, rfl⟩⟩
  | @print _ _ ts _ hl hmax =>
    have hlen : ts.length < (ts ++ after).length + 1 :=
      Nat.lt_succ_of_le (List.sublist_append_left _ _).length_le
    exact bind_eq_ok.mpr ⟨_, printList_complete hl _ after hmax ha hlen, rfl⟩
  | input => exact bind_eq_ok.mpr ⟨_, expectVariable_eq_ok.mpr rfl, rfl⟩
  | prompt =>
    exact bind_eq_ok.mpr ⟨_, expectVariable_eq_ok.mpr skipListSeparator_variable, rfl⟩
  | separatedPrompt hs =>
    exact bind_eq_ok.mpr ⟨_, expectVariable_eq_ok.mpr (skipListSeparator_cons hs), rfl⟩
  | goto hname => exact bind_eq_ok.mpr ⟨_, expectLabel_eq_ok.mpr ⟨_, hname, rfl, rfl⟩, rfl⟩
  | gosub hname => exact bind_eq_ok.mpr ⟨_, expectLabel_eq_ok.mpr ⟨_, hname, rfl, rfl⟩, rfl⟩
  | ret => rfl
  | stop => rfl

-- A word is the first of the labels that repeats a name, one of `names` or one declared before it.
def Clashes (names : List Bytes) (labels : List Word) (word : Word) : Prop :=
  ∃ before after, labels = before ++ word :: after ∧ (names ++ before.map Word.text).Nodup ∧
    word.text ∈ names ++ before.map Word.text

-- The first repetition is among the first labels, or those are new and it is among the others.
theorem clashes_append {names : List Bytes} {labels others : List Word} {word : Word}
    (h : Clashes names (labels ++ others) word) :
    Clashes names labels word ∨
      (names ++ labels.map Word.text).Nodup ∧
        Clashes (names ++ labels.map Word.text) others word := by
  obtain ⟨before, after, he, hn, hmem⟩ := h
  rcases List.append_eq_append_iff.mp he with ⟨more, rfl, hothers⟩ | ⟨more, hlabels, hafter⟩
  · rw [List.map_append, ← List.append_assoc] at hn hmem
    exact .inr ⟨(List.nodup_append.mp hn).1, more, after, hothers, hn, hmem⟩
  · cases more with
    | nil =>
      rw [List.append_nil] at hlabels
      subst hlabels
      exact .inr ⟨hn, [], after, hafter.symm, by simpa using hn, by simpa using hmem⟩
    | cons first more =>
      obtain ⟨rfl, -⟩ := List.cons.inj hafter
      exact .inl ⟨before, more, hlabels, hn, hmem⟩

theorem not_clashes_nil {names : List Bytes} {word : Word} : ¬Clashes names [] word := by
  rintro ⟨before, after, he, -, -⟩
  exact List.append_ne_nil_of_right_ne_nil _ (List.cons_ne_nil _ _) he.symm

theorem clashes_singleton {names : List Bytes} {label word : Word}
    (h : Clashes names [label] word) : label = word ∧ word.text ∈ names := by
  obtain ⟨before, after, he, -, hmem⟩ := h
  cases before with
  | nil =>
    rw [List.map_nil, List.append_nil] at hmem
    exact ⟨(List.cons.inj he).1, hmem⟩
  | cons first before =>
    have hnil := (List.cons.inj he).2
    exact (List.append_ne_nil_of_right_ne_nil _ (List.cons_ne_nil _ _) hnil.symm).elim

-- A body parser answers for a block at the front of some tokens: it reads the block if the labels in
-- it are new, and fails at the first label that repeats a name.
structure Answers (body : BodyParser) (block : Block) (ts after : List Token) : Prop where
  finds {names : List Bytes} (h : (names ++ block.labelNames).Nodup) :
    body names ts = .ok (block, after)
  refuses {names : List Bytes} {word : Word} (h : Clashes names block.labels word) :
    body names ts = .error ⟨.duplicateLabel, word.line, word.text⟩

section Statements

variable {body : BodyParser} {stmt : Stmt} {condition low high : Expr} {yes no inner : Block}
  {ts us ws after : List Token} {name : Word}

theorem statement_single (h : Derives stmt ts after) (ha : Follows after) :
    Answers (statement s body) (single stmt) (ts ++ after) after where
  finds hn := statement_complete h ha hn
  refuses := by
    intro names word hc
    cases h with
    | label =>
      obtain ⟨rfl, hmem⟩ := clashes_singleton hc
      simp [statement, hmem]
    | _ => exact (not_clashes_nil hc).elim

theorem statement_branch (keyword thenWord endWord : Word) (hc : condition.Layered)
    (hb : Answers body yes ts (⟨endWord, .command .Endif⟩ :: after)) :
    Answers (statement s body) (.branch keyword condition yes .done) (⟨keyword, .command .If⟩ ::
      (condition.tokens ++ ⟨thenWord, .command .Then⟩ :: ts)) after where
  finds := by
    intro names hn
    rw [labelNames, labels, labels, List.append_nil] at hn
    refine (bind_of_eq_ok (Expr.parse_complete hc (Expr.bounded_cons (by simp))) _).trans ?_
    refine (bind_of_eq_ok (expectCommand_eq_ok.mpr rfl) _).trans ?_
    exact (bind_of_eq_ok (hb.finds hn) _).trans rfl
  refuses := by
    intro names word h
    rw [labels, labels, List.append_nil] at h
    refine (bind_of_eq_ok (Expr.parse_complete hc (Expr.bounded_cons (by simp))) _).trans ?_
    refine (bind_of_eq_ok (expectCommand_eq_ok.mpr rfl) _).trans ?_
    exact bind_of_eq_error (hb.refuses h) _

theorem statement_choice (keyword thenWord otherwise endWord : Word) (hc : condition.Layered)
    (hy : Answers body yes ts (⟨otherwise, .command .Else⟩ :: us))
    (hb : Answers body no us (⟨endWord, .command .Endif⟩ :: after)) :
    Answers (statement s body) (.choice keyword condition yes otherwise no .done)
      (⟨keyword, .command .If⟩ :: (condition.tokens ++ ⟨thenWord, .command .Then⟩ :: ts))
      after where
  finds := by
    intro names hn
    rw [labelNames, labels, labels, List.append_nil, List.map_append, ← List.append_assoc] at hn
    refine (bind_of_eq_ok (Expr.parse_complete hc (Expr.bounded_cons (by simp))) _).trans ?_
    refine (bind_of_eq_ok (expectCommand_eq_ok.mpr rfl) _).trans ?_
    refine (bind_of_eq_ok (hy.finds (List.nodup_append.mp hn).1) _).trans ?_
    exact (bind_of_eq_ok (hb.finds hn) _).trans rfl
  refuses := by
    intro names word h
    rw [labels, labels, List.append_nil] at h
    refine (bind_of_eq_ok (Expr.parse_complete hc (Expr.bounded_cons (by simp))) _).trans ?_
    refine (bind_of_eq_ok (expectCommand_eq_ok.mpr rfl) _).trans ?_
    rcases clashes_append h with h | ⟨hn, h⟩
    · exact bind_of_eq_error (hy.refuses h) _
    · refine (bind_of_eq_ok (hy.finds hn) _).trans ?_
      exact bind_of_eq_error (hb.refuses h) _

theorem statement_loop (keyword sign toWord next : Word) (hl : low.Layered) (hh : high.Layered)
    (hb : Answers body inner ts (⟨next, .command .Next⟩ :: (ws ++ after))) (hfollow : Follows ts)
    (hw : Repeats name ws after) :
    Answers (statement s body) (.loop keyword name low high inner next .done)
      (⟨keyword, .command .For⟩ :: ⟨name, .variable⟩ :: ⟨sign, .operator .eq⟩ ::
        (low.tokens ++ ⟨toWord, .command .To⟩ :: (high.tokens ++ ts))) after where
  finds := by
    intro names hn
    rw [labelNames, labels, labels, List.append_nil] at hn
    refine (bind_of_eq_ok (expectVariable_eq_ok.mpr rfl) _).trans ?_
    refine (bind_of_eq_ok (expectEqual_eq_ok.mpr ⟨_, rfl⟩) _).trans ?_
    refine (bind_of_eq_ok (Expr.parse_complete hl (Expr.bounded_cons (by simp))) _).trans ?_
    refine (bind_of_eq_ok (expectCommand_eq_ok.mpr rfl) _).trans ?_
    refine (bind_of_eq_ok (Expr.parse_complete hh hfollow.bounded) _).trans ?_
    refine (bind_of_eq_ok (hb.finds hn) _).trans ?_
    cases hw with
    | «variable» he => simp [he]
    | nothing hnone =>
      -- no variable follows, so the last case of the match is the one taken
      simp only [List.nil_append]
  refuses := by
    intro names word h
    rw [labels, labels, List.append_nil] at h
    refine (bind_of_eq_ok (expectVariable_eq_ok.mpr rfl) _).trans ?_
    refine (bind_of_eq_ok (expectEqual_eq_ok.mpr ⟨_, rfl⟩) _).trans ?_
    refine (bind_of_eq_ok (Expr.parse_complete hl (Expr.bounded_cons (by simp))) _).trans ?_
    refine (bind_of_eq_ok (expectCommand_eq_ok.mpr rfl) _).trans ?_
    refine (bind_of_eq_ok (Expr.parse_complete hh hfollow.bounded) _).trans ?_
    exact bind_of_eq_error (hb.refuses h) _

theorem sequence_separator {block : Block} {fuel : Nat} {token : Token} (hs : isSeparator token)
    (h : Answers (sequence s body (fuel + 1)) block ts after) :
    Answers (sequence s body (fuel + 1)) block (token :: ts) after := by
  have hskip (names : List Bytes) : sequence s body (fuel + 1) names (token :: ts) =
      sequence s body (fuel + 1) names ts := by
    simp only [sequence, List.dropWhile_cons_of_pos hs]
  constructor
  · intro names hn
    rw [hskip, h.finds hn]
  · intro names word hc
    rw [hskip, h.refuses hc]

-- A sequence reads its first statement and then the others, or fails in one of them.
theorem sequence_statement {fuel : Nat} {token : Token} (first : Block) {others : Block}
    (ho : Opens token) (hf : Answers (statement s body) first (token :: ts) us)
    (hr : Answers (sequence s body fuel) others us after) :
    Answers (sequence s body (fuel + 1)) (first.append others) (token :: ts) after := by
  obtain ⟨hsep, hc⟩ := ho
  have hread (names : List Bytes) : sequence s body (fuel + 1) names (token :: ts) =
      statement s body names (token :: ts) >>= fun parsed =>
        sequence s body fuel (names ++ parsed.1.labelNames) parsed.2 >>= fun others =>
          .ok (parsed.1.append others.1, others.2) := by
    simp only [sequence, List.dropWhile_cons, hsep, hc, if_false, Bool.false_eq_true]
  constructor
  · intro names hn
    rw [labelNames_append, ← List.append_assoc] at hn
    rw [hread, hf.finds (List.nodup_append.mp hn).1]
    exact bind_of_eq_ok (hr.finds hn) _
  · intro names word h
    rw [labels_append] at h
    rw [hread]
    rcases clashes_append h with h | ⟨hn, h⟩
    · exact bind_of_eq_error (hf.refuses h) _
    · refine (bind_of_eq_ok (hf.finds hn) _).trans ?_
      exact bind_of_eq_error (hr.refuses h) _

end Statements

theorem nested_of_sequence {inner : Block} {ts after : List Token} {depth : Nat}
    (h : ∀ depth fuel, ts.length ≤ depth → ts.length < fuel →
      Answers (sequence s (nested s depth) fuel) inner (ts ++ after) after)
    (hd : ts.length < depth) : Answers (nested s depth) inner (ts ++ after) after := by
  obtain ⟨depth, rfl⟩ := Nat.exists_eq_succ_of_ne_zero (Nat.ne_zero_of_lt hd)
  have hanswers := h depth ((ts ++ after).length + 1) (Nat.le_of_lt_succ hd)
    (by simp only [List.length_append]; omega)
  exact ⟨hanswers.finds, hanswers.refuses⟩

-- Nesting and the number of statements are bounded by the number of tokens, so neither the depth
-- nor the fuel runs out.
theorem sequence_answers {block : Block} {ts after : List Token} (h : Body block ts after)
    (ha : Stops after) (depth fuel : Nat) (hd : ts.length ≤ depth) (hf : ts.length < fuel) :
    Answers (sequence s (nested s depth) fuel) block (ts ++ after) after := by
  induction h generalizing depth fuel with
  | done =>
    exact ⟨fun _ => sequence_of_stops ha, fun h => (not_clashes_nil h).elim⟩
  | separator hs _ ih =>
    simp only [List.length_cons] at hd hf
    obtain ⟨fuel, rfl⟩ := Nat.exists_eq_succ_of_ne_zero (Nat.ne_zero_of_lt hf)
    exact sequence_separator hs (ih ha depth (fuel + 1) (by omega) (by omega))
  | @simple stmt rest ts us after hs hr ih =>
    obtain ⟨token, more, rfl, ho, -⟩ := hs.front
    simp only [List.length_append, List.length_cons] at hd hf
    obtain ⟨fuel, rfl⟩ := Nat.exists_eq_succ_of_ne_zero (Nat.ne_zero_of_lt hf)
    rw [List.append_assoc]
    exact sequence_statement (single stmt) ho (statement_single hs (hr.follows ha))
      (ih ha depth fuel (by omega) (by omega))
  | @branch keyword thenWord endWord condition body rest ts us after hc hb hr ihb ihr =>
    simp only [List.length_append, List.length_cons] at hd hf
    obtain ⟨fuel, rfl⟩ := Nat.exists_eq_succ_of_ne_zero (Nat.ne_zero_of_lt hf)
    have hyes : Answers (nested s depth) body _ _ := nested_of_sequence (ihb rfl) (by omega)
    simp only [List.cons_append, List.append_assoc] at hyes ⊢
    exact sequence_statement (.branch keyword condition body .done)
      (opens_command (by simp) (by simp) (by simp))
      (statement_branch keyword thenWord endWord hc hyes)
      (ihr ha depth fuel (by omega) (by omega))
  | @choice keyword thenWord otherwise endWord condition body alternative rest ts vs us after hc hb
      hal hr ihb iha ihr =>
    simp only [List.length_append, List.length_cons] at hd hf
    obtain ⟨fuel, rfl⟩ := Nat.exists_eq_succ_of_ne_zero (Nat.ne_zero_of_lt hf)
    have hyes : Answers (nested s depth) body _ _ := nested_of_sequence (ihb rfl) (by omega)
    have hno : Answers (nested s depth) alternative _ _ := nested_of_sequence (iha rfl) (by omega)
    simp only [List.cons_append, List.append_assoc] at hyes hno ⊢
    exact sequence_statement (.choice keyword condition body otherwise alternative .done)
      (opens_command (by simp) (by simp) (by simp))
      (statement_choice keyword thenWord otherwise endWord hc hyes hno)
      (ihr ha depth fuel (by omega) (by omega))
  | @loop keyword name sign toWord next low high body rest ts ws us after hl hh hb hw hr ihb ihr =>
    simp only [List.length_append, List.length_cons] at hd hf
    obtain ⟨fuel, rfl⟩ := Nat.exists_eq_succ_of_ne_zero (Nat.ne_zero_of_lt hf)
    have hinside : Answers (nested s depth) body _ _ := nested_of_sequence (ihb rfl) (by omega)
    have hfollow := hb.follows rfl
    simp only [List.cons_append, List.append_assoc] at hinside hfollow ⊢
    exact sequence_statement (.loop keyword name low high body next .done)
      (opens_command (by simp) (by simp) (by simp))
      (statement_loop keyword sign toWord next hl hh hinside hfollow hw)
      (ihr ha depth fuel (by omega) (by omega))

theorem nested_answers {block : Block} (hb : Body block s.tokens []) :
    Answers (nested s (s.tokens.length + 1)) block s.tokens [] := by
  have h : Answers (nested s (s.tokens.length + 1)) block (s.tokens ++ []) [] :=
    nested_of_sequence (sequence_answers hb trivial) (Nat.lt_succ_self _)
  rw [List.append_nil] at h
  exact h

-- Every block whose labels have different names is found in tokens that derive it.
theorem parse_complete {block : Block} (hf : s.failure = none) (hb : Body block s.tokens [])
    (hn : block.labelNames.Nodup) : parse s = .ok block := by
  have hread : nested s (s.tokens.length + 1) [] s.tokens = .ok (block, []) :=
    (nested_answers hb).finds (by simpa using hn)
  simp only [parse, hread, hf]

-- Tokens that derive a block are refused at the first label that repeats a name.
theorem parse_refuses {block : Block} {word : Word} (hb : Body block s.tokens [])
    (h : Clashes [] block.labels word) :
    parse s = .error ⟨.duplicateLabel, word.line, word.text⟩ := by
  simp only [parse, (nested_answers hb).refuses h]

end LineBasic.Block
