import LineBasic.Proofs.Block.PrintList

namespace LineBasic.Block

variable {s : Scan}

theorem expectVariable_eq_ok {tokens rest : List Token} {name : Word} :
    expectVariable s tokens = .ok (name, rest) ↔ tokens = ⟨name, .variable⟩ :: rest := by
  constructor
  · intro h
    unfold expectVariable at h
    split at h
    · cases h
      rfl
    · cases h
  · rintro rfl
    rfl

theorem expectEqual_eq_ok {tokens rest : List Token} :
    expectEqual s tokens = .ok ((), rest) ↔ ∃ sign, tokens = ⟨sign, .operator .eq⟩ :: rest := by
  constructor
  · intro h
    unfold expectEqual at h
    split at h
    · cases h
      exact ⟨_, rfl⟩
    · cases h
  · rintro ⟨sign, rfl⟩
    rfl

theorem expectCommand_eq_ok {command : Command} {problem : Problem} {tokens rest : List Token}
    {word : Word} :
    expectCommand s command problem tokens = .ok (word, rest) ↔
      tokens = ⟨word, .command command⟩ :: rest := by
  constructor
  · intro h
    unfold expectCommand at h
    split at h
    · split at h
      · rename_i hf
        cases h
        rw [hf]
      · cases h
    · cases h
  · rintro rfl
    simp [expectCommand]

theorem expectLabel_eq_ok {tokens rest : List Token} {word : Word} :
    expectLabel s tokens = .ok (word, rest) ↔
      ∃ name : Token, isName name ∧ name.toWord = word ∧ tokens = name :: rest := by
  constructor
  · intro h
    unfold expectLabel at h
    split at h
    · cases h
      exact ⟨_, rfl, rfl, rfl⟩
    · cases h
      exact ⟨_, rfl, rfl, rfl⟩
    · cases h
  · rintro ⟨⟨word, kind⟩, hn, rfl, rfl⟩
    unfold isName at hn
    cases kind <;> first | rfl | cases hn

theorem labels_append (block other : Block) :
    (block.append other).labels = block.labels ++ other.labels := by
  induction block with
  | done => rfl
  | simple stmt rest ih => cases stmt <;> simp [append, labels, ih]
  | branch keyword condition body rest _ ih => simp [append, labels, ih]
  | choice keyword condition body otherwise alternative rest _ _ ih => simp [append, labels, ih]
  | loop keyword name first last body next rest _ ih => simp [append, labels, ih]

theorem labelNames_append (block other : Block) :
    (block.append other).labelNames = block.labelNames ++ other.labelNames := by
  simp [labelNames, labels_append]

-- The tokens of one statement can stand in front of any body.
def Leads (first : Block) (ts rest : List Token) : Prop :=
  ∀ others us after, rest = us ++ after → Body others us after →
    Body (first.append others) (ts ++ us) after

theorem leads_single {stmt : Stmt} {ts rest : List Token} (h : Derives stmt ts rest) :
    Leads (single stmt) ts rest := by
  rintro others us after rfl hb
  exact .simple h hb

-- One statement is read off the front of the tokens, and its labels are new.
def Reads (names : List Bytes) (tokens : List Token) (first : Block) (rest : List Token) : Prop :=
  ∃ ts, tokens = ts ++ rest ∧ Leads first ts rest ∧
    (names.Nodup → (names ++ first.labelNames).Nodup)

theorem reads_single {names : List Bytes} {stmt : Stmt} {ts tokens rest : List Token}
    (ht : tokens = ts ++ rest) (h : Derives stmt ts rest) (hl : (single stmt).labelNames = []) :
    Reads names tokens (single stmt) rest := by
  refine ⟨ts, ht, leads_single h, ?_⟩
  intro hn
  rwa [hl, List.append_nil]

theorem assignment_reads {names : List Bytes} {name : Word} {tokens rest : List Token}
    {first : Block} (h : assignment s name tokens = .ok (first, rest)) :
    Reads names (⟨name, .variable⟩ :: tokens) first rest := by
  obtain ⟨⟨⟨⟩, after⟩, heq, h⟩ := bind_eq_ok.mp h
  obtain ⟨⟨value, after'⟩, hv, h⟩ := bind_eq_ok.mp h
  cases h
  obtain ⟨sign, rfl⟩ := expectEqual_eq_ok.mp heq
  obtain ⟨rfl, hl, -⟩ := Expr.parse_sound hv
  exact reads_single rfl (.assign hl) rfl

theorem printing_reads {names : List Bytes} {keyword : Word} {tokens rest : List Token}
    {first : Block} (h : printing s keyword tokens = .ok (first, rest)) :
    Reads names (⟨keyword, .command .Print⟩ :: tokens) first rest := by
  obtain ⟨⟨elements, after⟩, hp, h⟩ := bind_eq_ok.mp h
  cases h
  obtain ⟨ts, rfl, hl, hmax⟩ := printList_sound _ _ _ _ (Nat.lt_succ_self _) hp
  exact reads_single rfl (.print hl hmax) rfl

theorem eq_of_skipListSeparator {tokens rest : List Token} {name : Word}
    (h : skipListSeparator tokens = ⟨name, .variable⟩ :: rest) :
    tokens = ⟨name, .variable⟩ :: rest ∨
      ∃ separator, isListSeparator separator ∧ tokens = separator :: ⟨name, .variable⟩ :: rest := by
  unfold skipListSeparator at h
  split at h
  · exact .inr ⟨_, rfl, by rw [h]⟩
  · exact .inr ⟨_, rfl, by rw [h]⟩
  · exact .inl h

theorem inputting_reads {names : List Bytes} {keyword : Word} {tokens rest : List Token}
    {first : Block} (h : inputting s keyword tokens = .ok (first, rest)) :
    Reads names (⟨keyword, .command .Input⟩ :: tokens) first rest := by
  unfold inputting at h
  split at h
  · obtain ⟨⟨name, after⟩, hv, h⟩ := bind_eq_ok.mp h
    cases h
    rcases eq_of_skipListSeparator (expectVariable_eq_ok.mp hv) with rfl | ⟨separator, hs, rfl⟩
    · exact reads_single rfl .prompt rfl
    · exact reads_single rfl (.separatedPrompt hs) rfl
  · obtain ⟨⟨name, after⟩, hv, h⟩ := bind_eq_ok.mp h
    cases h
    cases expectVariable_eq_ok.mp hv
    exact reads_single rfl .input rfl

-- What a parser of bodies gives back is derived from the front of the tokens, and its labels are
-- new and different.
def Sound (body : BodyParser) : Prop :=
  ∀ names tokens block rest, body names tokens = .ok (block, rest) →
    ∃ ts, tokens = ts ++ rest ∧ Body block ts rest ∧
      (names.Nodup → (names ++ block.labelNames).Nodup)

theorem conditional_reads {body : BodyParser} (hbody : Sound body) {names : List Bytes}
    {keyword : Word} {tokens rest : List Token} {first : Block}
    (h : conditional s body names keyword tokens = .ok (first, rest)) :
    Reads names (⟨keyword, .command .If⟩ :: tokens) first rest := by
  simp only [conditional, bind_eq_ok, Prod.exists] at h
  obtain ⟨condition, after₁, hc, thenWord, after₂, ht, yes, after₃, hy, h⟩ := h
  obtain ⟨rfl, hl, -⟩ := Expr.parse_sound hc
  cases expectCommand_eq_ok.mp ht
  obtain ⟨ts, rfl, hyes, hfresh⟩ := hbody _ _ _ _ hy
  split at h
  · rename_i otherwise _
    simp only [bind_eq_ok, Prod.exists] at h
    obtain ⟨no, after₄, hn, h⟩ := h
    obtain ⟨vs, rfl, hno, hfresh'⟩ := hbody _ _ _ _ hn
    split at h
    · rename_i endWord rest'
      simp only [Except.ok.injEq, Prod.mk.injEq] at h
      obtain ⟨rfl, rfl⟩ := h
      refine ⟨⟨keyword, .command .If⟩ :: condition.tokens ++ ⟨thenWord, .command .Then⟩ :: ts ++
        ⟨otherwise, .command .Else⟩ :: vs ++ [⟨endWord, .command .Endif⟩], by simp, ?_, ?_⟩
      · rintro others us after rfl hr
        simpa [append] using Body.choice hl (by simpa using hyes) (by simpa using hno) hr
      · intro hd
        simpa [labelNames, labels] using hfresh' (hfresh hd)
    · cases h
  · rename_i endWord rest'
    simp only [Except.ok.injEq, Prod.mk.injEq] at h
    obtain ⟨rfl, rfl⟩ := h
    refine ⟨⟨keyword, .command .If⟩ :: condition.tokens ++ ⟨thenWord, .command .Then⟩ :: ts ++
      [⟨endWord, .command .Endif⟩], by simp, ?_, ?_⟩
    · rintro others us after rfl hr
      simpa [append] using Body.branch hl (by simpa using hyes) hr
    · intro hd
      simpa [labelNames, labels] using hfresh hd
  · cases h

theorem counting_reads {body : BodyParser} (hbody : Sound body) {names : List Bytes}
    {keyword : Word} {tokens rest : List Token} {first : Block}
    (h : counting s body names keyword tokens = .ok (first, rest)) :
    Reads names (⟨keyword, .command .For⟩ :: tokens) first rest := by
  simp only [counting, bind_eq_ok, Prod.exists] at h
  obtain ⟨name, after₁, hv, ⟨⟩, after₂, heq, low, after₃, hlow, toWord, after₄, ht, high, after₅,
    hhigh, inner, after₆, hi, h⟩ := h
  cases expectVariable_eq_ok.mp hv
  obtain ⟨sign, rfl⟩ := expectEqual_eq_ok.mp heq
  obtain ⟨rfl, hll, -⟩ := Expr.parse_sound hlow
  cases expectCommand_eq_ok.mp ht
  obtain ⟨rfl, hlh, -⟩ := Expr.parse_sound hhigh
  obtain ⟨ts, rfl, hinner, hfresh⟩ := hbody _ _ _ _ hi
  -- with the tokens `ws` after NEXT the statement is complete
  have hclose (next : Word) (ws : List Token) (ha : after₆ = ⟨next, .command .Next⟩ :: ws ++ rest)
      (hr : Repeats name ws rest) (hf : first = .loop keyword name low high inner next .done) :
      Reads names (⟨keyword, .command .For⟩ :: ⟨name, .variable⟩ :: ⟨sign, .operator .eq⟩ ::
        (low.tokens ++ ⟨toWord, .command .To⟩ :: (high.tokens ++ (ts ++ after₆)))) first rest := by
    subst ha hf
    refine ⟨⟨keyword, .command .For⟩ :: ⟨name, .variable⟩ :: ⟨sign, .operator .eq⟩ :: low.tokens ++
      ⟨toWord, .command .To⟩ :: high.tokens ++ ts ++ ⟨next, .command .Next⟩ :: ws, by simp, ?_, ?_⟩
    · rintro others us after rfl hrest
      simpa [append] using Body.loop hll hlh (by simpa using hinner) hr hrest
    · intro hd
      simpa [labelNames, labels] using hfresh hd
  split at h
  · rename_i next rest'
    split at h
    · rename_i repeated after
      split at h
      · rename_i he
        simp only [Except.ok.injEq, Prod.mk.injEq] at h
        obtain ⟨rfl, rfl⟩ := h
        exact hclose next [⟨repeated, .variable⟩] rfl (.variable he) rfl
      · cases h
    · rename_i hnone
      simp only [Except.ok.injEq, Prod.mk.injEq] at h
      obtain ⟨rfl, rfl⟩ := h
      exact hclose next [] rfl (.nothing hnone) rfl
  · cases h

theorem statement_reads {body : BodyParser} (hbody : Sound body) {names : List Bytes}
    {tokens rest : List Token} {first : Block}
    (h : statement s body names tokens = .ok (first, rest)) : Reads names tokens first rest := by
  unfold statement at h
  split at h
  · cases h
  · split at h
    · split at h
      · cases h
      · rename_i hnew
        cases h
        refine ⟨[_], rfl, leads_single .label, ?_⟩
        intro hd
        simp only [labelNames, labels, single, List.map_cons, List.map_nil]
        rw [List.nodup_append]
        refine ⟨hd, by simp, ?_⟩
        rintro name hmem other hother rfl
        rw [List.mem_singleton] at hother
        exact hnew (hother ▸ hmem)
    · exact assignment_reads h
    · exact printing_reads h
    · exact inputting_reads h
    · exact conditional_reads hbody h
    · exact counting_reads hbody h
    · obtain ⟨⟨label, after⟩, hl, h⟩ := bind_eq_ok.mp h
      cases h
      obtain ⟨name, hn, rfl, rfl⟩ := expectLabel_eq_ok.mp hl
      exact reads_single rfl (.goto hn) rfl
    · obtain ⟨⟨label, after⟩, hl, h⟩ := bind_eq_ok.mp h
      cases h
      obtain ⟨name, hn, rfl, rfl⟩ := expectLabel_eq_ok.mp hl
      exact reads_single rfl (.gosub hn) rfl
    · cases h
      exact reads_single rfl .ret rfl
    · cases h
      exact reads_single rfl .stop rfl
    · cases h

theorem body_of_separators {block : Block} {seps ts after : List Token}
    (hs : ∀ token ∈ seps, isSeparator token) (hb : Body block ts after) :
    Body block (seps ++ ts) after := by
  induction seps with
  | nil => exact hb
  | cons token seps ih =>
    exact .separator (hs token (by simp)) (ih fun t ht => hs t (List.mem_cons_of_mem _ ht))

theorem sequence_sound {body : BodyParser} (hbody : Sound body) (fuel : Nat) :
    Sound (sequence s body fuel) := by
  induction fuel with
  | zero =>
    intro names tokens block rest h
    cases h
    exact ⟨[], rfl, .done, by simp [labelNames, labels]⟩
  | succ fuel ih =>
    intro names tokens block rest h
    have hsplit := List.takeWhile_append_dropWhile (p := isSeparator) (l := tokens)
    have hseps : ∀ token ∈ tokens.takeWhile isSeparator, isSeparator token :=
      List.all_eq_true.mp List.all_takeWhile
    simp only [sequence] at h
    split at h
    · rename_i hdrop
      cases h
      rw [hdrop] at hsplit
      exact ⟨tokens.takeWhile isSeparator ++ [], by simpa using hsplit.symm,
        body_of_separators hseps .done, by simp [labelNames, labels]⟩
    · rename_i token more hdrop
      rw [hdrop] at hsplit
      split at h
      · cases h
        exact ⟨tokens.takeWhile isSeparator ++ [], by simpa using hsplit.symm,
          body_of_separators hseps .done, by simp [labelNames, labels]⟩
      · simp only [bind_eq_ok, Prod.exists, Except.ok.injEq, Prod.mk.injEq] at h
        obtain ⟨first, after, hf, others, after', ho, rfl, rfl⟩ := h
        obtain ⟨ts, ht, hlead, hfresh⟩ := statement_reads hbody hf
        obtain ⟨us, hu, hothers, hfresh'⟩ := ih _ _ _ _ ho
        refine ⟨tokens.takeWhile isSeparator ++ (ts ++ us), ?_,
          body_of_separators hseps (hlead others us after' hu hothers), ?_⟩
        · rw [List.append_assoc, List.append_assoc, ← hu, ← ht, hsplit]
        · intro hd
          rw [labelNames_append, ← List.append_assoc]
          exact hfresh' (hfresh hd)

theorem nested_sound (depth : Nat) : Sound (nested s depth) := by
  induction depth with
  | zero =>
    intro names tokens block rest h
    cases h
    exact ⟨[], rfl, .done, by simp [labelNames, labels]⟩
  | succ depth ih =>
    intro names tokens block rest h
    exact sequence_sound ih _ names tokens block rest h

-- A parsed block is derived from all tokens of a source that does not break off, and its labels
-- have different names.
theorem parse_sound {block : Block} (h : parse s = .ok block) :
    s.failure = none ∧ Body block s.tokens [] ∧ block.labelNames.Nodup := by
  unfold parse at h
  split at h
  · cases h
  · cases h
  · rename_i b hn
    split at h
    · cases h
    · rename_i hfail
      cases h
      obtain ⟨ts, ht, hb, hfresh⟩ := nested_sound _ _ _ _ _ hn
      rw [List.append_nil] at ht
      rw [ht]
      exact ⟨hfail, hb, by simpa using hfresh List.nodup_nil⟩

end LineBasic.Block
