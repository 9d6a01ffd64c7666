import LineBasic.Proofs.Block.Grammar

namespace LineBasic

theorem bind_eq_ok {α β : Type} {x : Except Failure α} {f : α → Except Failure β} {b : β} :
    (x >>= f) = .ok b ↔ ∃ a, x = .ok a ∧ f a = .ok b := by
  cases x with
  | error failure =>
    constructor
    · intro h
      cases h
    · rintro ⟨a, ha, -⟩
      cases ha
  | ok a =>
    constructor
    · intro h
      exact ⟨a, rfl, h⟩
    · rintro ⟨a', ha, h⟩
      cases ha
      exact h

theorem ok_bind {α β : Type} (a : α) (f : α → Except Failure β) : (Except.ok a >>= f) = f a :=
  rfl

theorem bind_of_eq_ok {α β : Type} {x : Except Failure α} {a : α} (h : x = .ok a)
    (f : α → Except Failure β) : (x >>= f) = f a := by
  rw [h, ok_bind]

theorem bind_of_eq_error {α β : Type} {x : Except Failure α} {failure : Failure}
    (h : x = .error failure) (f : α → Except Failure β) : (x >>= f) = .error failure := by
  rw [h]
  rfl

namespace Block

variable {s : Scan}

theorem isListSeparator_iff {token : Token} :
    isListSeparator token ↔ token.kind = .comma ∨ token.kind = .semicolon := by
  simp [isListSeparator]

theorem bounded_of_isListSeparator {token : Token} (h : isListSeparator token)
    (rest : List Token) : Expr.Bounded 0 (token :: rest) := by
  apply Expr.bounded_cons
  intro op
  rcases isListSeparator_iff.mp h with h | h <;> simp [h]

-- What can follow a statement in a source: a separator, or a word that starts a statement or
-- closes a body.
def Follows : List Token → Prop
  | [] => True
  | token :: _ =>
    isSeparator token ∨ token.kind = .label ∨ token.kind = .variable ∨
      ∃ command, token.kind = .command command

theorem Follows.bounded {tokens : List Token} (h : Follows tokens) : Expr.Bounded 0 tokens := by
  cases tokens with
  | nil => exact Expr.bounded_nil 0
  | cons token rest =>
    apply Expr.bounded_cons
    intro op
    rcases h with h | h | h | ⟨command, h⟩
    · intro hk
      simp [isSeparator, hk] at h
    all_goals simp [h]

-- Of what can follow a statement only a variable can start an expression as well.
theorem Follows.eq_variable {tokens : List Token} (h : Follows tokens)
    (hs : Expr.starts tokens = true) : ∃ name rest, tokens = ⟨name, .variable⟩ :: rest := by
  cases tokens with
  | nil => cases hs
  | cons token rest =>
    obtain ⟨word, kind⟩ := token
    rcases h with h | h | h | ⟨command, h⟩
    · have hk : kind = .endOfLine ∨ kind = .semicolon := by simpa [isSeparator] using h
      rcases hk with rfl | rfl <;> cases hs
    · cases h
      cases hs
    · cases h
      exact ⟨word, rest, rfl⟩
    · cases h
      cases hs

theorem longest_nil {tokens : List Token} (h : Expr.starts tokens = false) : Longest [] tokens := by
  intro es' ts' after' hl he
  cases hl with
  | empty => exact Nat.le_refl _
  | @last e _ =>
    rw [List.nil_append] at he
    rw [← he, Expr.starts_tokens] at h
    cases h
  | @more e _ _ _ _ _ _ =>
    rw [List.nil_append, List.append_assoc] at he
    rw [← he, Expr.starts_tokens] at h
    cases h

theorem longest_last {e : Expr} {rest : List Token} (he : e.Layered) (hb : Expr.Bounded 0 rest)
    (hs : ∀ separator more, rest = separator :: more → ¬isListSeparator separator) :
    Longest e.tokens rest := by
  intro es' ts' after' hl h
  cases hl with
  | empty => exact Nat.zero_le _
  | last he' => exact Expr.length_le_of_bounded he he' hb h
  | @more e' _ separator ts he' hsep _ =>
    -- both expressions end where no operator follows, so a separator would follow both
    rw [List.append_assoc, List.cons_append] at h
    obtain ⟨-, hr⟩ := Expr.tokens_append_inj he' he (bounded_of_isListSeparator hsep _) hb h
    exact False.elim (hs separator _ hr.symm hsep)

theorem longest_more {e : Expr} {separator : Token} {ts rest : List Token} (he : e.Layered)
    (hs : isListSeparator separator) (hl : Longest ts rest) :
    Longest (e.tokens ++ separator :: ts) rest := by
  have hb := bounded_of_isListSeparator hs (ts ++ rest)
  intro es' ts' after' hl' h
  rw [List.append_assoc, List.cons_append] at h
  rw [List.length_append, List.length_cons]
  cases hl' with
  | empty => exact Nat.zero_le _
  | last he' =>
    have := Expr.length_le_of_bounded he he' hb h
    omega
  | @more e' _ separator' ts' he' hs' hl' =>
    rw [List.append_assoc, List.cons_append] at h
    obtain ⟨rfl, hr⟩ := Expr.tokens_append_inj he' he (bounded_of_isListSeparator hs' _) hb h
    have := hl _ _ _ hl' (List.cons.inj hr).2
    simp only [List.length_append, List.length_cons]
    omega

-- The elements that are read are a list as long as possible.
theorem printList_sound (fuel : Nat) (tokens : List Token) (elements : List Expr)
    (rest : List Token) (hf : tokens.length < fuel)
    (h : printList s fuel tokens = .ok (elements, rest)) :
    ∃ ts, tokens = ts ++ rest ∧ PrintList elements ts ∧ Longest ts rest := by
  induction fuel generalizing tokens elements rest with
  | zero => exact False.elim (Nat.not_lt_zero _ hf)
  | succ fuel ih =>
    simp only [printList] at h
    split at h
    · obtain ⟨⟨e, after⟩, hp, h⟩ := bind_eq_ok.mp h
      dsimp only at h
      obtain ⟨ht, he, hb⟩ := Expr.parse_sound hp
      -- either list goes on after a separator, or it ends with this element
      have hcontinue (separator : Token) (more : List Token) (ha : after = separator :: more)
          (hs : isListSeparator separator)
          (h : (printList s fuel more >>= fun x => .ok (e :: x.1, x.2)) =
            .ok (elements, rest)) :
          ∃ ts, tokens = ts ++ rest ∧ PrintList elements ts ∧ Longest ts rest := by
        obtain ⟨⟨es, rest'⟩, hm, h⟩ := bind_eq_ok.mp h
        simp only [Except.ok.injEq, Prod.mk.injEq] at h
        obtain ⟨rfl, rfl⟩ := h
        have hlen : more.length < fuel := by
          have := congrArg List.length ht
          simp only [ha, List.length_append, List.length_cons] at this
          omega
        obtain ⟨ts, hts, hl, hmax⟩ := ih more es rest' hlen hm
        refine ⟨e.tokens ++ separator :: ts, ?_, .more he hs hl, longest_more he hs hmax⟩
        rw [ht, ha, hts, List.append_assoc, List.cons_append]
      split at h
      · exact hcontinue _ _ rfl (by simp [isListSeparator]) h
      · exact hcontinue _ _ rfl (by simp [isListSeparator]) h
      · rename_i hcomma hsemicolon
        cases h
        refine ⟨e.tokens, ht, .last he, longest_last he hb ?_⟩
        rintro ⟨word, kind⟩ more rfl hs
        rcases isListSeparator_iff.mp hs with rfl | rfl
        · exact hcomma word more rfl
        · exact hsemicolon word more rfl
    · rename_i hs
      cases h
      exact ⟨[], rfl, .empty, longest_nil (by simpa using hs)⟩

-- A list as long as possible is read where a statement may follow it.
theorem printList_complete {elements : List Expr} {ts : List Token} (h : PrintList elements ts)
    (fuel : Nat) (after : List Token) (hmax : Longest ts after) (ha : Follows after)
    (hf : ts.length < fuel) : printList s fuel (ts ++ after) = .ok (elements, after) := by
  induction h generalizing fuel with
  | empty =>
    obtain ⟨fuel, rfl⟩ := Nat.exists_eq_succ_of_ne_zero (Nat.ne_zero_of_lt hf)
    cases hs : Expr.starts after with
    | false => simp [printList, hs]
    | true =>
      obtain ⟨name, rest, rfl⟩ := ha.eq_variable hs
      have hone : PrintList [.variable name] [⟨name, .variable⟩] := .last trivial
      have := hmax _ _ rest hone rfl
      exact False.elim (Nat.not_succ_le_zero _ this)
  | @last e he =>
    obtain ⟨fuel, rfl⟩ := Nat.exists_eq_succ_of_ne_zero (Nat.ne_zero_of_lt hf)
    have hnot : ∀ separator rest, after = separator :: rest → ¬isListSeparator separator := by
      rintro separator rest rfl hs
      have := hmax [e] (e.tokens ++ [separator]) rest (.more he hs .empty) (by simp)
      simp only [List.length_append, List.length_singleton] at this
      omega
    simp only [printList, Expr.starts_tokens, if_true, Expr.parse_complete he ha.bounded, ok_bind]
    split
    · exact False.elim (hnot _ _ rfl (by simp [isListSeparator]))
    · exact False.elim (hnot _ _ rfl (by simp [isListSeparator]))
    · rfl
  | @more e es separator ts he hs hl ih =>
    obtain ⟨fuel, rfl⟩ := Nat.exists_eq_succ_of_ne_zero (Nat.ne_zero_of_lt hf)
    have hmax' : Longest ts after := by
      intro es' ts' after' hl' h'
      have := hmax (e :: es') (e.tokens ++ separator :: ts') after' (.more he hs hl') (by simp [h'])
      simp only [List.length_append, List.length_cons] at this
      omega
    have hrest := ih fuel hmax' (by simp only [List.length_append, List.length_cons] at hf; omega)
    have hp := Expr.parse_complete he (bounded_of_isListSeparator hs (ts ++ after)) (s := s)
    rw [List.append_assoc, List.cons_append]
    simp only [printList, Expr.starts_tokens, if_true, hp, ok_bind]
    obtain ⟨word, kind⟩ := separator
    rcases isListSeparator_iff.mp hs with rfl | rfl
    · exact bind_eq_ok.mpr ⟨_, hrest, rfl⟩
    · exact bind_eq_ok.mpr ⟨_, hrest, rfl⟩

end Block

end LineBasic
