import LineBasic.Proofs.Expr.Layered

namespace LineBasic.Expr

-- What a parser gives back for a rank is an expression that binds at least that tightly, cut off
-- the front of the tokens as far as operators of that rank go.
def Sound (rank : Nat) (parser : List Token → Except Failure (Parsed Expr)) : Prop :=
  ∀ tokens e rest, parser tokens = .ok (e, rest) →
    tokens = e.tokens ++ rest ∧ e.Layered ∧ rank ≤ e.rank ∧ Bounded rank rest

-- A parser for a rank finds every expression that binds at least that tightly and has at most
-- `size` tokens, wherever no operator of that rank follows.
def Complete (size rank : Nat) (parser : List Token → Except Failure (Parsed Expr)) : Prop :=
  ∀ e rest, e.Layered → rank ≤ e.rank → e.tokens.length ≤ size → Bounded rank rest →
    parser (e.tokens ++ rest) = .ok (e, rest)

variable {s : Scan}

theorem primary_sound {inner : List Token → Except Failure (Parsed Expr)} (h : Sound 0 inner) :
    Sound 3 (primary s inner) := by
  intro tokens e rest hp
  unfold primary at hp
  split at hp
  · cases hp
    exact ⟨rfl, trivial, Nat.le_refl 3, bounded_three _⟩
  · cases hp
    exact ⟨rfl, trivial, Nat.le_refl 3, bounded_three _⟩
  · cases hp
    exact ⟨rfl, trivial, Nat.le_refl 3, bounded_three _⟩
  · split at hp
    · cases hp
    · rename_i hi
      cases hp
      obtain ⟨ht, hl, -, -⟩ := h _ _ _ hi
      refine ⟨?_, hl, Nat.le_refl 3, bounded_three _⟩
      simp [ht, Expr.tokens]
    · cases hp
  · cases hp

theorem chain_of_not_operator {operand : List Token → Except Failure (Parsed Expr)} {level : Level}
    {fuel : Nat} {left : Expr} {tokens : List Token} (h : Bounded 0 tokens) :
    chain operand level fuel left tokens = .ok (left, tokens) := by
  unfold chain
  split
  · exact False.elim (Nat.not_lt_zero _ (h _ _ _ rfl))
  · rfl

-- The left operand grows by one operator a round, and the fuel never runs out before the tokens.
theorem chain_sound {operand : List Token → Except Failure (Parsed Expr)} {level : Level}
    (h : Sound (level.rank + 1) operand) (fuel : Nat) (left : Expr) (tokens : List Token)
    (hfuel : tokens.length ≤ fuel) (hleft : left.Layered) (hrank : level.rank ≤ left.rank)
    (hb : Bounded (level.rank + 1) tokens) (e : Expr) (rest : List Token)
    (hc : chain operand level fuel left tokens = .ok (e, rest)) :
    left.tokens ++ tokens = e.tokens ++ rest ∧ e.Layered ∧ level.rank ≤ e.rank ∧
      Bounded level.rank rest := by
  induction fuel generalizing left tokens with
  | zero =>
    have ht : tokens = [] := List.length_eq_zero_iff.mp (Nat.le_zero.mp hfuel)
    subst ht
    simp only [chain, Except.ok.injEq, Prod.mk.injEq] at hc
    obtain ⟨rfl, rfl⟩ := hc
    exact ⟨rfl, hleft, hrank, bounded_nil _⟩
  | succ fuel ih =>
    by_cases hfront : ∃ sign op more, tokens = ⟨sign, .operator op⟩ :: more
    · obtain ⟨sign, op, more, rfl⟩ := hfront
      simp only [chain] at hc
      split at hc
      · rename_i hop
        split at hc
        · cases hc
        · rename_i right after hr
          obtain ⟨ht, hl, hk, ha⟩ := h _ _ _ hr
          have hlen : after.length ≤ fuel := by
            have := congrArg List.length ht
            simp only [List.length_append, List.length_cons] at this hfuel
            omega
          have hbin : (Expr.binary left op sign right).Layered := by
            refine ⟨hleft, hl, ?_, ?_⟩
            · rw [hop]
              exact hrank
            · rw [hop]
              exact hk
          have hres := ih (.binary left op sign right) after hlen hbin
            (by simp only [Expr.rank, hop, Nat.le_refl]) ha hc
          rw [← hres.1, ht]
          exact ⟨by simp [Expr.tokens], hres.2⟩
      · rename_i hop
        cases hc
        refine ⟨rfl, hleft, hrank, bounded_operator ?_⟩
        -- an operator of a tighter level cannot follow, so this one is of a looser level
        have hlt := hb _ _ _ rfl
        have hne : op.level.rank ≠ level.rank := fun hr => hop (Level.rank_injective hr)
        omega
    · have hnone : Bounded 0 tokens := by
        intro sign op more he
        exact False.elim (hfront ⟨sign, op, more, he⟩)
      rw [chain_of_not_operator hnone] at hc
      cases hc
      exact ⟨rfl, hleft, hrank, hnone.mono (Nat.zero_le _)⟩

theorem chained_sound {operand : List Token → Except Failure (Parsed Expr)} {level : Level}
    (h : Sound (level.rank + 1) operand) : Sound level.rank (chained operand level) := by
  intro tokens e rest hc
  unfold chained at hc
  split at hc
  · cases hc
  · rename_i left after ho
    obtain ⟨ht, hl, hk, ha⟩ := h _ _ _ ho
    rw [ht]
    exact chain_sound h _ _ _ (Nat.le_refl _) hl (by omega) ha _ _ hc

theorem nested_sound (depth : Nat) : Sound 0 (nested s depth) := by
  induction depth with
  | zero =>
    intro tokens e rest hn
    cases hn
  | succ depth ih =>
    have hmul : Sound 2 (chained (primary s (nested s depth)) .multiplicative) :=
      chained_sound (primary_sound ih)
    have hadd : Sound 1 (chained (chained (primary s (nested s depth)) .multiplicative) .additive) :=
      chained_sound hmul
    exact chained_sound hadd

-- A parsed expression is the front of the tokens, it is layered, and no operator follows it.
theorem parse_sound {tokens : List Token} {e : Expr} {rest : List Token}
    (h : parse s tokens = .ok (e, rest)) :
    tokens = e.tokens ++ rest ∧ e.Layered ∧ Bounded 0 rest := by
  obtain ⟨ht, hl, -, hb⟩ := nested_sound _ _ _ _ h
  exact ⟨ht, hl, hb⟩

theorem primary_complete {size : Nat} {inner : List Token → Except Failure (Parsed Expr)}
    (h : Complete size 0 inner) : Complete (size + 1) 3 (primary s inner) := by
  intro e rest hl hr hs hb
  match e with
  | .number _ _ => rfl
  | .string _ _ => rfl
  | .variable _ => rfl
  | .grouping opening body closing =>
    have hbody : body.tokens.length ≤ size := by
      simp only [Expr.tokens, List.length_append, List.length_cons, List.length_nil] at hs
      omega
    have hi := h body (⟨closing, .rightParen⟩ :: rest) hl (Nat.zero_le _) hbody
      (bounded_cons (by intro op; simp))
    simp only [Expr.tokens, List.cons_append, List.append_assoc, List.nil_append, primary, hi]
  | .binary _ op _ _ =>
    have := op.level.rank_le_two
    simp only [Expr.rank] at hr
    omega

-- A parser of a level takes a whole expression into the left operand of its chain. The induction
-- goes down the left spine, where all operators of the level stand.
theorem chained_append {size : Nat} {operand : List Token → Except Failure (Parsed Expr)}
    {level : Level} (h : Complete size (level.rank + 1) operand) :
    (e : Expr) → (tail : List Token) → e.Layered → level.rank ≤ e.rank → e.tokens.length ≤ size →
      Bounded (level.rank + 1) tail →
      ∃ fuel, tail.length ≤ fuel ∧
        chained operand level (e.tokens ++ tail) = chain operand level fuel e tail := by
  intro e
  have hdirect (e : Expr) (tail : List Token) (hl : e.Layered) (hr : level.rank < e.rank)
      (hs : e.tokens.length ≤ size) (hb : Bounded (level.rank + 1) tail) :
      ∃ fuel, tail.length ≤ fuel ∧
        chained operand level (e.tokens ++ tail) = chain operand level fuel e tail := by
    refine ⟨tail.length, Nat.le_refl _, ?_⟩
    simp only [chained, h e tail hl hr hs hb]
  induction e with
  | binary left op sign right ihl _ =>
    intro tail hl hr hs hb
    by_cases hop : op.level = level
    · obtain ⟨hleft, hright, hlr, hrr⟩ := hl
      rw [hop] at hlr hrr
      simp only [Expr.tokens, List.length_append, List.length_cons] at hs
      obtain ⟨fuel, hf, hc⟩ := ihl (⟨sign, .operator op⟩ :: right.tokens ++ tail) hleft hlr
        (by omega) (bounded_operator (by rw [hop]; exact Nat.lt_succ_self _))
      cases fuel with
      | zero => simp at hf
      | succ fuel =>
        refine ⟨fuel, ?_, ?_⟩
        · simp only [List.cons_append, List.length_cons, List.length_append] at hf
          omega
        · have ho := h right tail hright hrr (by omega) hb
          simp only [Expr.tokens, List.append_assoc, List.cons_append] at hc ⊢
          rw [hc]
          simp only [chain, hop, if_true, ho]
    · have hne : op.level.rank ≠ level.rank := fun he => hop (Level.rank_injective he)
      simp only [Expr.rank] at hr
      exact hdirect _ tail hl (by simp only [Expr.rank]; omega) hs hb
  | _ =>
    intro tail hl hr hs hb
    exact hdirect _ tail hl (Nat.lt_succ_of_le level.rank_le_two) hs hb

theorem chained_complete {size : Nat} {operand : List Token → Except Failure (Parsed Expr)}
    {level : Level} (h : Complete size (level.rank + 1) operand) :
    Complete size level.rank (chained operand level) := by
  intro e rest hl hr hs hb
  obtain ⟨fuel, -, hc⟩ := chained_append h e rest hl hr hs (hb.mono (Nat.le_succ _))
  rw [hc]
  unfold chain
  split
  · rename_i sign op more
    have hlt := hb sign op more rfl
    have hop : op.level ≠ level := by
      intro he
      rw [he] at hlt
      exact Nat.lt_irrefl _ hlt
    rw [if_neg hop]
  · rfl

theorem nested_complete (depth : Nat) : Complete depth 0 (nested s (depth + 1)) := by
  have hlevels {size : Nat} {inner : List Token → Except Failure (Parsed Expr)}
      (h : Complete size 3 (primary s inner)) :
      Complete size 0 (chained (chained (chained (primary s inner) .multiplicative) .additive)
        .comparison) := by
    have hmul := @chained_complete _ _ .multiplicative h
    have hadd := @chained_complete _ _ .additive hmul
    exact @chained_complete _ _ .comparison hadd
  induction depth with
  | zero =>
    intro e rest _ _ hs _
    exact False.elim (e.tokens_ne_nil (List.length_eq_zero_iff.mp (Nat.le_zero.mp hs)))
  | succ depth ih => exact hlevels (primary_complete ih)

-- Every layered expression is found in front of anything but an operator.
theorem parse_complete {e : Expr} {rest : List Token} (hl : e.Layered) (hb : Bounded 0 rest) :
    parse s (e.tokens ++ rest) = .ok (e, rest) := by
  unfold parse
  apply nested_complete _ e rest hl (Nat.zero_le _) _ hb
  simp

-- No operator follows if and only if the token that the parser looks at is none.
theorem bounded_zero_iff {rest : List Token} :
    Bounded 0 rest ↔ ∀ op, (s.front rest).kind ≠ .operator op := by
  cases rest with
  | nil =>
    have hend : (s.front []).kind = .endOfInput := rfl
    simp [hend, bounded_nil]
  | cons token rest =>
    have hfront : s.front (token :: rest) = token := rfl
    rw [hfront]
    constructor
    · intro h op hop
      exact Nat.not_lt_zero _ (h token.toWord op rest (by rw [← hop]))
    · exact bounded_cons

-- An expression is read off the front of the tokens if and only if its tokens stand there, its
-- operators bind as their levels and their order say, and no operator follows.
theorem parse_eq_ok_iff_layered (s : Scan) (tokens : List Token) (e : Expr) (rest : List Token) :
    parse s tokens = .ok (e, rest) ↔
      tokens = e.tokens ++ rest ∧ e.Layered ∧ ∀ op, (s.front rest).kind ≠ .operator op := by
  rw [← bounded_zero_iff]
  constructor
  · exact parse_sound
  · rintro ⟨rfl, hl, hb⟩
    exact parse_complete hl hb

-- Chained comparisons are read from the left.
example (s : Scan) (a b c equal less : Word) :
    parse s [⟨a, .variable⟩, ⟨equal, .operator .eq⟩, ⟨b, .variable⟩, ⟨less, .operator .lt⟩,
      ⟨c, .variable⟩] =
        .ok (.binary (.binary (.variable a) .eq equal (.variable b)) .lt less (.variable c), []) :=
  rfl

-- Where no operator follows, the tokens determine the expression.
theorem tokens_append_inj {e e' : Expr} {rest rest' : List Token} (hl : e.Layered)
    (hl' : e'.Layered) (hb : Bounded 0 rest) (hb' : Bounded 0 rest')
    (h : e.tokens ++ rest = e'.tokens ++ rest') : e = e' ∧ rest = rest' := by
  have h₁ : parse ⟨[], 0, none⟩ (e.tokens ++ rest) = .ok (e, rest) := parse_complete hl hb
  have h₂ : parse ⟨[], 0, none⟩ (e'.tokens ++ rest') = .ok (e', rest') := parse_complete hl' hb'
  rw [h, h₂] at h₁
  cases h₁
  exact ⟨rfl, rfl⟩

-- Of two expressions at the front of the same tokens the one that no operator follows is the
-- longer one.
theorem length_le_of_bounded {e e' : Expr} {rest rest' : List Token} (hl : e.Layered)
    (hl' : e'.Layered) (hb : Bounded 0 rest) (h : e'.tokens ++ rest' = e.tokens ++ rest) :
    e'.tokens.length ≤ e.tokens.length := by
  rcases List.append_eq_append_iff.mp h with ⟨more, hm, hr⟩ | ⟨more, hm, hr⟩
  · rw [hm]
    simp
  · -- if the other one were longer, the tokens would make two expressions
    have hmore : Bounded 0 more := by
      cases more with
      | nil => exact bounded_nil 0
      | cons token more =>
        intro sign op others he
        exact hb sign op (others ++ rest') (by rw [hr, he]; rfl)
    obtain ⟨rfl, -⟩ := tokens_append_inj hl' hl (bounded_nil 0) hmore (by rw [hm, List.append_nil])
    exact Nat.le_refl _

end LineBasic.Expr
