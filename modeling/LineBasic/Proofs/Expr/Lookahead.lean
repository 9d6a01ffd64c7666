import LineBasic.Proofs.Expr.Layered

namespace LineBasic

variable {α β : Type} {s s' : Scan} {more tokens : List Token}

-- The results of a parser on some tokens at the end of a source, and on the same tokens with others
-- after them. The parser either comes to the end of the source, where it has taken all tokens or
-- misses one, or it does not look so far and gives the same result.
inductive Settled (s : Scan) (more tokens : List Token) :
    Except Failure (Parsed α) → Except Failure (Parsed α) → Prop where
  | ended {a : α} {result : Except Failure (Parsed α)} : Settled s more tokens (.ok (a, [])) result
  | missed {failure : Failure} {result : Except Failure (Parsed α)}
      (hp : failure.problem.phase = .parsing) :
      Settled s more tokens (.error (s.blame [] failure)) result
  | taken {a : α} {rest : List Token} (hne : rest ≠ []) (hle : rest.length ≤ tokens.length) :
      Settled s more tokens (.ok (a, rest)) (.ok (a, rest ++ more))
  | failed {failure : Failure} (hp : failure.problem.phase = .parsing) (hne : tokens ≠ []) :
      Settled s more tokens (.error failure) (.error failure)

namespace Settled

theorem of_nil {r₁ r₂ r₃ : Except Failure (Parsed α)} (h : Settled s more [] r₁ r₂) :
    Settled s more tokens r₁ r₃ := by
  cases h with
  | ended => exact .ended
  | missed hp => exact .missed hp
  | taken hne hle => exact (hne (List.length_eq_zero_iff.mp (Nat.le_zero.mp hle))).elim
  | failed hp hne => exact (hne rfl).elim

theorem mono {rest : List Token} {r₁ r₂ : Except Failure (Parsed α)}
    (h : Settled s more rest r₁ r₂) (hle : rest.length ≤ tokens.length) :
    Settled s more tokens r₁ r₂ := by
  cases h with
  | ended => exact .ended
  | missed hp => exact .missed hp
  | taken hne hle' => exact .taken hne (Nat.le_trans hle' hle)
  | failed hp hne =>
    refine .failed hp ?_
    rintro rfl
    exact hne (List.length_eq_zero_iff.mp (Nat.le_zero.mp hle))

-- Parsers one after the other: the second one starts where the first one stops.
theorem bind {r₁ r₂ : Except Failure (Parsed α)}
    {f₁ f₂ : Parsed α → Except Failure (Parsed β)} (h : Settled s more tokens r₁ r₂)
    (hf : ∀ a rest, rest.length ≤ tokens.length →
      Settled s more rest (f₁ (a, rest)) (f₂ (a, rest ++ more))) :
    Settled s more tokens (r₁ >>= f₁) (r₂ >>= f₂) := by
  cases h with
  | @ended a => exact (hf a [] (Nat.zero_le _)).of_nil
  | missed hp => exact .missed hp
  | taken hne hle => exact (hf _ _ hle).mono hle
  | failed hp hne => exact .failed hp hne

end Settled

theorem settled_ok (a : α) {rest : List Token} (hle : rest.length ≤ tokens.length) :
    Settled s more tokens (.ok (a, rest)) (.ok (a, rest ++ more)) := by
  cases rest with
  | nil => exact .ended
  | cons token rest => exact .taken (List.cons_ne_nil _ _) hle

namespace Expr

theorem primary_paren (inner : List Token → Except Failure (Parsed Expr)) (opening : Word)
    (rest : List Token) :
    primary s inner (⟨opening, .leftParen⟩ :: rest) = inner rest >>= fun x =>
      match x with
      | (e, ⟨closing, .rightParen⟩ :: after) => .ok (.grouping opening e closing, after)
      | (_, after) => .error (s.blame after ⟨.unclosedParen, opening.line, []⟩) := by
  rw [primary]
  cases inner rest with
  | error failure => rfl
  | ok result =>
    obtain ⟨e, after⟩ := result
    match after with
    | [] => rfl
    | ⟨closing, kind⟩ :: after => cases kind <;> rfl

theorem chain_operator (operand : List Token → Except Failure (Parsed Expr)) {level : Level}
    {op : Operator} (h : op.level = level) (fuel : Nat) (left : Expr) (sign : Word)
    (rest : List Token) :
    chain operand level (fuel + 1) left (⟨sign, .operator op⟩ :: rest) = operand rest >>= fun x =>
      chain operand level fuel (.binary left op sign x.1) x.2 := by
  rw [chain, if_pos h]
  cases operand rest <;> rfl

theorem chained_eq_bind (operand : List Token → Except Failure (Parsed Expr)) (level : Level)
    (tokens : List Token) : chained operand level tokens = operand tokens >>= fun x =>
      chain operand level x.2.length x.1 x.2 := by
  rw [chained]
  cases operand tokens <;> rfl

section Levels

variable {bound : Nat} {operand operand' : List Token → Except Failure (Parsed Expr)}

theorem settled_primary {inner inner' : List Token → Except Failure (Parsed Expr)}
    (h : ∀ tokens, tokens.length < bound →
      Settled s more tokens (inner tokens) (inner' (tokens ++ more)))
    (hb : tokens.length ≤ bound) :
    Settled s more tokens (primary s inner tokens) (primary s' inner' (tokens ++ more)) := by
  match tokens with
  | [] => exact .missed rfl
  | ⟨word, kind⟩ :: rest =>
    cases kind
    case number | string | «variable» => exact settled_ok _ (Nat.le_succ _)
    case leftParen =>
      rw [List.cons_append, primary_paren, primary_paren]
      refine ((h rest hb).bind fun e after _ => ?_).mono (Nat.le_succ _)
      match after with
      | [] => exact .missed rfl
      | ⟨closing, kind⟩ :: after =>
        cases kind
        case rightParen => exact settled_ok _ (Nat.le_succ _)
        all_goals exact .failed rfl (List.cons_ne_nil _ _)
    all_goals exact .failed rfl (List.cons_ne_nil _ _)

-- A chain that does not come to the end of the source takes the same operators with more fuel.
theorem settled_chain
    (h : ∀ tokens, tokens.length ≤ bound →
      Settled s more tokens (operand tokens) (operand' (tokens ++ more)))
    (level : Level) {fuel fuel' : Nat} (left : Expr) (hb : tokens.length ≤ bound)
    (hf : tokens.length ≤ fuel) (hff : fuel ≤ fuel') :
    Settled s more tokens (chain operand level fuel left tokens)
      (chain operand' level fuel' left (tokens ++ more)) := by
  induction fuel generalizing tokens fuel' left with
  | zero =>
    obtain rfl := List.length_eq_zero_iff.mp (Nat.le_zero.mp hf)
    exact .ended
  | succ fuel ih =>
    obtain ⟨fuel', rfl⟩ := Nat.exists_eq_succ_of_ne_zero (Nat.ne_zero_of_lt hff)
    match tokens with
    | [] => exact .ended
    | ⟨sign, kind⟩ :: rest =>
      cases kind
      case operator op =>
        by_cases hop : op.level = level
        · rw [List.cons_append, chain_operator _ hop, chain_operator _ hop]
          rw [List.length_cons] at hb hf
          refine ((h rest (by omega)).bind fun right after hle => ?_).mono (Nat.le_succ _)
          exact ih _ (by omega) (by omega) (by omega)
        · rw [List.cons_append, chain, chain, if_neg hop, if_neg hop]
          exact settled_ok _ (Nat.le_refl _)
      all_goals exact settled_ok _ (Nat.le_refl _)

theorem settled_chained
    (h : ∀ tokens, tokens.length ≤ bound →
      Settled s more tokens (operand tokens) (operand' (tokens ++ more)))
    (level : Level) (tokens : List Token) (hb : tokens.length ≤ bound) :
    Settled s more tokens (chained operand level tokens)
      (chained operand' level (tokens ++ more)) := by
  rw [chained_eq_bind, chained_eq_bind]
  refine (h tokens hb).bind fun left rest hle => ?_
  exact settled_chain h level left (Nat.le_trans hle hb) (Nat.le_refl _)
    (List.sublist_append_left _ _).length_le

end Levels

theorem settled_nested {depth depth' : Nat} (h : depth ≤ depth') (hb : tokens.length < depth) :
    Settled s more tokens (nested s depth tokens) (nested s' depth' (tokens ++ more)) := by
  induction depth generalizing depth' tokens with
  | zero => exact (Nat.not_lt_zero _ hb).elim
  | succ depth ih =>
    obtain ⟨depth', rfl⟩ := Nat.exists_eq_succ_of_ne_zero (Nat.ne_zero_of_lt h)
    have hprimary : ∀ tokens : List Token, tokens.length ≤ depth →
        Settled s more tokens (primary s (nested s depth) tokens)
          (primary s' (nested s' depth') (tokens ++ more)) := fun tokens hle =>
      settled_primary (fun tokens hlt => ih (Nat.le_of_succ_le_succ h) hlt) hle
    have hmul := settled_chained hprimary .multiplicative
    have hadd := settled_chained hmul .additive
    exact settled_chained hadd .comparison tokens (Nat.le_of_lt_succ hb)

-- An expression is read in the same way whatever comes after the token behind it.
theorem settled_parse (s s' : Scan) (more tokens : List Token) :
    Settled s more tokens (parse s tokens) (parse s' (tokens ++ more)) :=
  settled_nested (Nat.succ_le_succ (List.sublist_append_left _ _).length_le) (Nat.lt_succ_self _)

end Expr

end LineBasic
