import LineBasic.Expr.Parser

namespace LineBasic

namespace Level

-- A greater rank binds more tightly.
def rank : Level → Nat
  | .comparison => 0
  | .additive => 1
  | .multiplicative => 2

theorem rank_injective {l k : Level} (h : l.rank = k.rank) : l = k := by
  cases l <;> cases k <;> first | rfl | cases h

theorem rank_le_two (l : Level) : l.rank ≤ 2 := by
  cases l <;> decide

end Level

namespace Expr

-- The rank of the operator at the root. Anything without one binds most tightly of all.
def rank : Expr → Nat
  | .binary _ op _ _ => op.level.rank
  | _ => 3

-- A left operand may have the level of its operator, a right one must bind more tightly.
-- Parentheses start afresh.
def Layered : Expr → Prop
  | .number _ _ => True
  | .string _ _ => True
  | .variable _ => True
  | .grouping _ inner _ => inner.Layered
  | .binary left op _ right =>
    left.Layered ∧ right.Layered ∧ op.level.rank ≤ left.rank ∧ op.level.rank < right.rank

instance decidableLayered : (e : Expr) → Decidable e.Layered
  | .number _ _ => isTrue trivial
  | .string _ _ => isTrue trivial
  | .variable _ => isTrue trivial
  | .grouping _ inner _ => decidableLayered inner
  | .binary left op _ right =>
    have := decidableLayered left
    have := decidableLayered right
    inferInstanceAs (Decidable (left.Layered ∧ right.Layered ∧ op.level.rank ≤ left.rank ∧
      op.level.rank < right.rank))

def Bounded (rank : Nat) (tokens : List Token) : Prop :=
  ∀ sign op rest, tokens = ⟨sign, .operator op⟩ :: rest → op.level.rank < rank

theorem Bounded.mono {r k : Nat} {tokens : List Token} (h : Bounded r tokens) (hrk : r ≤ k) :
    Bounded k tokens := by
  intro sign op rest he
  exact Nat.lt_of_lt_of_le (h sign op rest he) hrk

theorem bounded_nil (r : Nat) : Bounded r [] := by
  intro sign op rest he
  cases he

theorem bounded_cons {r : Nat} {token : Token} {rest : List Token}
    (h : ∀ op, token.kind ≠ .operator op) : Bounded r (token :: rest) := by
  intro sign op more he
  obtain ⟨rfl, -⟩ := List.cons.inj he
  exact False.elim (h op rfl)

theorem bounded_operator {r : Nat} {sign : Word} {op : Operator} {rest : List Token}
    (h : op.level.rank < r) : Bounded r (⟨sign, .operator op⟩ :: rest) := by
  intro sign' op' rest' he
  simp only [List.cons.injEq, Token.mk.injEq, Token.Kind.operator.injEq] at he
  rw [← he.1.2]
  exact h

theorem bounded_three (tokens : List Token) : Bounded 3 tokens := by
  intro sign op rest _
  exact Nat.lt_succ_of_le op.level.rank_le_two

theorem tokens_ne_nil (e : Expr) : e.tokens ≠ [] := by
  cases e <;> simp [tokens]

theorem starts_tokens : (e : Expr) → (rest : List Token) → starts (e.tokens ++ rest) = true
  | .number _ _, _ => rfl
  | .string _ _, _ => rfl
  | .variable _, _ => rfl
  | .grouping _ _ _, _ => rfl
  | .binary left op sign right, rest => by
    simp only [tokens, List.append_assoc]
    exact starts_tokens left _

end Expr

end LineBasic
