import LineBasic.Machine

namespace LineBasic

namespace Operator

-- What an operator can say against its operands.
def problems : List Problem :=
  [.operandTypes, .divisionByZero, .modulusByZero]

theorem numeric_problem {f : Double → Double → Except Problem Value} {x y : Value}
    {problem : Problem} (hf : ∀ a b, f a b = .error problem → problem ∈ problems)
    (h : Value.numeric f x y = .error problem) : problem ∈ problems := by
  unfold Value.numeric at h
  split at h
  · exact hf _ _ h
  · cases h
    simp [problems]

-- Every operator has a value for its operands or one of three objections to them.
theorem apply_problem {op : Operator} {x y : Value} {problem : Problem}
    (h : op.apply x y = .error problem) : problem ∈ problems := by
  cases op with
  | add =>
    cases x <;> cases y <;> cases h
    all_goals simp [problems]
  | eq | ne => cases h
  | div | mod =>
    refine numeric_problem (fun a b hab => ?_) h
    split at hab
    · cases hab
      simp [problems]
    · cases hab
  | _ => exact numeric_problem (fun a b hab => by cases hab) h

end Operator

namespace Expr

-- Expressions see nothing of the environment but the variables.
theorem evaluate_values (e : Expr) (env : Env) :
    e.evaluate env = e.evaluate ⟨env.values, [], []⟩ := by
  induction e with
  | number value word => rfl
  | string value word => rfl
  | «variable» name => rfl
  | grouping opening inner closing ih => exact ih
  | binary left op sign right ihl ihr => simp only [evaluate, ihl, ihr]

theorem evaluateAll_values (es : List Expr) (env : Env) :
    evaluateAll env es = evaluateAll ⟨env.values, [], []⟩ es := by
  induction es with
  | nil => rfl
  | cons e rest ih =>
    have he := e.evaluate_values env
    simp only [evaluateAll, he, ih]

-- An expression without a value has an undefined variable or unfit operands.
theorem evaluate_problem {e : Expr} {env : Env} {failure : Failure}
    (h : e.evaluate env = .error failure) :
    failure.problem = .undefinedVariable ∨ failure.problem ∈ Operator.problems := by
  induction e generalizing failure with
  | number value word => cases h
  | string value word => cases h
  | «variable» name =>
    simp only [evaluate, Env.get] at h
    split at h
    · cases h
    · cases h
      exact .inl rfl
  | grouping opening inner closing ih => exact ih h
  | binary left op sign right ihl ihr =>
    simp only [evaluate] at h
    split at h
    · rename_i heq
      cases h
      exact ihl heq
    · split at h
      · rename_i heq
        cases h
        exact ihr heq
      · split at h
        · cases h
        · cases h
          exact .inr (by simp [Operator.problems])
        · rename_i heq
          cases h
          exact .inr (Operator.apply_problem heq)

theorem boundOf_range (x : Double) : leastBound ≤ boundOf x ∧ boundOf x ≤ greatestBound := by
  unfold boundOf leastBound greatestBound
  split
  · omega
  · split
    · omega
    · split <;> omega

theorem bound_range {e : Expr} {env : Env} {line : Nat} {n : Int} (h : e.bound env line = .ok n) :
    leastBound ≤ n ∧ n ≤ greatestBound := by
  unfold bound at h
  split at h
  · cases h
  · cases h
    exact boundOf_range _
  · cases h

end Expr

end LineBasic
