import LineBasic.Machine
import LineBasic.Proofs.Program.Acceptance

namespace LineBasic

-- What a zero on the right of an operator leads to.
def Problem.IsByZero (problem : Problem) : Prop :=
  problem = .divisionByZero ∨ problem = .modulusByZero

namespace Operator

-- The kind of what comes of two numbers. Nothing comes of other operands.
def numericKind? (result : Value.Kind) : Value.Kind → Value.Kind → Option Value.Kind
  | .number, .number => some result
  | _, _ => none

-- The kind of an operator's value, if it takes operands of these kinds.
def kind? : Operator → Value.Kind → Value.Kind → Option Value.Kind
  | .add, .number, .number => some .number
  | .add, left, right => if left = .string ∨ right = .string then some .string else none
  | .sub, left, right | .mul, left, right | .div, left, right | .mod, left, right =>
    numericKind? .number left right
  | .lt, left, right | .le, left, right | .gt, left, right | .ge, left, right =>
    numericKind? .boolean left right
  | .eq, _, _ | .ne, _, _ => some .boolean

-- A result as the kinds of the operands ask for it: a value of that kind, an objection to the kinds
-- if they ask for none, or one to a zero.
def Obeys (asked : Option Value.Kind) : Except Problem Value → Prop
  | .ok value => asked = some value.kind
  | .error problem => problem = .operandTypes ∧ asked = none ∨ problem.IsByZero

theorem numeric_obeys {f : Double → Double → Except Problem Value} {result : Value.Kind}
    (hf : ∀ a b, Obeys (some result) (f a b)) (x y : Value) :
    Obeys (numericKind? result x.kind y.kind) (Value.numeric f x y) := by
  cases x with
  | number a =>
    cases y with
    | number b => exact hf a b
    | _ => exact .inl ⟨rfl, rfl⟩
  | _ => exact .inl ⟨rfl, rfl⟩

theorem add_obeys (x y : Value) : Obeys (kind? .add x.kind y.kind) (x.add y) := by
  cases x <;> cases y <;> first | rfl | exact .inl ⟨rfl, rfl⟩

theorem apply_obeys (op : Operator) (x y : Value) :
    Obeys (op.kind? x.kind y.kind) (op.apply x y) := by
  cases op with
  | add => exact add_obeys x y
  | eq | ne => rfl
  | div =>
    refine numeric_obeys (fun a b => ?_) x y
    split
    · exact .inr (.inl rfl)
    · rfl
  | mod =>
    refine numeric_obeys (fun a b => ?_) x y
    split
    · exact .inr (.inr rfl)
    · rfl
  | _ =>
    refine numeric_obeys (fun a b => ?_) x y
    rfl

end Operator

def Env.kind? (env : Env) (name : Bytes) : Option Value.Kind :=
  (env.values.get? name).map Value.kind

namespace Expr

-- The kind of an expression's value, or the failure that keeps it from having one, as far as the
-- kinds of the variables tell.
def kind (kinds : Bytes → Option Value.Kind) : Expr → Except Failure Value.Kind
  | .number _ _ => .ok .number
  | .string _ _ => .ok .string
  | .variable name =>
    match kinds name.text with
    | some kind => .ok kind
    | none => .error ⟨.undefinedVariable, name.line, name.text⟩
  | .grouping _ inner _ => inner.kind kinds
  | .binary left op sign right =>
    match left.kind kinds with
    | .error failure => .error failure
    | .ok x =>
      match right.kind kinds with
      | .error failure => .error failure
      | .ok y =>
        match op.kind? x y with
        | some kind => .ok kind
        | none => .error ⟨.operandTypes, sign.line,
            Bytes.ofString x.name ++ [32] ++ sign.text ++ [32] ++ Bytes.ofString y.name⟩

def FailsByZero (e : Expr) (env : Env) : Prop :=
  ∃ failure, e.evaluate env = .error failure ∧ failure.problem.IsByZero

-- The kinds of the variables tell everything about the kind of the value and about all failures
-- but those by a zero.
theorem kind_of_evaluate (e : Expr) (env : Env) :
    e.FailsByZero env ∨ (e.evaluate env).map Value.kind = e.kind env.kind? := by
  induction e with
  | number value word => exact .inr rfl
  | string value word => exact .inr rfl
  | «variable» name =>
    refine .inr ?_
    simp only [evaluate, Env.get, kind, Env.kind?]
    cases env.values.get? name.text <;> rfl
  | grouping opening inner closing ih => exact ih
  | binary left op sign right ihl ihr =>
    -- the left operand is evaluated first, so its failures hide those of the right one
    unfold FailsByZero
    simp only [evaluate, kind]
    obtain ⟨failure, hl, hz⟩ | hl := ihl
    · exact .inl ⟨failure, by rw [hl], hz⟩
    rw [← hl]
    cases left.evaluate env with
    | error failure => exact .inr rfl
    | ok x =>
      obtain ⟨failure, hr, hz⟩ | hr := ihr
      · exact .inl ⟨failure, by rw [hr], hz⟩
      rw [← hr]
      cases right.evaluate env with
      | error failure => exact .inr rfl
      | ok y =>
        have hobeys := op.apply_obeys x y
        simp only [Except.map]
        cases happly : op.apply x y with
        | ok value =>
          rw [happly] at hobeys
          have hkind : op.kind? x.kind y.kind = some value.kind := hobeys
          exact .inr (by simp only [hkind])
        | error problem =>
          rw [happly] at hobeys
          obtain ⟨rfl, hkind⟩ | hz := hobeys
          · exact .inr (by simp only [hkind])
          · obtain rfl | rfl := hz
            · exact .inl ⟨_, rfl, .inl rfl⟩
            · exact .inl ⟨_, rfl, .inr rfl⟩

-- Two environments with the same variables of the same kinds are alike to an expression, unless it
-- divides by a zero: it has values of the same kind in both, or it fails in the same way.
theorem evaluate_alike (e : Expr) {env env' : Env} (hk : ∀ name, env.kind? name = env'.kind? name)
    (hz : ¬e.FailsByZero env) (hz' : ¬e.FailsByZero env') :
    (∃ value value', e.evaluate env = .ok value ∧ e.evaluate env' = .ok value' ∧
      value.kind = value'.kind) ∨
    ∃ failure, e.evaluate env = .error failure ∧ e.evaluate env' = .error failure := by
  have hkind : (e.evaluate env).map Value.kind = (e.evaluate env').map Value.kind := by
    rw [(e.kind_of_evaluate env).resolve_left hz, (e.kind_of_evaluate env').resolve_left hz',
      funext hk]
  generalize e.evaluate env = result at hkind ⊢
  generalize e.evaluate env' = result' at hkind ⊢
  cases result with
  | ok value =>
    cases result' with
    | ok value' => exact .inl ⟨value, value', rfl, rfl, Except.ok.inj hkind⟩
    | error failure => cases hkind
  | error failure =>
    cases result' with
    | ok value' => cases hkind
    | error failure' => exact .inr ⟨failure, rfl, by rw [Except.error.inj hkind]⟩

-- The comparison in (A = A) + S is true for the number 1 and false for NaN, so the two values are
-- different strings.
theorem evaluate_alike_notANumber :
    let env : Env := ⟨[(Bytes.ofString "A", .number (.ofInt 1)),
      (Bytes.ofString "S", .string [])], [], []⟩
    let env' : Env := ⟨[(Bytes.ofString "S", .string (Bytes.ofString "x")),
      (Bytes.ofString "A", .number .nan)], [], []⟩
    let a : Expr := .variable (.ofString "A" 1)
    let same : Expr := .grouping (.ofString "(" 1) (.binary a .eq (.ofString "=" 1) a)
      (.ofString ")" 1)
    let e : Expr := .binary same .add (.ofString "+" 1) (.variable (.ofString "S" 1))
    (∀ name, env.kind? name = env'.kind? name) ∧ ¬e.FailsByZero env ∧ ¬e.FailsByZero env' ∧
    ∃ value value', e.evaluate env = .ok value ∧ e.evaluate env' = .ok value' ∧
      value.kind = value'.kind ∧ value ≠ value' := by
  intro env env' a same e
  have hk : ∀ name, env.kind? name = env'.kind? name := by
    intro name
    by_cases ha : name = Bytes.ofString "A"
    · rw [ha]
      decide +kernel
    · by_cases hs : name = Bytes.ofString "S"
      · rw [hs]
        decide +kernel
      · simp [env, env', Env.kind?, Table.get?, List.lookup_cons, beq_eq_false_iff_ne.mpr ha,
          beq_eq_false_iff_ne.mpr hs]
  have hv : e.evaluate env = .ok (.string (Bytes.ofString "true")) :=
    eq_ok_of_toOption (by decide +kernel)
  have hv' : e.evaluate env' = .ok (.string (Bytes.ofString "falsex")) :=
    eq_ok_of_toOption (by decide +kernel)
  have hz : ¬e.FailsByZero env := by
    rintro ⟨failure, hf, -⟩
    cases hv.symm.trans hf
  have hz' : ¬e.FailsByZero env' := by
    rintro ⟨failure, hf, -⟩
    cases hv'.symm.trans hf
  refine ⟨hk, hz, hz', ?_⟩
  obtain ⟨value, value', he, he', hkinds⟩ | ⟨failure, hf, -⟩ := e.evaluate_alike hk hz hz'
  · refine ⟨value, value', he, he', hkinds, ?_⟩
    rw [← Except.ok.inj (hv.symm.trans he), ← Except.ok.inj (hv'.symm.trans he')]
    decide
  · cases hv.symm.trans hf

end Expr

end LineBasic
