import LineBasic.Block.Parser
import LineBasic.Proofs.Expr.Lookahead

namespace LineBasic.Block

variable {s s' : Scan} {more tokens : List Token}

theorem settled_expectVariable (tokens : List Token) :
    Settled s more tokens (expectVariable s tokens) (expectVariable s' (tokens ++ more)) := by
  match tokens with
  | [] => exact .missed rfl
  | ⟨word, kind⟩ :: rest =>
    cases kind
    case «variable» => exact settled_ok _ (Nat.le_succ _)
    all_goals exact .failed rfl (List.cons_ne_nil _ _)

theorem settled_expectEqual (tokens : List Token) :
    Settled s more tokens (expectEqual s tokens) (expectEqual s' (tokens ++ more)) := by
  match tokens with
  | [] => exact .missed rfl
  | ⟨word, kind⟩ :: rest =>
    cases kind
    case operator op =>
      cases op
      case eq => exact settled_ok _ (Nat.le_succ _)
      all_goals exact .failed rfl (List.cons_ne_nil _ _)
    all_goals exact .failed rfl (List.cons_ne_nil _ _)

theorem settled_expectCommand {problem : Problem} (hp : problem.phase = .parsing)
    (command : Command) (tokens : List Token) :
    Settled s more tokens (expectCommand s command problem tokens)
      (expectCommand s' command problem (tokens ++ more)) := by
  match tokens with
  | [] => exact .missed hp
  | ⟨word, kind⟩ :: rest =>
    cases kind
    case command found =>
      rw [List.cons_append, expectCommand, expectCommand]
      split
      · exact settled_ok _ (Nat.le_succ _)
      · exact .failed hp (List.cons_ne_nil _ _)
    all_goals exact .failed hp (List.cons_ne_nil _ _)

theorem settled_expectLabel (tokens : List Token) :
    Settled s more tokens (expectLabel s tokens) (expectLabel s' (tokens ++ more)) := by
  match tokens with
  | [] => exact .missed rfl
  | ⟨word, kind⟩ :: rest =>
    cases kind
    case «variable» | command => exact settled_ok _ (Nat.le_succ _)
    all_goals exact .failed rfl (List.cons_ne_nil _ _)

theorem starts_append {token : Token} {rest : List Token} :
    Expr.starts (token :: rest ++ more) = Expr.starts (token :: rest) := by
  obtain ⟨word, kind⟩ := token
  cases kind <;> rfl

theorem settled_printList {fuel fuel' : Nat} (hf : tokens.length < fuel) (hff : fuel ≤ fuel') :
    Settled s more tokens (printList s fuel tokens) (printList s' fuel' (tokens ++ more)) := by
  induction fuel generalizing tokens fuel' with
  | zero => exact (Nat.not_lt_zero _ hf).elim
  | succ fuel ih =>
    obtain ⟨fuel', rfl⟩ := Nat.exists_eq_succ_of_ne_zero (Nat.ne_zero_of_lt hff)
    match tokens with
    | [] => exact .ended
    | token :: rest =>
      rw [printList, printList, starts_append]
      split
      · refine (Expr.settled_parse s s' more (token :: rest)).bind fun element after hle => ?_
        match after with
        | [] => exact .ended
        | ⟨word, kind⟩ :: after =>
          rw [List.length_cons] at hle
          cases kind
          case comma | semicolon =>
            refine Settled.mono ?_ (Nat.le_succ _)
            refine (ih (by omega) (Nat.le_of_succ_le_succ hff)).bind fun elements rest _ => ?_
            exact settled_ok _ (Nat.le_refl _)
          all_goals exact settled_ok _ (Nat.le_refl _)
      · exact settled_ok _ (Nat.le_refl _)

theorem settled_assignment (name : Word) (tokens : List Token) :
    Settled s more tokens (assignment s name tokens) (assignment s' name (tokens ++ more)) := by
  refine (settled_expectEqual tokens).bind fun _ rest _ => ?_
  refine (Expr.settled_parse s s' more rest).bind fun value rest _ => ?_
  exact settled_ok _ (Nat.le_refl _)

theorem settled_printing (keyword : Word) (tokens : List Token) :
    Settled s more tokens (printing s keyword tokens) (printing s' keyword (tokens ++ more)) := by
  have hle : tokens.length + 1 ≤ (tokens ++ more).length + 1 :=
    Nat.succ_le_succ (List.sublist_append_left _ _).length_le
  refine (settled_printList (Nat.lt_succ_self _) hle).bind fun elements rest _ => ?_
  exact settled_ok _ (Nat.le_refl _)

-- A separator that may stand in front of a variable is skipped on both sides, or no token is left.
theorem settled_separated (tokens : List Token) :
    Settled s more tokens (expectVariable s (skipListSeparator tokens))
      (expectVariable s' (skipListSeparator (tokens ++ more))) := by
  match tokens with
  | [] => exact .missed rfl
  | ⟨word, kind⟩ :: rest =>
    cases kind
    case comma | semicolon => exact (settled_expectVariable rest).mono (Nat.le_succ _)
    all_goals exact settled_expectVariable (_ :: rest)

theorem settled_inputting (keyword : Word) (tokens : List Token) :
    Settled s more tokens (inputting s keyword tokens) (inputting s' keyword (tokens ++ more)) := by
  have hname {rest : List Token} {r₁ r₂ : Except Failure (Parsed Word)} (prompt : Option Bytes)
      (h : Settled s more rest r₁ r₂) :
      Settled s more rest (r₁ >>= fun x => .ok (single (.input keyword prompt x.1), x.2))
        (r₂ >>= fun x => .ok (single (.input keyword prompt x.1), x.2)) :=
    h.bind fun name rest _ => settled_ok _ (Nat.le_refl _)
  match tokens with
  | [] => exact .missed rfl
  | ⟨word, kind⟩ :: rest =>
    cases kind
    case string prompt => exact (hname _ (settled_separated rest)).mono (Nat.le_succ _)
    all_goals exact hname _ (settled_expectVariable (_ :: rest))

section Bodies

variable {bound : Nat} {body body' : BodyParser}

-- The bodies of statements are read with fewer tokens than the statements.
theorem settled_conditional
    (h : ∀ names tokens, tokens.length < bound →
      Settled s more tokens (body names tokens) (body' names (tokens ++ more)))
    (names : List Bytes) (keyword : Word) (hb : tokens.length < bound) :
    Settled s more tokens (conditional s body names keyword tokens)
      (conditional s' body' names keyword (tokens ++ more)) := by
  refine (Expr.settled_parse s s' more tokens).bind fun condition rest hle => ?_
  refine (settled_expectCommand rfl .Then rest).bind fun _ rest hle => ?_
  refine (h names rest (by omega)).bind fun yes rest hle => ?_
  match rest with
  | [] => exact .missed rfl
  | ⟨word, kind⟩ :: rest =>
    cases kind
    case command command =>
      cases command
      case Endif => exact settled_ok _ (Nat.le_succ _)
      case Else =>
        rw [List.length_cons] at hle
        refine Settled.mono ?_ (Nat.le_succ _)
        refine (h (names ++ yes.labelNames) rest (by omega)).bind fun no rest hle => ?_
        match rest with
        | [] => exact .missed rfl
        | ⟨word, kind⟩ :: rest =>
          cases kind
          case command command =>
            cases command
            case Endif => exact settled_ok _ (Nat.le_succ _)
            all_goals exact .failed rfl (List.cons_ne_nil _ _)
          all_goals exact .failed rfl (List.cons_ne_nil _ _)
      all_goals exact .failed rfl (List.cons_ne_nil _ _)
    all_goals exact .failed rfl (List.cons_ne_nil _ _)

theorem settled_counting
    (h : ∀ names tokens, tokens.length < bound →
      Settled s more tokens (body names tokens) (body' names (tokens ++ more)))
    (names : List Bytes) (keyword : Word) (hb : tokens.length < bound) :
    Settled s more tokens (counting s body names keyword tokens)
      (counting s' body' names keyword (tokens ++ more)) := by
  refine (settled_expectVariable tokens).bind fun name rest hle => ?_
  refine (settled_expectEqual rest).bind fun _ rest hle => ?_
  refine (Expr.settled_parse s s' more rest).bind fun first rest hle => ?_
  refine (settled_expectCommand rfl .To rest).bind fun _ rest hle => ?_
  refine (Expr.settled_parse s s' more rest).bind fun last rest hle => ?_
  refine (h names rest (by omega)).bind fun inner rest hle => ?_
  match rest with
  | [] => exact .missed rfl
  | ⟨word, kind⟩ :: rest =>
    cases kind
    case command command =>
      cases command
      case Next =>
        refine (show Settled s more rest _ _ from ?_).mono (Nat.le_succ _)
        match rest with
        | [] => exact .ended
        | ⟨repeated, kind⟩ :: rest =>
          cases kind
          case «variable» =>
            by_cases heq : repeated.text = name.text
            · simp only [List.cons_append, if_pos heq]
              exact settled_ok _ (Nat.le_succ _)
            · simp only [List.cons_append, if_neg heq]
              exact .failed rfl (List.cons_ne_nil _ _)
          all_goals exact settled_ok _ (Nat.le_refl _)
      all_goals exact .failed rfl (List.cons_ne_nil _ _)
    all_goals exact .failed rfl (List.cons_ne_nil _ _)

-- A statement is refused for its first word, or read from the tokens after it.
theorem settled_statement
    (h : ∀ names tokens, tokens.length < bound →
      Settled s more tokens (body names tokens) (body' names (tokens ++ more)))
    (names : List Bytes) (token : Token) (rest : List Token) (hb : rest.length < bound) :
    (∃ failure : Failure, failure.problem.phase = .parsing ∧
      statement s body names (token :: rest) = .error failure ∧
      statement s' body' names (token :: rest ++ more) = .error failure) ∨
    Settled s more rest (statement s body names (token :: rest))
      (statement s' body' names (token :: rest ++ more)) := by
  have hlabel (stmt : Word → Block) : Settled s more rest
      (expectLabel s rest >>= fun x => .ok (stmt x.1, x.2))
      (expectLabel s' (rest ++ more) >>= fun x => .ok (stmt x.1, x.2)) :=
    (settled_expectLabel rest).bind fun label rest _ => settled_ok _ (Nat.le_refl _)
  obtain ⟨word, kind⟩ := token
  cases kind
  case label =>
    simp only [List.cons_append, statement]
    split
    · exact .inl ⟨_, rfl, rfl, rfl⟩
    · exact .inr (settled_ok _ (Nat.le_refl _))
  case «variable» => exact .inr (settled_assignment word rest)
  case command command =>
    cases command
    case Print => exact .inr (settled_printing word rest)
    case Input => exact .inr (settled_inputting word rest)
    case If => exact .inr (settled_conditional h names word hb)
    case For => exact .inr (settled_counting h names word hb)
    case Goto => exact .inr (hlabel fun label => single (.goto word label))
    case Gosub => exact .inr (hlabel fun label => single (.gosub word label))
    case Return | End => exact .inr (settled_ok _ (Nat.le_refl _))
    all_goals exact .inl ⟨_, rfl, rfl, rfl⟩
  all_goals exact .inl ⟨_, rfl, rfl, rfl⟩

theorem settled_sequence
    (h : ∀ names tokens, tokens.length < bound →
      Settled s more tokens (body names tokens) (body' names (tokens ++ more)))
    {fuel fuel' : Nat} (names : List Bytes) (hb : tokens.length ≤ bound)
    (hf : tokens.length < fuel) (hff : fuel ≤ fuel') :
    Settled s more tokens (sequence s body fuel names tokens)
      (sequence s' body' fuel' names (tokens ++ more)) := by
  induction fuel generalizing tokens fuel' names with
  | zero => exact (Nat.not_lt_zero _ hf).elim
  | succ fuel ih =>
    obtain ⟨fuel', rfl⟩ := Nat.exists_eq_succ_of_ne_zero (Nat.ne_zero_of_lt hff)
    have hdrop := (tokens.dropWhile_sublist isSeparator).length_le
    rw [sequence, sequence, List.dropWhile_append]
    cases hstart : tokens.dropWhile isSeparator with
    | nil => exact .ended
    | cons token rest =>
      rw [hstart, List.length_cons] at hdrop
      refine (show Settled s more (token :: rest) _ _ from ?_).mono hdrop
      simp only [List.isEmpty_cons, Bool.false_eq_true, if_false, List.cons_append]
      by_cases hc : closes token
      · rw [if_pos hc, if_pos hc]
        exact settled_ok _ (Nat.le_refl _)
      · rw [if_neg hc, if_neg hc]
        rcases settled_statement h names token rest (by omega) with
          ⟨failure, hp, hfirst, hsecond⟩ | hstatement
        · rw [List.cons_append] at hsecond
          rw [hfirst, hsecond]
          exact .failed hp (List.cons_ne_nil _ _)
        · refine (hstatement.bind fun first rest hle => ?_).mono (Nat.le_succ _)
          refine (ih _ (by omega) (by omega) (by omega)).bind fun others rest _ => ?_
          exact settled_ok _ (Nat.le_refl _)

end Bodies

theorem settled_nested {depth depth' : Nat} (names : List Bytes) (h : depth ≤ depth')
    (hb : tokens.length < depth) : Settled s more tokens (nested s depth names tokens)
      (nested s' depth' names (tokens ++ more)) := by
  induction depth generalizing depth' tokens names with
  | zero => exact (Nat.not_lt_zero _ hb).elim
  | succ depth ih =>
    obtain ⟨depth', rfl⟩ := Nat.exists_eq_succ_of_ne_zero (Nat.ne_zero_of_lt h)
    have hle : tokens.length + 1 ≤ (tokens ++ more).length + 1 :=
      Nat.succ_le_succ (List.sublist_append_left _ _).length_le
    exact settled_sequence (fun names tokens hlt => ih names (Nat.le_of_succ_le_succ h) hlt) names
      (Nat.le_of_lt_succ hb) (Nat.lt_succ_self _) hle

-- A source is refused for what broke it off, or for what stands in it. In the second case the
-- parser comes to the end of a source that does not break off, or it does not look at what comes
-- after the tokens.
theorem parse_error_cases (ht : s'.tokens = s.tokens ++ more) {failure : Failure}
    (h : parse s = .error failure) :
    s.failure = some failure ∨ failure.problem.phase = .parsing ∧
      (s.failure ≠ none → parse s' = .error failure) := by
  have hle : s.tokens.length + 1 ≤ (s.tokens ++ more).length + 1 :=
    Nat.succ_le_succ (List.sublist_append_left _ _).length_le
  have hnested : Settled s more s.tokens (nested s (s.tokens.length + 1) [] s.tokens)
      (nested s' ((s.tokens ++ more).length + 1) [] (s.tokens ++ more)) :=
    settled_nested [] hle (Nat.lt_succ_self _)
  unfold parse at h ⊢
  rw [ht]
  generalize nested s (s.tokens.length + 1) [] s.tokens = r at h hnested
  generalize nested s' ((s.tokens ++ more).length + 1) [] (s.tokens ++ more) = r' at hnested
  cases hnested with
  | ended =>
    dsimp only at h
    cases hs : s.failure with
    | none =>
      rw [hs] at h
      cases h
    | some broken =>
      rw [hs] at h
      cases h
      exact .inl rfl
  | @missed missing _ hp =>
    cases hs : s.failure with
    | none =>
      simp only [Scan.blame, hs, Except.error.injEq] at h
      exact .inr ⟨h ▸ hp, fun hne => (hne rfl).elim⟩
    | some broken =>
      simp only [Scan.blame, hs, Except.error.injEq] at h
      exact .inl (h ▸ rfl)
  | @taken block rest hne hle =>
    cases rest with
    | nil => exact (hne rfl).elim
    | cons token rest =>
      cases h
      exact .inr ⟨rfl, fun _ => rfl⟩
  | failed hp hne =>
    cases h
    exact .inr ⟨hp, fun _ => rfl⟩

end LineBasic.Block
