import LineBasic.Proofs.Block.Lookahead
import LineBasic.Proofs.Program.Acceptance
import LineBasic.Proofs.Token.Spelling

namespace LineBasic.Program

theorem phase_of_parse_error {source : Bytes} (h : (Scan.ofSource source).failure = none)
    {failure : Failure} (hparse : parse source = .error failure) :
    failure.problem.phase = .parsing := by
  have hcases := Block.parse_error_cases (List.append_nil _).symm (parse_eq_error.mp hparse)
  rw [h] at hcases
  rcases hcases with hbroken | ⟨hp, -⟩
  · cases hbroken
  · exact hp

-- The parser looks at the tokens before the quote only, or it reports the quote.
theorem parse_error_of_quote {before after : Bytes} {broken failure : Failure}
    (hbefore : (Scan.ofSource before).failure = none)
    (htokens : (Scan.ofSource (before ++ 34 :: after)).tokens = (Scan.ofSource before).tokens)
    (hbroken : (Scan.ofSource (before ++ 34 :: after)).failure = some broken)
    (hparse : parse (before ++ 34 :: after) = .error failure) :
    failure = broken ∨ failure.problem.phase = .parsing ∧
      ∀ other, parse (before ++ 34 :: other) = .error failure := by
  have hcases (other : Bytes) : failure = broken ∨ failure.problem.phase = .parsing ∧
      parse (before ++ 34 :: other) = .error failure := by
    have hother := congrArg Scan.tokens (Scan.ofSource_append_quote hbefore other)
    rw [← htokens] at hother
    rcases Block.parse_error_cases hother (parse_eq_error.mp hparse) with h | ⟨hp, hsame⟩
    · exact .inl (Option.some.inj (h.symm.trans hbroken))
    · refine .inr ⟨hp, parse_eq_error.mpr (hsame ?_)⟩
      rw [hbroken]
      exact Option.some_ne_none broken
  by_cases h : failure = broken
  · exact .inl h
  · refine .inr ⟨((hcases []).resolve_left h).1, fun other => ?_⟩
    exact ((hcases other).resolve_left h).2

-- A source that is read to its end is refused for its syntax only. One that breaks off at a quote
-- is always refused: for the quote, or for its syntax before the quote, which is the same whatever
-- comes after the quote.
theorem parse_error_precedence (source : Bytes) :
    let scan := Scan.ofSource source
    (scan.failure = none →
      ∀ failure, parse source = .error failure → failure.problem.phase = .parsing) ∧
    ∀ broken, scan.failure = some broken →
      ∃ before after, source = before ++ 34 :: after ∧ Spells 1 scan.tokens before ∧
        Unclosed after ∧ broken = ⟨.unclosedString, 1 + before.count 10, []⟩ ∧
        ∃ failure, parse source = .error failure ∧
          (failure = broken ∨ failure.problem.phase = .parsing ∧
            ∀ other, parse (before ++ 34 :: other) = .error failure) := by
  refine ⟨fun h failure => phase_of_parse_error h, fun broken hbroken => ?_⟩
  obtain ⟨before, after, rfl, hopen, hbefore, htokens, hquote⟩ := Scan.ofSource_breaks hbroken
  have hspells : Spells 1 (Scan.ofSource before).tokens before :=
    Scan.spells_ofCursor (c := .start before) rfl hbefore
  obtain ⟨failure, hparse⟩ := parse_error_of_failure (Option.ne_none_iff_exists'.mpr ⟨_, hbroken⟩)
  exact ⟨before, after, rfl, htokens ▸ hspells, hopen, hquote, failure, hparse,
    parse_error_of_quote hbefore htokens hbroken hparse⟩

-- An equal sign cannot start a statement, whatever string it stands before.
theorem parse_equal_quote :
    (Scan.ofSource (Bytes.ofString "=\"")).failure = some ⟨.unclosedString, 1, []⟩ ∧
      ∀ other, parse (61 :: 34 :: other) = .error ⟨.unexpectedToken, 1, Bytes.ofString "="⟩ := by
  have hquote {before after : Bytes} (h : Bytes.ofString "=\"" = before ++ 34 :: after) :
      before = [61] := by
    have hbytes : Bytes.ofString "=\"" = [61, 34] := by decide
    rw [hbytes] at h
    match before with
    | [] => cases h
    | [first] => cases h; rfl
    | first :: second :: rest => simp at h
  have hbroken : (Scan.ofSource (Bytes.ofString "=\"")).failure = some ⟨.unclosedString, 1, []⟩ := by
    decide +kernel
  have hcheck : check (Bytes.ofString "=\"") = [⟨.unexpectedToken, 1, Bytes.ofString "="⟩] := by decide +kernel
  refine ⟨hbroken, fun other => ?_⟩
  obtain ⟨before, after, hsource, -, -, -, failure, herror, hcases⟩ :=
    (parse_error_precedence (Bytes.ofString "=\"")).2 _ hbroken
  obtain rfl := hquote hsource
  rw [check, herror] at hcheck
  obtain rfl := List.singleton_inj.mp hcheck
  rcases hcases with hbroken | ⟨-, hall⟩
  · cases hbroken
  · exact hall other

end LineBasic.Program
