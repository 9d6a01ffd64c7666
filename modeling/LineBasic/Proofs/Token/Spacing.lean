import LineBasic.Proofs.Token.Spelling

namespace LineBasic

theorem Bytes.join_cons {pieces : List Bytes} (h : pieces ≠ []) (separator piece : Bytes) :
    join separator (piece :: pieces) = piece ++ separator ++ join separator pieces := by
  cases pieces with
  | nil => exact (h rfl).elim
  | cons next pieces => rfl

namespace Scan

-- Lexing is compositional over lines. If the first of two sources is read to its end, the scan of
-- both with a newline between them lists the tokens of the first one without its end of input, the
-- newline, and what the scan of the second one lists, further down. It fails if that one does.
theorem listed_joined {a : Bytes} (h : (ofSource a).failure = none) (b : Bytes) :
    let lines := 1 + a.count 10
    let joined := ofSource (a ++ 10 :: b)
    (ofSource a).listed = (ofSource a).tokens ++ [⟨⟨[], lines⟩, .endOfInput⟩] ∧
      joined.listed = (ofSource a).tokens ++ lineEnd lines ::
        (ofSource b).listed.map (Token.reline (· + lines)) ∧
      joined.failure = (ofSource b).failure.map fun failure =>
        { failure with line := failure.line + lines } := by
  intro lines joined
  have hjoined : joined = _ := ofSource_append_newline h b
  refine ⟨?_, ?_, ?_⟩
  · rw [listed, h, endToken, line_ofSource]
  · have hlisted := listed_append ((ofSource a).tokens ++ [lineEnd lines])
      ((ofSource b).lowered lines)
    rw [hjoined, ← listed_lowered]
    simpa only [List.append_assoc, List.singleton_append] using hlisted
  · rw [hjoined]
    rfl

-- A number that ends with a point, a comparison and a character that is cut off, before a line that
-- could go on with each of them.
theorem listed_joined_cutLine :
    let a : Bytes := Bytes.ofString "1.<" ++ [0xE2, 0x82]
    let b : Bytes := Bytes.ofString "=2\""
    let joined := ofSource (a ++ 10 :: b)
    (ofSource a).failure = none ∧ joined.failure = some ⟨.unclosedString, 2, []⟩ ∧
      joined.listed.map (·.text) = [Bytes.ofString "1.", Bytes.ofString "<", [0xE2], [0x82],
        Bytes.ofString "\n", Bytes.ofString "=", Bytes.ofString "2"] ∧
      joined.listed.map (·.line) = [1, 1, 1, 1, 1, 2, 2] := by
  intro a b joined
  have hread : (ofSource a).failure = none := by decide +kernel
  obtain ⟨-, hlisted, hfailure⟩ : _ ∧ joined.listed = _ ∧ joined.failure = _ :=
    listed_joined hread b
  refine ⟨hread, ?_, ?_, ?_⟩
  · rw [hfailure]
    decide +kernel
  · rw [hlisted]
    decide +kernel
  · rw [hlisted]
    decide +kernel

-- What follows the first of several texts with single spaces between them starts with a space, if
-- anything follows.
theorem read_join_cons (raw : Bytes) (pieces : List Bytes) :
    ∃ tail, Glyph.read (Bytes.join [32] (raw :: pieces)) = Glyph.read raw ++ tail ∧
      (∀ g ∈ tail.head?, Piece.breaks g) ∧
      tail.dropWhile Piece.isGap = (Glyph.read (Bytes.join [32] pieces)).dropWhile Piece.isGap := by
  by_cases h : pieces = []
  · subst h
    exact ⟨[], (List.append_nil _).symm, by simp, rfl⟩
  · refine ⟨.char ' ' :: Glyph.read (Bytes.join [32] pieces), ?_, ?_, rfl⟩
    · rw [Bytes.join_cons h, List.append_assoc]
      exact Glyph.read_append_space raw _
    · rintro g ⟨⟩
      decide

-- The raw texts of tokens with single spaces between them are read as the same tokens, whatever
-- blanks stand at the end.
theorem ofCursor_spaced {c : Cursor} {text : Bytes} (ht : c.rest = Glyph.read text)
    (h : (ofCursor c).failure = none) {ending : List Bytes}
    (he : (Glyph.read (Bytes.join [32] ending)).dropWhile Piece.isGap = []) :
    ofCursor ⟨Glyph.read (Bytes.join [32] ((ofCursor c).tokens.map Token.raw ++ ending)), c.line⟩ =
      ofCursor c := by
  induction c using reading generalizing text with
  | ended c hgap =>
    rw [ofCursor_ended hgap]
    exact ofCursor_ended he
  | broken c first rest hgap hc =>
    rw [ofCursor_broken hgap hc] at h
    cases h
  | cut c first rest piece hgap hc ih =>
    have hfirst := isGap_of_gap hgap
    obtain ⟨rest', hraw, -⟩ := Piece.raw_eq_cons hc
    obtain ⟨gap, raw, more, -, -, hread, hmore, hspelled⟩ := Piece.text_of_cut (ht ▸ hgap) hc
    rw [ofCursor_cut hgap hc] at h ⊢
    have hrest := ih hmore.symm h
    dsimp only at hrest ⊢
    generalize ofCursor ⟨piece.rest, c.line + Piece.newlines piece.raw⟩ = later at hrest ⊢
    obtain ⟨tail, hjoin, hbreaks, htail⟩ :=
      read_join_cons raw (later.tokens.map Token.raw ++ ending)
    -- the raw text is cut off as before, and the space after it is a gap
    have hfront : (Glyph.read raw ++ tail).dropWhile Piece.isGap = first :: (rest' ++ tail) := by
      rw [hread, hraw, List.cons_append, List.dropWhile_cons_of_neg (by simp [hfirst])]
    have hcut := Piece.cut?_append hbreaks (Piece.cut?_raw hc hraw)
    have hlater : ofCursor ⟨tail, c.line + Piece.newlines piece.raw⟩ = later := by
      rw [← hrest]
      exact ofCursor_congr rfl htail
    rw [List.map_cons, List.cons_append, hspelled, hjoin,
      ofCursor_cut (c := ⟨_, c.line⟩) hfront hcut]
    dsimp only [Piece.extended, List.nil_append]
    rw [hlater]
    rfl

-- Blanks between tokens do not matter. The tokens of a source that is read to its end stand in it
-- in order, and their raw texts with single spaces between them are read as the same tokens on the
-- same lines, both with and without the empty text of the end of input.
theorem ofSource_spaced {source : Bytes} (h : (ofSource source).failure = none) :
    let scan := ofSource source
    Spells 1 scan.tokens source ∧
      ofSource (Bytes.join [32] (scan.listed.map Token.raw)) = scan ∧
      ofSource (Bytes.join [32] (scan.tokens.map Token.raw)) = scan := by
  intro scan
  have hspaced (ending : List Bytes)
      (he : (Glyph.read (Bytes.join [32] ending)).dropWhile Piece.isGap = []) :
      ofSource (Bytes.join [32] (scan.tokens.map Token.raw ++ ending)) = scan :=
    ofCursor_spaced (c := .start source) rfl h he
  refine ⟨spells_ofCursor rfl h, ?_, ?_⟩
  · have hlisted : scan.listed.map Token.raw = scan.tokens.map Token.raw ++ [[]] := by
      rw [listed, h, List.map_append]
      rfl
    rw [hlisted]
    exact hspaced [[]] rfl
  · have hplain := hspaced [] rfl
    rwa [List.append_nil] at hplain

-- A source to try theorems about blanks on: no blank stands between its tokens, and the last two of
-- them are the bytes of a character that is cut off.
def crowdedSource : Bytes :=
  Bytes.ofString "L:_A<=1.2.3\"x\ny\"" ++ [0xE2, 0x82]

theorem ofSource_spaced_crowdedSource :
    let spaced := Bytes.ofString "L: _ A <= 1.2 . 3 \"x\ny\" " ++ [0xE2, 32, 0x82]
    (ofSource crowdedSource).failure = none ∧ ofSource (spaced ++ [32]) = ofSource crowdedSource ∧
      ofSource spaced = ofSource crowdedSource := by
  intro spaced
  have hread : (ofSource crowdedSource).failure = none := by decide +kernel
  obtain ⟨-, hlisted, htokens⟩ := ofSource_spaced hread
  have hspaced : Bytes.join [32] ((ofSource crowdedSource).tokens.map Token.raw) = spaced := by
    decide +kernel
  have hended : Bytes.join [32] ((ofSource crowdedSource).listed.map Token.raw) =
      spaced ++ [32] := by
    decide +kernel
  exact ⟨hread, hended ▸ hlisted, hspaced ▸ htokens⟩

end Scan

end LineBasic
