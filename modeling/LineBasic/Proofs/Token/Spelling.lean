import LineBasic.Proofs.Token.Scan
import Mathlib.Data.List.DropRight

namespace LineBasic

-- How often an element stands right before the end of a list.
def trailing {α : Type} [DecidableEq α] (x : α) (l : List α) : Nat :=
  (l.rtakeWhile (· == x)).length

section Trailing

variable {α : Type} [DecidableEq α]

theorem trailing_le_length (x : α) (l : List α) : trailing x l ≤ l.length := by
  exact (List.rtakeWhile_suffix (· == x) l).length_le

theorem trailing_append_self (x : α) (l : List α) : trailing x (l ++ [x]) = trailing x l + 1 := by
  simp [trailing]

theorem trailing_append_of_ne {x y : α} (h : y ≠ x) (l : List α) : trailing x (l ++ [y]) = 0 := by
  simp [trailing, h]

theorem trailing_cons (x y : α) (l : List α) :
    trailing x (y :: l) =
      if trailing x l = l.length ∧ y = x then trailing x l + 1 else trailing x l := by
  simp only [trailing, List.rtakeWhile, List.length_reverse, List.reverse_cons,
    List.takeWhile_append]
  by_cases hl : (l.reverse.takeWhile (· == x)).length = l.length
  · by_cases hy : y = x
    · simp [hl, hy]
    · simp [hl, hy]
  · simp [hl]

theorem trailing_cons_of_ne {x y : α} (h : y ≠ x) (l : List α) :
    trailing x (y :: l) = trailing x l := by
  simp [trailing_cons, h]

theorem trailing_cons_cons_of_ne {x z : α} (h : z ≠ x) (y : α) (l : List α) :
    trailing x (y :: z :: l) = trailing x l := by
  have hle := trailing_le_length x l
  rw [trailing_cons, trailing_cons_of_ne h, List.length_cons, if_neg (by omega)]

-- Two more at the front count both or not at all.
theorem trailing_cons_cons_self (x : α) (l : List α) :
    trailing x (x :: x :: l) % 2 = trailing x l % 2 := by
  have hle := trailing_le_length x l
  by_cases hall : trailing x l = l.length
  · have hone : trailing x (x :: l) = l.length + 1 := by simp [trailing_cons, hall]
    rw [trailing_cons, hone, List.length_cons, if_pos ⟨rfl, rfl⟩]
    omega
  · have hone : trailing x (x :: l) = trailing x l := by simp [trailing_cons, hall]
    rw [trailing_cons, hone, List.length_cons, if_neg (by omega)]

end Trailing

namespace Piece

-- In a text that closes no string every quote is protected: the backslashes before it come in pairs
-- but for the last one.
theorem odd_trailing_of_splitQuote {text body rest : List Glyph} (h : splitQuote text = none)
    (he : text = body ++ .char '"' :: rest) : trailing (.char '\\') body % 2 = 1 := by
  fun_induction splitQuote text generalizing body with
  | case1 => simp at he
  | case2 text ih =>
    cases body with
    | nil => cases he
    | cons g body =>
      obtain ⟨rfl, htail⟩ := List.cons.inj he
      cases body with
      | nil => rfl
      | cons g' body =>
        obtain ⟨rfl, ht⟩ := List.cons.inj htail
        rw [trailing_cons_cons_of_ne (by decide)]
        exact ih (Option.map_eq_none_iff.mp h) ht
  | case3 text ih =>
    cases body with
    | nil => cases he
    | cons g body =>
      obtain ⟨rfl, htail⟩ := List.cons.inj he
      cases body with
      | nil => cases htail
      | cons g' body =>
        obtain ⟨rfl, ht⟩ := List.cons.inj htail
        rw [trailing_cons_cons_self]
        exact ih (Option.map_eq_none_iff.mp h) ht
  | case4 => cases h
  | case5 g text hquote hback hclose ih =>
    cases body with
    | nil =>
      cases he
      exact (hclose rfl).elim
    | cons g' body =>
      obtain ⟨rfl, rfl⟩ := List.cons.inj he
      have hinner := ih (Option.map_eq_none_iff.mp h) rfl
      by_cases hg : g = .char '\\'
      · -- a backslash that protects nothing is followed by neither a backslash nor a quote
        subst hg
        cases body with
        | nil => exact (hquote rest rfl rfl).elim
        | cons next body =>
          have hnext : next ≠ .char '\\' := by
            rintro rfl
            exact hback _ rfl rfl
          rw [trailing_cons_cons_of_ne hnext]
          rwa [trailing_cons_of_ne hnext] at hinner
      · rwa [trailing_cons_of_ne hg]

end Piece

-- Reading keeps the backslashes at the end of a text.
theorem Glyph.trailing_read (text : Bytes) :
    trailing (.char '\\') (read text) = trailing 92 text := by
  induction text using List.reverseRecOn with
  | nil => rfl
  | append_singleton text b ih =>
    by_cases hb : b = 92
    · rw [hb, read_append_backslash, trailing_append_self, ← ih]
      exact trailing_append_self _ _
    · rw [trailing_append_of_ne hb]
      cases hlast : read (text ++ [b]) using List.reverseRecOn with
      | nil => rfl
      | append_singleton glyphs g =>
        refine trailing_append_of_ne ?_ glyphs
        rintro rfl
        -- a backslash at the end of the glyphs would be the last byte
        obtain ⟨before, after, he, -, ha⟩ := read_eq_append hlast
        have hafter : after = [92] := by
          rw [← write_read after, ha]
          rfl
        rw [hafter] at he
        exact hb (List.singleton_inj.mp (List.append_inj' he rfl).2)

-- No quote in a text closes a string that it is a part of: each one is protected by a backslash that
-- no other backslash protects.
def Unclosed (text : Bytes) : Prop :=
  ∀ body rest, text = body ++ 34 :: rest → trailing 92 body % 2 = 1

theorem unclosed_of_splitQuote {text : Bytes} (h : Piece.splitQuote (Glyph.read text) = none) :
    Unclosed text := by
  rintro body rest rfl
  rw [← Glyph.trailing_read]
  exact Piece.odd_trailing_of_splitQuote h (Glyph.read_append_quote body rest)

-- A gap between tokens: any blanks but newlines.
def Gap (text : Bytes) : Prop :=
  ∃ blanks : List Char, text = blanks.flatMap String.utf8EncodeChar ∧
    ∀ c ∈ blanks, Text.isBlank c ∧ c ≠ '\n'

theorem Gap.count_newline {gap : Bytes} (h : Gap gap) : gap.count 10 = 0 := by
  obtain ⟨blanks, rfl, hblanks⟩ := h
  refine List.count_eq_zero.mpr fun hmem => ?_
  obtain ⟨c, hc, hb⟩ := List.mem_flatMap.mp hmem
  exact (hblanks c hc).2 (Glyph.newline_mem_encode.mp hb)

theorem gap_write {glyphs : List Glyph} (h : ∀ g ∈ glyphs, Piece.isGap g) :
    Gap (Glyph.write glyphs) := by
  obtain ⟨blanks, hwrite, hblanks⟩ := Glyph.write_of_test h
  exact ⟨blanks, hwrite, fun c hc => by simpa using hblanks c hc⟩

namespace Piece

variable {text : Bytes} {first : Glyph} {rest : List Glyph}

theorem gap_of_read {gap : Bytes} (h : Glyph.read gap = (Glyph.read text).takeWhile isGap) :
    Gap gap := by
  rw [← Glyph.write_read gap, h]
  exact gap_write (List.all_eq_true.mp List.all_takeWhile)

-- Where a piece is cut off, the bytes are divided as the glyphs are: into the gap, the raw text of
-- the token and what is left.
theorem text_of_cut {piece : Piece} (hgap : (Glyph.read text).dropWhile isGap = first :: rest)
    (hc : cut? first rest = some piece) :
    ∃ gap raw more, text = gap ++ raw ++ more ∧ Gap gap ∧ Glyph.read raw = piece.raw ∧
      Glyph.read more = piece.rest ∧ ∀ line, (piece.token line).raw = raw := by
  have hcut := cutFrom_of_cut? hc
  have hsplit := List.takeWhile_append_dropWhile (p := isGap) (l := Glyph.read text)
  rw [hgap, ← hcut.text] at hsplit
  obtain ⟨gap, after, rfl, hg, hafter⟩ := Glyph.read_eq_append hsplit.symm
  obtain ⟨raw, more, rfl, hraw, hmore⟩ := Glyph.read_eq_append hafter
  refine ⟨gap, raw, more, (List.append_assoc _ _ _).symm, gap_of_read hg, hraw, hmore,
    fun line => ?_⟩
  rw [hcut.raw_token, ← hraw, Glyph.write_read]

-- Where no piece can be cut off, the bytes after the gap are a quote and a text that closes no
-- string.
theorem text_of_broken (hgap : (Glyph.read text).dropWhile isGap = first :: rest)
    (hc : cut? first rest = none) :
    ∃ gap body, text = gap ++ 34 :: body ∧ Gap gap ∧ Glyph.read body = rest ∧ Unclosed body := by
  obtain ⟨rfl, hnone⟩ := cut?_eq_none_iff.mp hc
  have hsplit := List.takeWhile_append_dropWhile (p := isGap) (l := Glyph.read text)
  rw [hgap] at hsplit
  obtain ⟨gap, body, rfl, hg, rfl⟩ := Glyph.read_eq_append_quote hsplit.symm
  exact ⟨gap, body, rfl, gap_of_read hg, rfl, unclosed_of_splitQuote hnone⟩

end Piece

-- The tokens that a text spells from a line on: their raw texts stand in it in this order, each on
-- its line, with gaps before, between and after them.
inductive Spells : Nat → List Token → Bytes → Prop where
  | nil {line : Nat} {gap : Bytes} (hg : Gap gap) : Spells line [] gap
  | cons {token : Token} {tokens : List Token} {gap rest : Bytes} (hg : Gap gap)
      (hraw : token.raw ≠ []) (h : Spells (token.line + token.raw.count 10) tokens rest) :
      Spells token.line (token :: tokens) (gap ++ token.raw ++ rest)

namespace Scan

theorem spells_ofCursor {c : Cursor} {text : Bytes} (ht : c.rest = Glyph.read text)
    (h : (ofCursor c).failure = none) : Spells c.line (ofCursor c).tokens text := by
  induction c using reading generalizing text with
  | ended c hgap =>
    rw [ofCursor_ended hgap, ← Glyph.write_read text, ← ht]
    exact .nil (gap_write (List.dropWhile_eq_nil_iff.mp hgap))
  | broken c first rest hgap hc =>
    rw [ofCursor_broken hgap hc] at h
    cases h
  | cut c first rest piece hgap hc ih =>
    rw [ofCursor_cut hgap hc] at h ⊢
    rw [ht] at hgap
    obtain ⟨gap, raw, more, rfl, hg, hraw, hmore, hspelled⟩ := Piece.text_of_cut hgap hc
    have hlines : Piece.newlines piece.raw = raw.count 10 := by rw [← hraw, newlines_read]
    have hne : (piece.token c.line).raw ≠ [] := by
      intro hnil
      rw [hspelled] at hnil
      rw [hnil] at hraw
      exact (Piece.cutFrom_of_cut? hc).raw_ne_nil hraw.symm
    have hrest : Spells (c.line + (piece.token c.line).raw.count 10)
        (ofCursor ⟨piece.rest, c.line + Piece.newlines piece.raw⟩).tokens more := by
      rw [hspelled, ← hlines]
      exact ih hmore.symm h
    have hall := Spells.cons hg hne hrest
    rwa [hspelled] at hall

-- Where reading fails a quote stands that is never closed, and the text before it is read to its
-- end.
theorem ofCursor_breaks {c : Cursor} {failure : Failure} (h : (ofCursor c).failure = some failure) :
    ∃ before after, c.rest = before ++ .char '"' :: after ∧ Piece.splitQuote after = none ∧
      (ofCursor ⟨before, c.line⟩).failure = none := by
  induction c using reading with
  | ended c hgap =>
    rw [ofCursor_ended hgap] at h
    cases h
  | broken c first rest hgap hc =>
    obtain ⟨rfl, hnone⟩ := Piece.cut?_eq_none_iff.mp hc
    refine ⟨c.rest.takeWhile Piece.isGap, rest, ?_, hnone, ?_⟩
    · rw [← hgap, List.takeWhile_append_dropWhile]
    · have hall : (c.rest.takeWhile Piece.isGap).dropWhile Piece.isGap = [] :=
        List.dropWhile_eq_nil_iff.mpr (List.all_eq_true.mp List.all_takeWhile)
      rw [ofCursor_ended (c := ⟨_, c.line⟩) hall]
  | cut c first rest piece hgap hc ih =>
    rw [ofCursor_cut hgap hc] at h
    obtain ⟨before, after, hrest, hnone, hread⟩ := ih h
    obtain ⟨raw, -, htail⟩ := Piece.raw_eq_cons hc
    have hsplit : rest = raw ++ before ++ .char '"' :: after := by
      dsimp only at hrest
      rw [htail, hrest, List.append_assoc]
    have hfirst := isGap_of_gap hgap
    have hquote : ∀ g ∈ (Glyph.char '"' :: after).head?, Piece.breaks g := by
      rintro g ⟨⟩
      decide
    have hshort : Piece.cut? first (raw ++ before) = some { piece with rest := before } :=
      Piece.cut?_of_append hquote (by rw [← hsplit]; exact hc) hrest
    refine ⟨c.rest.takeWhile Piece.isGap ++ first :: (raw ++ before), after, ?_, hnone, ?_⟩
    · rw [List.append_assoc, List.cons_append, ← hsplit, ← hgap, List.takeWhile_append_dropWhile]
    · have hfront : (c.rest.takeWhile Piece.isGap ++ first :: (raw ++ before)).dropWhile
          Piece.isGap = first :: (raw ++ before) := by
        rw [List.dropWhile_append_of_pos (List.all_eq_true.mp List.all_takeWhile),
          List.dropWhile_cons_of_neg (by simp [hfirst])]
      rw [ofCursor_cut (c := ⟨_, c.line⟩) hfront hshort]
      exact hread

-- A quote ends what is read before it and starts what is read after it.
theorem ofSource_append_quote {before : Bytes} (h : (ofSource before).failure = none)
    (after : Bytes) :
    ofSource (before ++ 34 :: after) =
      let rest := ofCursor ⟨.char '"' :: Glyph.read after, 1 + before.count 10⟩
      { rest with tokens := (ofSource before).tokens ++ rest.tokens } := by
  have happend := ofCursor_append (c := .start before) h (g := .char '"') (by decide) (by decide)
    (Glyph.read after)
  rw [← ofSource_eq, line_ofSource] at happend
  rw [ofSource_eq (before ++ 34 :: after), Cursor.start, Glyph.read_append_quote]
  exact happend

-- A source that breaks off does so at a quote that is never closed. Its tokens are those of the text
-- before the quote, which is read to its end.
theorem ofSource_breaks {source : Bytes} {failure : Failure}
    (h : (ofSource source).failure = some failure) :
    ∃ before after, source = before ++ 34 :: after ∧ Unclosed after ∧
      (ofSource before).failure = none ∧ (ofSource source).tokens = (ofSource before).tokens ∧
      failure = ⟨.unclosedString, 1 + before.count 10, []⟩ := by
  obtain ⟨left, right, hread, hnone, hbefore⟩ := ofCursor_breaks h
  obtain ⟨before, after, rfl, rfl, rfl⟩ := Glyph.read_eq_append_quote hread
  have hbroken := ofCursor_broken (c := ⟨.char '"' :: Glyph.read after, 1 + before.count 10⟩)
    rfl (Piece.cut?_eq_none_iff.mpr ⟨rfl, hnone⟩)
  have hsource := ofSource_append_quote hbefore after
  rw [hbroken] at hsource
  refine ⟨before, after, rfl, unclosed_of_splitQuote hnone, hbefore, ?_, ?_⟩
  · exact (congrArg Scan.tokens hsource).trans (List.append_nil _)
  · have hfailure := h.symm.trans (congrArg Scan.failure hsource)
    exact Option.some.inj hfailure

-- Nothing of a source is lost and nothing is invented. A source that is read to its end spells its
-- tokens before the end of input. One that breaks off spells them up to a quote that is never
-- closed.
theorem source_spelled (source : Bytes) :
    let scan := ofSource source
    (scan.failure = none ∧ Spells 1 scan.tokens source ∧
      scan.listed = scan.tokens ++ [⟨⟨[], 1 + source.count 10⟩, .endOfInput⟩]) ∨
    ∃ before after, source = before ++ 34 :: after ∧ Spells 1 scan.listed before ∧
      Unclosed after ∧ scan.failure = some ⟨.unclosedString, 1 + before.count 10, []⟩ := by
  intro scan
  cases hf : scan.failure with
  | none =>
    refine .inl ⟨rfl, spells_ofCursor rfl hf, ?_⟩
    rw [listed, hf]
    simp [endToken, scan, line_ofSource]
  | some failure =>
    obtain ⟨before, after, hsource, hu, hbefore, htokens, rfl⟩ := ofSource_breaks hf
    refine .inr ⟨before, after, hsource, ?_, hu, rfl⟩
    rw [listed, hf]
    exact htokens ▸ spells_ofCursor rfl hbefore

end Scan

end LineBasic
