import LineBasic.Proofs.Text.Glyph
import LineBasic.Proofs.Token.Piece

namespace LineBasic

def Word.reline (f : Nat → Nat) (w : Word) : Word :=
  { w with line := f w.line }

def Token.reline (f : Nat → Nat) (t : Token) : Token :=
  { t with toWord := t.toWord.reline f }

namespace Scan

def ofCursor (c : Cursor) : Scan :=
  collect (c.rest.length + 1) c

theorem ofSource_eq (source : Bytes) : ofSource source = ofCursor (.start source) :=
  rfl

variable {c : Cursor} {first : Glyph} {rest : List Glyph}

theorem length_le_of_gap (h : c.rest.dropWhile Piece.isGap = first :: rest) :
    rest.length < c.rest.length := by
  have hle := (List.dropWhile_suffix Piece.isGap (l := c.rest)).length_le
  rw [h, List.length_cons] at hle
  exact hle

theorem isGap_of_gap (h : c.rest.dropWhile Piece.isGap = first :: rest) :
    Piece.isGap first = false := by
  have hhead := List.head?_dropWhile_not Piece.isGap c.rest
  rw [h] at hhead
  exact hhead

theorem length_rest_lt {piece : Piece} (h : c.rest.dropWhile Piece.isGap = first :: rest)
    (hc : Piece.cut? first rest = some piece) : piece.rest.length < c.rest.length := by
  have hcut := Piece.cutFrom_of_cut? hc
  have hlength := congrArg List.length hcut.text
  have hpos := List.length_pos_iff.mpr hcut.raw_ne_nil
  have hgap := length_le_of_gap h
  rw [List.length_append, List.length_cons] at hlength
  omega

theorem collect_ended (h : c.rest.dropWhile Piece.isGap = []) (fuel : Nat) :
    collect (fuel + 1) c = ⟨[], c.line, none⟩ := by
  simp [collect, Cursor.next, h]

theorem collect_broken (h : c.rest.dropWhile Piece.isGap = first :: rest)
    (hc : Piece.cut? first rest = none) (fuel : Nat) :
    collect (fuel + 1) c = ⟨[], c.line + Piece.newlines (first :: rest),
      some ⟨.unclosedString, c.line, []⟩⟩ := by
  simp [collect, Cursor.next, h, hc]

theorem collect_cut {piece : Piece} (h : c.rest.dropWhile Piece.isGap = first :: rest)
    (hc : Piece.cut? first rest = some piece) (fuel : Nat) :
    collect (fuel + 1) c =
      let scan := collect fuel ⟨piece.rest, c.line + Piece.newlines piece.raw⟩
      { scan with tokens := piece.token c.line :: scan.tokens } := by
  have hkind : (piece.token c.line).kind ≠ .endOfInput := (Piece.cutFrom_of_cut? hc).kind_ne
  simp only [collect, Cursor.next, h, hc, if_neg hkind]

-- Every token takes a glyph, so the place after it has fewer of them. A source is read to its end,
-- to a quote that is never closed, or from one token to the next.
theorem reading {motive : Cursor → Prop}
    (ended : ∀ c : Cursor, c.rest.dropWhile Piece.isGap = [] → motive c)
    (broken : ∀ (c : Cursor) first rest, c.rest.dropWhile Piece.isGap = first :: rest →
      Piece.cut? first rest = none → motive c)
    (cut : ∀ (c : Cursor) first rest piece, c.rest.dropWhile Piece.isGap = first :: rest →
      Piece.cut? first rest = some piece →
        motive ⟨piece.rest, c.line + Piece.newlines piece.raw⟩ → motive c)
    (c : Cursor) : motive c := by
  induction hn : c.rest.length using Nat.strongRecOn generalizing c with
  | ind n ih =>
    cases h : c.rest.dropWhile Piece.isGap with
    | nil => exact ended c h
    | cons first rest =>
      cases hc : Piece.cut? first rest with
      | none => exact broken c first rest h hc
      | some piece =>
        refine cut c first rest piece h hc (ih _ ?_ _ rfl)
        rw [← hn]
        exact length_rest_lt h hc

theorem collect_eq {fuel : Nat} (h : c.rest.length < fuel) : collect fuel c = ofCursor c := by
  unfold ofCursor
  induction c using reading generalizing fuel with
  | ended c hgap =>
    obtain ⟨fuel, rfl⟩ := Nat.exists_eq_succ_of_ne_zero (Nat.ne_zero_of_lt h)
    rw [collect_ended hgap, collect_ended hgap]
  | broken c first rest hgap hc =>
    obtain ⟨fuel, rfl⟩ := Nat.exists_eq_succ_of_ne_zero (Nat.ne_zero_of_lt h)
    rw [collect_broken hgap hc, collect_broken hgap hc]
  | cut c first rest piece hgap hc ih =>
    obtain ⟨fuel, rfl⟩ := Nat.exists_eq_succ_of_ne_zero (Nat.ne_zero_of_lt h)
    have hlt := length_rest_lt hgap hc
    rw [collect_cut hgap hc, collect_cut hgap hc, ih (Nat.lt_of_lt_of_le hlt (Nat.le_of_lt_succ h)),
      ih hlt]

theorem ofCursor_ended (h : c.rest.dropWhile Piece.isGap = []) :
    ofCursor c = ⟨[], c.line, none⟩ :=
  collect_ended h _

theorem ofCursor_broken (h : c.rest.dropWhile Piece.isGap = first :: rest)
    (hc : Piece.cut? first rest = none) :
    ofCursor c = ⟨[], c.line + Piece.newlines (first :: rest),
      some ⟨.unclosedString, c.line, []⟩⟩ :=
  collect_broken h hc _

theorem ofCursor_cut {piece : Piece} (h : c.rest.dropWhile Piece.isGap = first :: rest)
    (hc : Piece.cut? first rest = some piece) :
    ofCursor c =
      let scan := ofCursor ⟨piece.rest, c.line + Piece.newlines piece.raw⟩
      { scan with tokens := piece.token c.line :: scan.tokens } := by
  have hlt := length_rest_lt h hc
  unfold ofCursor
  rw [collect_cut h hc, collect_eq hlt]
  rfl

-- A gap leaves no trace.
theorem ofCursor_congr {c d : Cursor} (hline : c.line = d.line)
    (h : c.rest.dropWhile Piece.isGap = d.rest.dropWhile Piece.isGap) :
    ofCursor c = ofCursor d := by
  cases hgap : d.rest.dropWhile Piece.isGap with
  | nil => rw [ofCursor_ended (h.trans hgap), ofCursor_ended hgap, hline]
  | cons first rest =>
    cases hc : Piece.cut? first rest with
    | none => rw [ofCursor_broken (h.trans hgap) hc, ofCursor_broken hgap hc, hline]
    | some piece => rw [ofCursor_cut (h.trans hgap) hc, ofCursor_cut hgap hc, hline]

theorem newlines_read (text : Bytes) : Piece.newlines (Glyph.read text) = text.count 10 :=
  Glyph.count_newline_read text

theorem newlines_of_gap (glyphs : List Glyph) :
    Piece.newlines (glyphs.dropWhile Piece.isGap) = Piece.newlines glyphs := by
  have hsplit := List.takeWhile_append_dropWhile (p := Piece.isGap) (l := glyphs)
  have hgap : Piece.newlines (glyphs.takeWhile Piece.isGap) = 0 := by
    refine List.count_eq_zero.mpr fun hmem => ?_
    have := List.all_eq_true.mp (List.all_takeWhile (p := Piece.isGap) (l := glyphs)) _ hmem
    revert this
    decide
  have hcount : Piece.newlines glyphs = Piece.newlines (glyphs.takeWhile Piece.isGap) +
      Piece.newlines (glyphs.dropWhile Piece.isGap) := by
    refine Eq.trans ?_ List.count_append
    rw [hsplit]
    rfl
  omega

-- Reading stops as many lines further down as there are newlines.
theorem line_ofCursor (c : Cursor) : (ofCursor c).line = c.line + Piece.newlines c.rest := by
  induction c using reading with
  | ended c hgap =>
    rw [ofCursor_ended hgap, ← newlines_of_gap, hgap]
    rfl
  | broken c first rest hgap hc => rw [ofCursor_broken hgap hc, ← newlines_of_gap c.rest, hgap]
  | cut c first rest piece hgap hc ih =>
    have hcount : Piece.newlines (first :: rest) =
        Piece.newlines piece.raw + Piece.newlines piece.rest := by
      rw [← (Piece.cutFrom_of_cut? hc).text]
      exact List.count_append
    rw [ofCursor_cut hgap hc, ← newlines_of_gap c.rest, hgap, hcount, ← Nat.add_assoc]
    exact ih

-- Tokens follow each other down the lines, from the one that reading starts on to the one that it
-- stops on.
theorem lines_tokens (c : Cursor) :
    (ofCursor c).tokens.Pairwise (fun t u => t.line ≤ u.line) ∧
      ∀ t ∈ (ofCursor c).tokens, c.line ≤ t.line ∧ t.line ≤ (ofCursor c).line := by
  induction c using reading with
  | ended c hgap =>
    rw [ofCursor_ended hgap]
    exact ⟨.nil, by simp⟩
  | broken c first rest hgap hc =>
    rw [ofCursor_broken hgap hc]
    exact ⟨.nil, by simp⟩
  | cut c first rest piece hgap hc ih =>
    have hend := line_ofCursor ⟨piece.rest, c.line + Piece.newlines piece.raw⟩
    have hfirst : (piece.token c.line).line = c.line := rfl
    rw [ofCursor_cut hgap hc]
    dsimp only at ih hend ⊢
    obtain ⟨hsorted, hrange⟩ := ih
    refine ⟨List.pairwise_cons.mpr ⟨fun t ht => ?_, hsorted⟩, fun t ht => ?_⟩
    · have := (hrange t ht).1
      omega
    · obtain rfl | ht := List.mem_cons.mp ht
      · omega
      · have := hrange t ht
        omega

theorem newline_not_mem_name {c : Cursor} {t : Token} (h : t ∈ (ofCursor c).tokens)
    (hk : t.kind = .variable ∨ ∃ command, t.kind = .command command) : (10 : UInt8) ∉ t.text := by
  induction c using reading with
  | ended c hgap =>
    rw [ofCursor_ended hgap] at h
    cases h
  | broken c first rest hgap hc =>
    rw [ofCursor_broken hgap hc] at h
    cases h
  | cut c first rest piece hgap hc ih =>
    rw [ofCursor_cut hgap hc] at h
    rcases List.mem_cons.mp h with rfl | h
    · have hparts := (Piece.cutFrom_of_cut? hc).name hk
      intro hmem
      obtain ⟨g, hg, hb⟩ := List.mem_flatMap.mp hmem
      exact Piece.newline_not_mem_bytes (hparts g hg) hb
    · exact ih h

def lowered (k : Nat) (s : Scan) : Scan :=
  ⟨s.tokens.map (Token.reline (· + k)), s.line + k,
    s.failure.map fun failure => { failure with line := failure.line + k }⟩

-- A source is read in the same way wherever it starts.
theorem ofCursor_lowered (k : Nat) (c : Cursor) :
    ofCursor ⟨c.rest, c.line + k⟩ = (ofCursor c).lowered k := by
  induction c using reading with
  | ended c hgap =>
    rw [ofCursor_ended hgap, ofCursor_ended (c := ⟨c.rest, c.line + k⟩) hgap]
    rfl
  | broken c first rest hgap hc =>
    rw [ofCursor_broken hgap hc, ofCursor_broken (c := ⟨c.rest, c.line + k⟩) hgap hc]
    simp only [lowered, Option.map_some, List.map_nil, Nat.add_right_comm, Int.natCast_add]
  | cut c first rest piece hgap hc ih =>
    rw [ofCursor_cut hgap hc, ofCursor_cut (c := ⟨c.rest, c.line + k⟩) hgap hc]
    dsimp only at ih ⊢
    rw [Nat.add_right_comm, ih]
    rfl

-- What comes after a text that is read to its end is read for itself, if it starts with a glyph
-- that neither a gap nor the last token can take in.
theorem ofCursor_append {c : Cursor} (h : (ofCursor c).failure = none) {g : Glyph}
    (hg : Piece.breaks g) (hgap : Piece.isGap g = false) (more : List Glyph) :
    ofCursor ⟨c.rest ++ g :: more, c.line⟩ =
      let after := ofCursor ⟨g :: more, (ofCursor c).line⟩
      { after with tokens := (ofCursor c).tokens ++ after.tokens } := by
  have hhead {p : Glyph → Bool} {b : Bool} (hp : p g = b) :
      ∀ g' ∈ (g :: more).head?, p g' = b := by
    rintro g' ⟨⟩
    exact hp
  have hdrop (rest : List Glyph) : (rest ++ g :: more).dropWhile Piece.isGap =
      rest.dropWhile Piece.isGap ++ g :: more :=
    Piece.dropWhile_append (hhead hgap) rest
  induction c using reading with
  | ended c hend =>
    have hsame : ofCursor ⟨c.rest ++ g :: more, c.line⟩ = ofCursor ⟨g :: more, c.line⟩ := by
      refine ofCursor_congr rfl ((hdrop c.rest).trans ?_)
      simp [hend, hgap]
    rw [hsame, ofCursor_ended hend]
    rfl
  | broken c first rest hfirst hc =>
    rw [ofCursor_broken hfirst hc] at h
    cases h
  | cut c first rest piece hfirst hc ih =>
    have hfront := hdrop c.rest
    rw [hfirst, List.cons_append] at hfront
    rw [ofCursor_cut hfirst hc] at h
    rw [ofCursor_cut hfirst hc,
      ofCursor_cut (c := ⟨_, c.line⟩) hfront (Piece.cut?_append (hhead hg) hc)]
    have hrest := ih h
    dsimp only [Piece.extended] at hrest ⊢
    rw [hrest]
    rfl

def lineEnd (line : Nat) : Token :=
  ⟨⟨[10], line⟩, .endOfLine⟩

-- What comes after a newline is read for itself, and the text before it as if it ended there.
theorem ofCursor_append_newline {c : Cursor} (h : (ofCursor c).failure = none)
    (more : List Glyph) :
    ofCursor ⟨c.rest ++ .char '\n' :: more, c.line⟩ =
      let after := ofCursor ⟨more, (ofCursor c).line + 1⟩
      { after with
        tokens := (ofCursor c).tokens ++ lineEnd (ofCursor c).line :: after.tokens } := by
  rw [ofCursor_append h Piece.breaks_newline (by decide) more,
    ofCursor_cut (c := ⟨.char '\n' :: more, _⟩) rfl rfl]
  rfl

theorem line_ofSource (source : Bytes) : (ofSource source).line = 1 + source.count 10 := by
  rw [ofSource_eq, line_ofCursor, Cursor.start, newlines_read]

-- The tokens of two sources with a newline between them are those of the first one, the newline,
-- and those of the second one further down, which decides whether reading fails.
theorem ofSource_append_newline {a : Bytes} (h : (ofSource a).failure = none) (b : Bytes) :
    ofSource (a ++ 10 :: b) =
      let after := (ofSource b).lowered (1 + a.count 10)
      { after with tokens := (ofSource a).tokens ++ lineEnd (1 + a.count 10) :: after.tokens } := by
  have happend := ofCursor_append_newline (c := .start a) h (Glyph.read b)
  have hlowered := ofCursor_lowered (1 + a.count 10) (.start b)
  rw [← ofSource_eq, line_ofSource] at happend
  rw [ofSource_eq (a ++ 10 :: b), Cursor.start, Glyph.read_append_newline]
  refine happend.trans ?_
  rw [Nat.add_comm (1 + a.count 10) 1]
  exact congrArg (fun after : Scan =>
    { after with tokens := (ofSource a).tokens ++ lineEnd (1 + a.count 10) :: after.tokens })
    hlowered

theorem listed_append (tokens : List Token) (s : Scan) :
    listed { s with tokens := tokens ++ s.tokens } = tokens ++ s.listed := by
  unfold listed
  cases s.failure with
  | none => exact List.append_assoc _ _ _
  | some failure => rfl

theorem listed_cut {piece : Piece} (h : c.rest.dropWhile Piece.isGap = first :: rest)
    (hc : Piece.cut? first rest = some piece) :
    (ofCursor c).listed = piece.token c.line ::
      (ofCursor ⟨piece.rest, c.line + Piece.newlines piece.raw⟩).listed := by
  rw [ofCursor_cut h hc]
  exact listed_append [piece.token c.line] _

theorem listed_lowered (k : Nat) (s : Scan) :
    (s.lowered k).listed = s.listed.map (Token.reline (· + k)) := by
  unfold listed lowered
  cases s.failure with
  | none =>
    rw [List.map_append]
    rfl
  | some failure => rfl

end Scan

end LineBasic
