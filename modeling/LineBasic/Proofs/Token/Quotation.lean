import LineBasic.Proofs.Text.Repair
import LineBasic.Proofs.Token.Scan

namespace LineBasic

namespace Bytes

-- A text as it is written between quotes: a backslash stands before every quote and backslash.
def escaped (text : Bytes) : Bytes :=
  text.flatMap fun b => if b = 34 ∨ b = 92 then [92, b] else [b]

def quoted (text : Bytes) : Bytes :=
  34 :: escaped text ++ [34]

theorem escaped_append (left right : Bytes) :
    escaped (left ++ right) = escaped left ++ escaped right :=
  List.flatMap_append

theorem escaped_of_plain {text : Bytes} (h : ∀ b ∈ text, b ≠ 34 ∧ b ≠ 92) :
    escaped text = text := by
  induction text with
  | nil => rfl
  | cons b text ih =>
    have hb := h b List.mem_cons_self
    have htext := ih fun b hb => h b (List.mem_cons_of_mem _ hb)
    rw [escaped, List.flatMap_cons, if_neg (by simp [hb]), ← escaped, htext]
    rfl

theorem count_newline_escaped (text : Bytes) : text.escaped.count 10 = text.count 10 := by
  induction text with
  | nil => rfl
  | cons b text ih =>
    rw [escaped, List.flatMap_cons, ← escaped, List.count_append, ih, List.count_cons]
    by_cases hb : b = 34 ∨ b = 92
    · rw [if_pos hb]
      rcases hb with rfl | rfl
      · simp
      · simp
    · rw [if_neg hb, List.count_singleton, Nat.add_comm]

theorem count_newline_quoted (text : Bytes) : text.quoted.count 10 = text.count 10 := by
  simp [quoted, count_newline_escaped]

-- What stands at the front of an escaped text without quotes and backslashes stands there before.
theorem prefix_of_prefix_escaped {front text : Bytes} (h : ∀ b ∈ front, b ≠ 34 ∧ b ≠ 92)
    (hp : front <+: escaped text) : front <+: text := by
  induction front generalizing text with
  | nil => exact List.nil_prefix
  | cons b front ih =>
    cases text with
    | nil => exact hp
    | cons d text =>
      have hb := h b List.mem_cons_self
      rw [escaped, List.flatMap_cons, ← escaped] at hp
      by_cases hd : d = 34 ∨ d = 92
      · rw [if_pos hd] at hp
        exact (hb.2 (List.cons_prefix_cons.mp hp).1).elim
      · rw [if_neg hd] at hp
        obtain ⟨rfl, hfront⟩ := List.cons_prefix_cons.mp hp
        have hrest := ih (fun b hb => h b (List.mem_cons_of_mem _ hb)) hfront
        exact List.cons_prefix_cons.mpr ⟨rfl, hrest⟩

end Bytes

namespace Piece

def isEscaped (g : Glyph) : Bool :=
  g == .char '"' || g == .char '\\'

def escape (glyphs : List Glyph) : List Glyph :=
  glyphs.flatMap fun g => if isEscaped g then [.char '\\', g] else [g]

theorem escape_cons (g : Glyph) (glyphs : List Glyph) :
    escape (g :: glyphs) = (if isEscaped g then [.char '\\', g] else [g]) ++ escape glyphs :=
  List.flatMap_cons

theorem splitQuote_escape (glyphs rest : List Glyph) :
    splitQuote (escape glyphs ++ .char '"' :: rest) = some (escape glyphs, rest) := by
  induction glyphs with
  | nil => simp [escape, splitQuote]
  | cons g glyphs ih =>
    rw [escape_cons]
    by_cases hquote : g = .char '"'
    · subst hquote
      simp [isEscaped, splitQuote, ih]
    by_cases hback : g = .char '\\'
    · subst hback
      simp [isEscaped, splitQuote, ih]
    have hplain : isEscaped g = false := by simp [isEscaped, hquote, hback]
    simp [hplain, splitQuote, ih, hback]

theorem unescape_escape (glyphs : List Glyph) : unescape (escape glyphs) = glyphs := by
  induction glyphs with
  | nil => rfl
  | cons g glyphs ih =>
    rw [escape_cons]
    by_cases hquote : g = .char '"'
    · subst hquote
      simp [isEscaped, unescape, ih]
    by_cases hback : g = .char '\\'
    · subst hback
      simp [isEscaped, unescape, ih]
    have hplain : isEscaped g = false := by simp [isEscaped, hquote, hback]
    simp [hplain, unescape, ih, hback]

end Piece

namespace Glyph

theorem encode_plain {c : Char} (h : Piece.isEscaped (.char c) = false) :
    ∀ b ∈ String.utf8EncodeChar c, b ≠ 34 ∧ b ≠ 92 := by
  intro b hb
  constructor
  · rintro rfl
    have hc : c = '"' := encode_injective (encode_eq_of_mem hb (by decide))
    rw [hc] at h
    cases h
  · rintro rfl
    have hc : c = '\\' := encode_injective (encode_eq_of_mem hb (by decide))
    rw [hc] at h
    cases h

-- Backslashes next to broken encodings complete none, and none is completed by what they push
-- apart.
theorem front?_escaped {b : UInt8} {rest : Bytes} (h : front? (b :: rest) = none) :
    front? (b :: Bytes.escaped rest) = none := by
  cases hf : front? (b :: Bytes.escaped rest) with
  | none => rfl
  | some c =>
    obtain ⟨lead, more, hc, -, hmore⟩ := encode_eq_cons c
    have hp := front?_eq_some.mp hf
    rw [hc] at hp
    obtain ⟨rfl, hfront⟩ := List.cons_prefix_cons.mp hp
    have hplain : ∀ d ∈ more, d ≠ 34 ∧ d ≠ 92 := by
      intro d hd
      have hhigh := (hmore d hd).1
      constructor
      all_goals
        rintro rfl
        revert hhigh
        decide
    have hwhole : lead :: more <+: lead :: rest :=
      List.cons_prefix_cons.mpr ⟨rfl, Bytes.prefix_of_prefix_escaped hplain hfront⟩
    rw [← hc] at hwhole
    rw [front?_eq_some.mpr hwhole] at h
    cases h

theorem read_escaped (text : Bytes) : read (Bytes.escaped text) = Piece.escape (read text) := by
  induction text using text_induction with
  | nil => rfl
  | char c rest ih =>
    rw [Bytes.escaped_append, read_encode, Piece.escape_cons]
    cases hc : Piece.isEscaped (.char c) with
    | false =>
      rw [Bytes.escaped_of_plain (encode_plain hc), read_encode, ih]
      rfl
    | true =>
      have hmark : Bytes.escaped (String.utf8EncodeChar c) =
          String.utf8EncodeChar '\\' ++ String.utf8EncodeChar c := by
        obtain rfl | rfl : c = '"' ∨ c = '\\' := by simpa [Piece.isEscaped] using hc
        · rfl
        · rfl
      rw [hmark, List.append_assoc, read_encode, read_encode, ih]
      rfl
  | stray b rest hb ih =>
    have hascii {a : UInt8} {c : Char} (ha : String.utf8EncodeChar c = [a]) : b ≠ a := by
      rintro rfl
      have hfront := front?_encode c rest
      rw [ha, List.singleton_append, hb] at hfront
      cases hfront
    have hplain : Bytes.escaped (b :: rest) = b :: Bytes.escaped rest := by
      rw [Bytes.escaped, List.flatMap_cons, if_neg]
      · rfl
      · rintro (hquote | hback)
        · exact hascii (c := '"') rfl hquote
        · exact hascii (c := '\\') rfl hback
    rw [hplain, read_stray (front?_escaped hb), read_stray hb, Piece.escape_cons, ih]
    rfl

theorem read_quoted (text : Bytes) :
    read text.quoted = .char '"' :: (Piece.escape (read text) ++ [.char '"']) := by
  have hquoted : text.quoted = [] ++ 34 :: (text.escaped ++ 34 :: []) := rfl
  rw [hquoted, read_append_quote, read_append_quote, read_escaped]
  rfl

end Glyph

namespace Scan

-- A text between quotes is one string, and nothing comes after it.
theorem ofSource_quoted (text : Bytes) :
    ofSource text.quoted =
      ⟨[⟨⟨text.quoted, 1⟩, .string text.repaired⟩], 1 + text.count 10, none⟩ := by
  have hcut : Piece.cut? (.char '"') (Piece.escape (Glyph.read text) ++ [.char '"']) =
      some (Piece.plain (.string text.repaired) (Glyph.read text.quoted) []) := by
    rw [Glyph.read_quoted, Bytes.repaired_eq]
    simp [Piece.cut?, Piece.quotation?, Piece.splitQuote_escape, Piece.unescape_escape]
  have hgap : (Cursor.start text.quoted).rest.dropWhile Piece.isGap =
      .char '"' :: (Piece.escape (Glyph.read text) ++ [.char '"']) := by
    rw [Cursor.start, Glyph.read_quoted]
    rfl
  have hlines : Piece.newlines (Glyph.read text.quoted) = text.count 10 :=
    (newlines_read _).trans text.count_newline_quoted
  have hrest (line : Nat) : ofCursor ⟨[], line⟩ = ⟨[], line, none⟩ := ofCursor_ended rfl
  rw [ofSource_eq, ofCursor_cut hgap hcut]
  dsimp only [Piece.plain, Piece.token]
  rw [hrest, hlines, Glyph.write_read]
  rfl

-- String literals decode what escaping encodes: the string is the text with U+FFFD in the place of
-- every byte that belongs to no encoded character, and so the text itself if it is valid.
theorem quoted_decoded (text : Bytes) :
    (ofSource text.quoted).failure = none ∧
      (ofSource text.quoted).listed = [⟨⟨text.quoted, 1⟩, .string text.repaired⟩,
        ⟨⟨[], 1 + text.count 10⟩, .endOfInput⟩] ∧
      ∀ s : String, (Bytes.ofString s).repaired = Bytes.ofString s := by
  rw [ofSource_quoted]
  exact ⟨rfl, rfl, Bytes.repaired_ofString⟩

end Scan

end LineBasic
