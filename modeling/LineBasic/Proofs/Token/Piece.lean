import LineBasic.Proofs.Text.Glyph
import LineBasic.Token.Lexer
import Mathlib.Data.List.TakeWhile

namespace LineBasic

-- What a token looks like in a source. A label shows its colon there.
def Token.raw (t : Token) : Bytes :=
  if t.kind = .label then t.text ++ [58] else t.text

namespace Piece

def pairs : List (Char × Char × Operator) :=
  [('<', '=', .le), ('<', '>', .ne), ('>', '=', .ge)]

-- A glyph that no token but an unknown one starts with.
def IsStrange (g : Glyph) : Prop :=
  ∀ c, g = .char c → c ∉ ['"', '<', '>'] ∧ single? c = none ∧ ¬isDigit g ∧ ¬isWordStart g

-- The ways in which a piece is cut off. Only quotes and comparisons look at the second glyph.
inductive Cuts : Glyph → List Glyph → Piece → Prop where
  | quotation {rest body after : List Glyph} (h : splitQuote rest = some (body, after)) :
      Cuts (.char '"') rest (plain (.string ((unescape body).flatMap Glyph.repaired))
        (.char '"' :: body ++ [.char '"']) after)
  | pair {c d : Char} {op : Operator} (h : (c, d, op) ∈ pairs) (after : List Glyph) :
      Cuts (.char c) (.char d :: after) (plain (.operator op) [.char c, .char d] after)
  | less {rest : List Glyph} (he : ∀ more, rest ≠ .char '=' :: more)
      (hg : ∀ more, rest ≠ .char '>' :: more) :
      Cuts (.char '<') rest (plain (.operator .lt) [.char '<'] rest)
  | greater {rest : List Glyph} (he : ∀ more, rest ≠ .char '=' :: more) :
      Cuts (.char '>') rest (plain (.operator .gt) [.char '>'] rest)
  | single {c : Char} {kind : Token.Kind} (h : single? c = some kind) (rest : List Glyph) :
      Cuts (.char c) rest (plain kind [.char c] rest)
  | number {first : Glyph} (h : isDigit first) (rest : List Glyph) :
      Cuts first rest (number (first :: rest))
  | word {first : Glyph} (h : isWordStart first) (rest : List Glyph) :
      Cuts first rest (word (first :: rest))
  | unknown {first : Glyph} (h : IsStrange first) (rest : List Glyph) :
      Cuts first rest (plain .unknown [first] rest)

theorem single?_of_quote_or_angle {c : Char} (h : c ∈ ['"', '<', '>']) : single? c = none := by
  simp only [List.mem_cons, List.not_mem_nil, or_false] at h
  obtain rfl | rfl | rfl := h <;> rfl

-- The marks that are tokens of their own, or start one, are neither digits nor letters.
theorem not_mark {c : Char} (h : isDigit (.char c) ∨ isWordStart (.char c)) :
    c ∉ ['"', '<', '>'] ∧ single? c = none := by
  have hmark {mark : Char} (hd : isDigit (.char mark) = false)
      (hs : isWordStart (.char mark) = false) : c ≠ mark := by
    rintro rfl
    simp [hd, hs] at h
  constructor
  · simp only [List.mem_cons, List.not_mem_nil, or_false, not_or]
    exact ⟨hmark (by decide) (by decide), hmark (by decide) (by decide),
      hmark (by decide) (by decide)⟩
  · unfold single?
    split
    all_goals first | rfl | exact (hmark (by decide) (by decide) rfl).elim

theorem not_isWordStart_of_isDigit {g : Glyph} (h : isDigit g) : ¬isWordStart g := by
  have hall : ∀ n < 58, Char.isDigit (Char.ofNat n) → Text.isLetter (Char.ofNat n) = false := by
    decide
  cases g with
  | char c =>
    have hdigit : c.isDigit := h
    have hle : c.toNat ≤ 57 := by
      have hrange : c.val ≥ 48 ∧ c.val ≤ 57 := by simpa [Char.isDigit] using hdigit
      exact UInt32.le_iff_toNat_le.mp hrange.2
    rw [← Char.ofNat_toNat c] at hdigit ⊢
    exact Bool.eq_false_iff.mp (hall c.toNat (by omega) hdigit)
  | stray b => cases h

theorem cut?_single {c : Char} {kind : Token.Kind} (h : single? c = some kind)
    (rest : List Glyph) : cut? (.char c) rest = some (plain kind [.char c] rest) := by
  have hne : c ∉ ['"', '<', '>'] := by
    intro hmem
    rw [single?_of_quote_or_angle hmem] at h
    cases h
  simp only [List.mem_cons, List.not_mem_nil, or_false, not_or] at hne
  simp [cut?, h, hne]

theorem cut?_run {c : Char} (hne : c ∉ ['"', '<', '>']) (h : single? c = none)
    (rest : List Glyph) : cut? (.char c) rest =
      if isDigit (.char c) then some (number (.char c :: rest))
      else if isWordStart (.char c) then some (word (.char c :: rest))
      else some (plain .unknown [.char c] rest) := by
  simp only [List.mem_cons, List.not_mem_nil, or_false, not_or] at hne
  simp [cut?, h, hne]

theorem Cuts.cut? {first : Glyph} {rest : List Glyph} {piece : Piece} (h : Cuts first rest piece) :
    Piece.cut? first rest = some piece := by
  cases h with
  | quotation hs => simp [Piece.cut?, quotation?, hs]
  | pair hp after =>
    simp only [pairs, List.mem_cons, Prod.mk.injEq, List.not_mem_nil, or_false] at hp
    obtain ⟨rfl, rfl, rfl⟩ | ⟨rfl, rfl, rfl⟩ | ⟨rfl, rfl, rfl⟩ := hp <;> rfl
  | less | greater => simp [Piece.cut?]
  | single hs => exact cut?_single hs rest
  | number hd =>
    cases first with
    | char c =>
      obtain ⟨hne, hs⟩ := not_mark (.inl hd)
      rw [cut?_run hne hs, if_pos hd]
    | stray b => cases hd
  | word hw =>
    cases first with
    | char c =>
      obtain ⟨hne, hs⟩ := not_mark (.inr hw)
      rw [cut?_run hne hs, if_neg fun hd => not_isWordStart_of_isDigit hd hw, if_pos hw]
    | stray b => cases hw
  | unknown hu =>
    cases first with
    | char c =>
      obtain ⟨hne, hs, hd, hw⟩ := hu c rfl
      rw [cut?_run hne hs, if_neg hd, if_neg hw]
    | stray b => rfl

-- Every piece is cut off in one of these ways, and only a quote that is never closed has no piece.
theorem cut?_cases (first : Glyph) (rest : List Glyph) :
    (∃ piece, cut? first rest = some piece ∧ Cuts first rest piece) ∨
      cut? first rest = none ∧ first = .char '"' ∧ splitQuote rest = none := by
  unfold cut?
  split
  · cases hs : splitQuote rest with
    | none => exact .inr ⟨by simp [quotation?, hs], rfl, rfl⟩
    | some parts => exact .inl ⟨_, by simp [quotation?, hs], .quotation hs⟩
  · exact .inl ⟨_, rfl, .pair (by decide) _⟩
  · exact .inl ⟨_, rfl, .pair (by decide) _⟩
  · rename_i he hg
    exact .inl ⟨_, rfl, .less he hg⟩
  · exact .inl ⟨_, rfl, .pair (by decide) _⟩
  · rename_i he
    exact .inl ⟨_, rfl, .greater he⟩
  · rename_i c hquote hless hgreater _ _ _
    split
    · rename_i kind hkind
      exact .inl ⟨_, rfl, .single hkind rest⟩
    · rename_i hnone
      split
      · rename_i hdigit
        exact .inl ⟨_, rfl, .number hdigit rest⟩
      · rename_i hdigit
        split
        · rename_i hstart
          exact .inl ⟨_, rfl, .word hstart rest⟩
        · rename_i hstart
          refine .inl ⟨_, rfl, .unknown ?_ rest⟩
          rintro _ ⟨⟩
          exact ⟨by simpa using ⟨hquote, hless, hgreater⟩, hnone, hdigit, hstart⟩
  · exact .inl ⟨_, rfl, .unknown (fun _ h => by cases h) rest⟩

theorem cut?_eq_some_iff {first : Glyph} {rest : List Glyph} {piece : Piece} :
    cut? first rest = some piece ↔ Cuts first rest piece := by
  constructor
  · intro h
    obtain ⟨found, hfound, hcuts⟩ | ⟨hnone, -⟩ := cut?_cases first rest
    · rw [h] at hfound
      cases hfound
      exact hcuts
    · rw [h] at hnone
      cases hnone
  · exact Cuts.cut?

theorem cut?_eq_none_iff {first : Glyph} {rest : List Glyph} :
    cut? first rest = none ↔ first = .char '"' ∧ splitQuote rest = none := by
  constructor
  · intro h
    obtain ⟨found, hfound, -⟩ | ⟨-, hopen⟩ := cut?_cases first rest
    · rw [h] at hfound
      cases hfound
    · exact hopen
  · rintro ⟨rfl, h⟩
    exact Option.map_eq_none_iff.mpr h

-- A glyph that no token before it can take in, except as a part of a string.
def breaks (g : Glyph) : Bool :=
  !isDigit g && !isWordPart g && !([.char '.', .char ':', .char '=', .char '>'].contains g)

theorem breaks_newline : breaks (.char '\n') := by
  decide

-- What holds of every piece that is cut off a text. Only names and reserved words count as names,
-- and they are made of the parts of words.
structure CutFrom (piece : Piece) (text : List Glyph) : Prop where
  text : piece.raw ++ piece.rest = text
  raw_ne_nil : piece.raw ≠ []
  kind_ne : piece.kind ≠ .endOfInput
  name : (piece.kind = .variable ∨ ∃ command, piece.kind = .command command) →
    ∀ g ∈ piece.lexeme, isWordPart g
  raw_token : ∀ line, (piece.token line).raw = Glyph.write piece.raw

theorem raw_plain {kind : Token.Kind} (h : kind ≠ .label) (raw rest : List Glyph) (line : Nat) :
    ((plain kind raw rest).token line).raw = Glyph.write raw :=
  if_neg h

theorem cutFrom_plain {kind : Token.Kind} {raw rest : List Glyph} (hraw : raw ≠ [])
    (hend : kind ≠ .endOfInput) (hl : kind ≠ .label) (hv : kind ≠ .variable)
    (hc : ∀ command, kind ≠ .command command) : CutFrom (plain kind raw rest) (raw ++ rest) := by
  refine ⟨rfl, hraw, hend, ?_, raw_plain hl raw rest⟩
  rintro (h | ⟨command, h⟩)
  · exact (hv h).elim
  · exact (hc command h).elim

theorem splitQuote_eq {text body after : List Glyph} (h : splitQuote text = some (body, after)) :
    text = body ++ .char '"' :: after := by
  fun_induction splitQuote text generalizing body with
  | case1 => cases h
  | case2 rest ih | case3 rest ih =>
    obtain ⟨⟨inner, after'⟩, hi, he⟩ := Option.map_eq_some_iff.mp h
    cases he
    rw [ih hi]
    rfl
  | case4 rest =>
    cases h
    rfl
  | case5 g rest _ _ _ ih =>
    obtain ⟨⟨inner, after'⟩, hi, he⟩ := Option.map_eq_some_iff.mp h
    cases he
    rw [ih hi]
    rfl

theorem cutFrom_quotation {rest body after : List Glyph}
    (h : splitQuote rest = some (body, after)) :
    CutFrom (plain (.string ((unescape body).flatMap Glyph.repaired))
      (.char '"' :: body ++ [.char '"']) after) (.char '"' :: rest) := by
  have hcut : CutFrom (plain (.string ((unescape body).flatMap Glyph.repaired))
      (.char '"' :: body ++ [.char '"']) after) (.char '"' :: body ++ [.char '"'] ++ after) :=
    cutFrom_plain (by simp) (by simp) (by simp) (by simp) (by simp)
  rw [splitQuote_eq h]
  simpa using hcut

theorem cutFrom_number {first : Glyph} {rest : List Glyph} (h : isDigit first) :
    CutFrom (number (first :: rest)) (first :: rest) := by
  have hsplit := List.takeWhile_append_dropWhile (p := isDigit) (l := first :: rest)
  have hwhole : (first :: rest).takeWhile isDigit ≠ [] := by simp [h]
  unfold number
  dsimp only
  split
  · rename_i more hdrop
    rw [hdrop] at hsplit
    have hmore := List.takeWhile_append_dropWhile (p := isDigit) (l := more)
    refine ⟨Eq.trans ?_ hsplit, by simp [plain], by simp [plain], by simp [plain],
      raw_plain (by simp) _ _⟩
    simp [plain, hmore]
  · exact ⟨hsplit, hwhole, by simp [plain], by simp [plain], raw_plain (by simp) _ _⟩

theorem cutFrom_word {first : Glyph} {rest : List Glyph} (h : isWordPart first) :
    CutFrom (word (first :: rest)) (first :: rest) := by
  have hsplit := List.takeWhile_append_dropWhile (p := isWordPart) (l := first :: rest)
  have hname : (first :: rest).takeWhile isWordPart ≠ [] := by simp [h]
  have hparts : ∀ g ∈ (first :: rest).takeWhile isWordPart, isWordPart g :=
    List.all_eq_true.mp List.all_takeWhile
  unfold word
  dsimp only
  split
  · rename_i more hdrop
    rw [hdrop] at hsplit
    refine ⟨Eq.trans ?_ hsplit, by simp, by simp, fun _ => hparts, fun line => ?_⟩
    · simp
    · -- only here the raw text is more than the name
      exact (if_pos rfl).trans (Glyph.write_append _ [.char ':']).symm
  · split
    · exact ⟨hsplit, hname, by simp [plain], fun _ => hparts, raw_plain (by simp) _ _⟩
    · exact ⟨hsplit, hname, by simp [plain], fun _ => hparts, raw_plain (by simp) _ _⟩

theorem single?_kind {c : Char} {kind : Token.Kind} (h : single? c = some kind) :
    kind ≠ .endOfInput ∧ kind ≠ .label ∧ kind ≠ .variable ∧
      ∀ command, kind ≠ .command command := by
  unfold single? at h
  split at h <;> cases h <;> simp

theorem isWordPart_of_isWordStart {g : Glyph} (h : isWordStart g) : isWordPart g := by
  cases g with
  | char c =>
    have hletter : Text.isLetter c = true := h
    simp [isWordPart, Glyph.test, hletter]
  | stray b => cases h

theorem cutFrom_of_cut? {first : Glyph} {rest : List Glyph} {piece : Piece}
    (h : cut? first rest = some piece) : CutFrom piece (first :: rest) := by
  have hplain (kind : Token.Kind) (raw rest : List Glyph) (hraw : raw ≠ [])
      (hkind : kind = .unknown ∨ ∃ op, kind = .operator op) :
      CutFrom (plain kind raw rest) (raw ++ rest) := by
    apply cutFrom_plain hraw <;> rcases hkind with rfl | ⟨op, rfl⟩ <;> simp
  cases cut?_eq_some_iff.mp h with
  | quotation hs => exact cutFrom_quotation hs
  | pair => exact hplain _ _ _ (List.cons_ne_nil _ _) (.inr ⟨_, rfl⟩)
  | less | greater => exact hplain _ _ _ (List.cons_ne_nil _ _) (.inr ⟨_, rfl⟩)
  | single hkind =>
    obtain ⟨hend, hl, hv, hc⟩ := single?_kind hkind
    exact cutFrom_plain (List.cons_ne_nil _ _) hend hl hv hc
  | number hdigit => exact cutFrom_number hdigit
  | word hstart => exact cutFrom_word (isWordPart_of_isWordStart hstart)
  | unknown => exact hplain _ _ _ (List.cons_ne_nil _ _) (.inl rfl)

theorem raw_eq_cons {first : Glyph} {rest : List Glyph} {piece : Piece}
    (h : cut? first rest = some piece) :
    ∃ raw, piece.raw = first :: raw ∧ rest = raw ++ piece.rest := by
  have hcut := cutFrom_of_cut? h
  have htext := hcut.text
  cases hraw : piece.raw with
  | nil => exact (hcut.raw_ne_nil hraw).elim
  | cons g raw =>
    rw [hraw, List.cons_append] at htext
    obtain ⟨rfl, rfl⟩ := List.cons.inj htext
    exact ⟨raw, rfl, rfl⟩

-- A quoted text ends at the same quote, whatever comes after it.
theorem splitQuote_again {text body after : List Glyph} (h : splitQuote text = some (body, after))
    (after' : List Glyph) : splitQuote (body ++ .char '"' :: after') = some (body, after') := by
  fun_induction splitQuote text generalizing body with
  | case1 => cases h
  | case2 rest ih | case3 rest ih =>
    obtain ⟨⟨inner, after⟩, hi, he⟩ := Option.map_eq_some_iff.mp h
    cases he
    simp [splitQuote, ih hi]
  | case4 rest =>
    cases h
    simp [splitQuote]
  | case5 g rest hquote hback hclose ih =>
    obtain ⟨⟨inner, after⟩, hi, he⟩ := Option.map_eq_some_iff.mp h
    cases he
    -- the text after the glyph starts in the same way as before
    have hrest := splitQuote_eq hi
    have hhead : ∀ c more, inner ++ .char '"' :: after' = .char c :: more →
        ∃ others, rest = .char c :: others := by
      intro c more he
      cases inner with
      | nil =>
        cases he
        exact ⟨_, hrest⟩
      | cons next inner =>
        rw [(List.cons.inj he).1] at hrest
        exact ⟨_, hrest⟩
    rw [List.cons_append, splitQuote, ih hi]
    · rfl
    · rintro more rfl he
      obtain ⟨others, hothers⟩ := hhead _ _ he
      exact hquote others rfl hothers
    · rintro more rfl he
      obtain ⟨others, hothers⟩ := hhead _ _ he
      exact hback others rfl hothers
    · exact hclose

theorem newline_not_mem_bytes {g : Glyph} (h : isWordPart g) : (10 : UInt8) ∉ g.bytes := by
  cases g with
  | char c =>
    intro hmem
    obtain rfl := Glyph.newline_mem_encode.mp hmem
    revert h
    decide
  | stray b => cases h

def extended (piece : Piece) (tail : List Glyph) : Piece :=
  { piece with rest := piece.rest ++ tail }

section Append

variable {tail : List Glyph}

theorem splitQuote_append {text body after : List Glyph} (tail : List Glyph)
    (h : splitQuote text = some (body, after)) :
    splitQuote (text ++ tail) = some (body, after ++ tail) := by
  fun_induction splitQuote text generalizing body with
  | case1 => cases h
  | case2 rest ih | case3 rest ih =>
    obtain ⟨⟨inner, after'⟩, hi, he⟩ := Option.map_eq_some_iff.mp h
    cases he
    simp [splitQuote, ih hi]
  | case4 rest =>
    cases h
    simp [splitQuote]
  | case5 g rest hquote hback hclose ih =>
    obtain ⟨⟨inner, after'⟩, hi, he⟩ := Option.map_eq_some_iff.mp h
    cases he
    cases rest with
    | nil => cases hi
    | cons next rest =>
      have hinner := ih hi
      rw [List.cons_append] at hinner
      rw [List.cons_append, List.cons_append, splitQuote, hinner]
      · rfl
      · rintro more rfl hmore
        exact hquote rest rfl (by rw [(List.cons.inj hmore).1])
      · rintro more rfl hmore
        exact hback rest rfl (by rw [(List.cons.inj hmore).1])
      · exact hclose

theorem takeWhile_append {p : Glyph → Bool} (h : ∀ g ∈ tail.head?, p g = false)
    (text : List Glyph) : (text ++ tail).takeWhile p = text.takeWhile p := by
  induction text with
  | nil =>
    cases tail with
    | nil => rfl
    | cons g tail => simp [h g rfl]
  | cons g text ih => simp only [List.cons_append, List.takeWhile_cons, ih]

theorem dropWhile_append {p : Glyph → Bool} (h : ∀ g ∈ tail.head?, p g = false)
    (text : List Glyph) : (text ++ tail).dropWhile p = text.dropWhile p ++ tail := by
  induction text with
  | nil =>
    cases tail with
    | nil => rfl
    | cons g tail => simp [h g rfl]
  | cons g text ih =>
    simp only [List.cons_append, List.dropWhile_cons, ih]
    split <;> rfl

theorem ne_cons_of_breaks {g : Glyph} {more : List Glyph} (h : ∀ g ∈ tail.head?, breaks g)
    (hg : breaks g = false) : tail ≠ g :: more := by
  rintro rfl
  have hbreaks := h g rfl
  rw [hg] at hbreaks
  cases hbreaks

theorem number_append (h : ∀ g ∈ tail.head?, breaks g) (text : List Glyph) :
    number (text ++ tail) = (number text).extended tail := by
  have hdigit : ∀ g ∈ tail.head?, isDigit g = false := by
    intro g hg
    have := h g hg
    simp only [breaks, Bool.and_eq_true, Bool.not_eq_true'] at this
    exact this.1.1
  unfold number
  rw [takeWhile_append hdigit, dropWhile_append hdigit]
  cases hdrop : text.dropWhile isDigit with
  | nil =>
    dsimp only
    split
    · rename_i more hmore
      exact (ne_cons_of_breaks h (by decide) hmore).elim
    · rfl
  | cons g rest =>
    by_cases hg : g = .char '.'
    · subst hg
      simp only [List.cons_append, takeWhile_append hdigit, dropWhile_append hdigit]
      rfl
    · simp [hg, extended, plain]

theorem word_append (h : ∀ g ∈ tail.head?, breaks g) (text : List Glyph) :
    word (text ++ tail) = (word text).extended tail := by
  have hpart : ∀ g ∈ tail.head?, isWordPart g = false := by
    intro g hg
    have := h g hg
    simp only [breaks, Bool.and_eq_true, Bool.not_eq_true'] at this
    exact this.1.2
  unfold word
  rw [takeWhile_append hpart, dropWhile_append hpart]
  cases hdrop : text.dropWhile isWordPart with
  | nil =>
    dsimp only
    split
    · rename_i more hmore
      exact (ne_cons_of_breaks h (by decide) hmore).elim
    · cases Command.ofWord? (text.takeWhile isWordPart) <;> rfl
  | cons g rest =>
    by_cases hg : g = .char ':'
    · subst hg
      rfl
    · cases hw : Command.ofWord? (text.takeWhile isWordPart) <;> simp [hg, hw, extended, plain]

-- A piece is cut off in the same way if more text comes after it, unless that could be taken in.
theorem Cuts.append (h : ∀ g ∈ tail.head?, breaks g) {first : Glyph} {rest : List Glyph}
    {piece : Piece} (hc : Cuts first rest piece) :
    Cuts first (rest ++ tail) (piece.extended tail) := by
  -- an operator of one glyph does not take in what follows
  have hne {g : Glyph} (hg : breaks g = false) (hrest : ∀ more, rest ≠ g :: more)
      (more : List Glyph) : rest ++ tail ≠ g :: more := by
    cases rest with
    | nil => exact ne_cons_of_breaks h hg
    | cons g' rest =>
      intro he
      exact hrest rest (by rw [(List.cons.inj he).1])
  cases hc with
  | quotation hs => exact .quotation (splitQuote_append tail hs)
  | pair hp after => exact .pair hp (after ++ tail)
  | less he hg => exact .less (hne (by decide) he) (hne (by decide) hg)
  | greater he => exact .greater (hne (by decide) he)
  | single hs => exact .single hs (rest ++ tail)
  | number hd =>
    rw [← number_append h (first :: rest)]
    exact .number hd (rest ++ tail)
  | word hw =>
    rw [← word_append h (first :: rest)]
    exact .word hw (rest ++ tail)
  | unknown hu => exact .unknown hu (rest ++ tail)

theorem cut?_append (h : ∀ g ∈ tail.head?, breaks g) {first : Glyph} {rest : List Glyph}
    {piece : Piece} (hc : cut? first rest = some piece) :
    cut? first (rest ++ tail) = some (piece.extended tail) :=
  ((cut?_eq_some_iff.mp hc).append h).cut?

-- A piece that ends before the rest of a text is cut off in the same way if that rest is left out,
-- unless it could be taken in.
theorem cut?_of_append (h : ∀ g ∈ tail.head?, breaks g) {first : Glyph} {rest more : List Glyph}
    {piece : Piece} (hc : cut? first (rest ++ tail) = some piece) (hp : piece.rest = more ++ tail) :
    cut? first rest = some { piece with rest := more } := by
  cases hr : cut? first rest with
  | none =>
    exfalso
    obtain ⟨rfl, hnone⟩ := cut?_eq_none_iff.mp hr
    obtain ⟨⟨body, after⟩, hs, rfl⟩ := Option.map_eq_some_iff.mp hc
    obtain rfl : after = more ++ tail := hp
    -- the closing quote stands before the rest, so it closes the shorter text as well
    have hsplit := splitQuote_eq hs
    rw [← List.cons_append, ← List.append_assoc] at hsplit
    rw [List.append_cancel_right hsplit, splitQuote_again hs] at hnone
    cases hnone
  | some short =>
    rw [cut?_append h hr] at hc
    cases hc
    have hrest : short.rest = more := List.append_cancel_right hp
    subst hrest
    rfl

theorem takeWhile_takeWhile_append {p : Glyph → Bool} (h : ∀ g ∈ tail.head?, p g = false)
    (text : List Glyph) : (text.takeWhile p ++ tail).takeWhile p = text.takeWhile p := by
  rw [takeWhile_append h, List.takeWhile_idem]

theorem dropWhile_takeWhile_append {p : Glyph → Bool} (h : ∀ g ∈ tail.head?, p g = false)
    (text : List Glyph) : (text.takeWhile p ++ tail).dropWhile p = tail := by
  have hall : (text.takeWhile p).dropWhile p = [] :=
    List.dropWhile_eq_nil_iff.mpr (List.all_eq_true.mp List.all_takeWhile)
  rw [dropWhile_append h, hall, List.nil_append]

theorem number_raw (text : List Glyph) :
    number (number text).raw = { number text with rest := [] } := by
  have hnone : ∀ g ∈ ([] : List Glyph).head?, isDigit g = false := by simp
  have hwhole := takeWhile_takeWhile_append hnone text
  have hempty := dropWhile_takeWhile_append hnone text
  rw [List.append_nil] at hwhole hempty
  unfold number
  split
  · rename_i more hdrop
    have hpoint : ∀ g ∈ (.char '.' :: more.takeWhile isDigit).head?, isDigit g = false := by
      rintro g ⟨⟩
      decide
    have hplaces := takeWhile_takeWhile_append hnone more
    have hlast := dropWhile_takeWhile_append hnone more
    rw [List.append_nil] at hplaces hlast
    simp only [plain, takeWhile_takeWhile_append hpoint, dropWhile_takeWhile_append hpoint,
      hplaces, hlast]
  · simp only [plain, hwhole, hempty]

theorem word_raw (text : List Glyph) : word (word text).raw = { word text with rest := [] } := by
  have hnone : ∀ g ∈ ([] : List Glyph).head?, isWordPart g = false := by simp
  have hname := takeWhile_takeWhile_append hnone text
  have hempty := dropWhile_takeWhile_append hnone text
  rw [List.append_nil] at hname hempty
  unfold word
  split
  · rename_i more hdrop
    have hcolon : ∀ g ∈ [Glyph.char ':'].head?, isWordPart g = false := by
      rintro g ⟨⟩
      decide
    simp only [takeWhile_takeWhile_append hcolon, dropWhile_takeWhile_append hcolon]
  · cases hw : Command.ofWord? (text.takeWhile isWordPart) with
    | some command => simp only [plain, hname, hempty, hw]
    | none => simp only [plain, hname, hempty, hw]

theorem cut?_raw {first : Glyph} {rest raw : List Glyph} {piece : Piece}
    (hc : cut? first rest = some piece) (hraw : piece.raw = first :: raw) :
    cut? first raw = some { piece with rest := [] } := by
  apply Cuts.cut?
  cases cut?_eq_some_iff.mp hc with
  | @quotation _ body _ hs =>
    obtain rfl : body ++ [.char '"'] = raw := (List.cons.inj hraw).2
    exact .quotation (splitQuote_again hs [])
  | pair hp =>
    cases hraw
    exact .pair hp []
  | less =>
    cases hraw
    exact .less (by simp) (by simp)
  | greater =>
    cases hraw
    exact .greater (by simp)
  | single hs =>
    cases hraw
    exact .single hs []
  | number hd =>
    rw [← number_raw, hraw]
    exact .number hd raw
  | word hw =>
    rw [← word_raw, hraw]
    exact .word hw raw
  | unknown hu =>
    cases hraw
    exact .unknown hu []

end Append

end Piece

end LineBasic
