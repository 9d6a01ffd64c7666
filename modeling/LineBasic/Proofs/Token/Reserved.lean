import LineBasic.Proofs.Token.Lines

namespace LineBasic

namespace Command

theorem mem_all (command : Command) : command ∈ all := by
  cases command <;> decide

theorem spelling_injective {a b : Command} (h : a.spelling.toList = b.spelling.toList) : a = b := by
  have hall : ∀ a ∈ all, ∀ b ∈ all, a.spelling.toList = b.spelling.toList → a = b := by decide
  exact hall a (mem_all a) b (mem_all b) h

-- Every reserved word is spelled in ASCII.
theorem toNat_lt_of_mem_spelling {command : Command} {c : Char}
    (h : c ∈ command.spelling.toList) : c.toNat < 128 := by
  have hall : ∀ command ∈ all, command.spelling.toList.all (·.toNat < 128) := by decide
  simpa using List.all_eq_true.mp (hall command (mem_all command)) c h

-- The two letters outside ASCII that have capitals in ASCII: the dotless i and the long s.
def strangers : List Char :=
  ['ı', 'ſ']

theorem capital_of_ascii {c : Char} (h : c.toNat < 128) : capital c = c.toUpper := by
  have hall : ∀ n < 128, capital (Char.ofNat n) = (Char.ofNat n).toUpper := by decide
  rw [← Char.ofNat_toNat c]
  exact hall _ h

theorem toUpper_of_not_ascii {c : Char} (h : 128 ≤ c.toNat) : c.toUpper = c := by
  have hletter : ¬(c.val ≥ 'a'.val ∧ c.val ≤ 'z'.val) := by
    intro hrange
    have hle : c.toNat ≤ 122 := UInt32.le_iff_toNat_le.mp hrange.2
    omega
  exact dif_neg hletter

theorem capital_of_not_ascii {c : Char} (h : 128 ≤ c.toNat) (hs : c ∉ strangers) :
    capital c = c := by
  have hletter : ¬('a' ≤ c ∧ c ≤ 'z') := by
    intro hrange
    have hle : c.toNat ≤ 122 := UInt32.le_iff_toNat_le.mp hrange.2
    omega
  have hdotless : c.toNat ≠ 0x131 := by
    intro he
    exact hs (Char.toNat_inj.mp (he.trans rfl : c.toNat = 'ı'.toNat) ▸ by decide)
  have hlong : c.toNat ≠ 0x17F := by
    intro he
    exact hs (Char.toNat_inj.mp (he.trans rfl : c.toNat = 'ſ'.toNat) ▸ by decide)
  rw [capital, if_neg hletter, if_neg hdotless, if_neg hlong]

-- Apart from these two, a letter has the capital that it has in ASCII, if any.
theorem capital_eq {c : Char} (h : c ∉ strangers) : capital c = c.toUpper := by
  rcases Nat.lt_or_ge c.toNat 128 with hascii | hother
  · exact capital_of_ascii hascii
  · rw [capital_of_not_ascii hother h, toUpper_of_not_ascii hother]

theorem ofWord?_eq_some_iff {word : List Char} {command : Command} :
    ofWord? (word.map .char) = some command ↔ word.map capital = command.spelling.toList := by
  have hmap : (word.map Glyph.char).map capitalized = (word.map capital).map Glyph.char := by
    rw [List.map_map, List.map_map]
    rfl
  have hspells (other : Command) : (other.spelling.toList.map Glyph.char ==
      (word.map Glyph.char).map capitalized) = true ↔
        word.map capital = other.spelling.toList := by
    rw [hmap, beq_iff_eq, List.map_inj_right fun _ _ => Glyph.char.inj, eq_comm]
  have hfound {other : Command} (h : ofWord? (word.map .char) = some other) :
      word.map capital = other.spelling.toList := by
    have htest := List.find?_some h
    exact (hspells other).mp htest
  constructor
  · exact hfound
  · intro h
    cases hfind : ofWord? (word.map .char) with
    | none =>
      have htest := List.find?_eq_none.mp hfind command (mem_all command)
      exact (htest ((hspells command).mpr h)).elim
    | some other => rw [spelling_injective ((hfound hfind).symm.trans h)]

end Command

-- A word as it may stand in a source: a letter, and after it letters, digits and underscores.
structure IsName (word : List Char) : Prop where
  start : ∃ c ∈ word.head?, Text.isLetter c
  parts : ∀ c ∈ word, Text.isLetter c ∨ Text.isDecimalDigit c ∨ c = '_'

theorem isName_iff {word : List Char} : IsName word ↔ word.head?.any Text.isLetter ∧
    word.all fun c => Text.isLetter c || Text.isDecimalDigit c || c == '_' := by
  rw [Option.any_eq_true, List.all_eq_true]
  constructor
  · rintro ⟨hstart, hparts⟩
    exact ⟨hstart, by simpa [or_assoc] using hparts⟩
  · rintro ⟨hstart, hparts⟩
    exact ⟨hstart, by simpa [or_assoc] using hparts⟩

instance (word : List Char) : Decidable (IsName word) :=
  decidable_of_iff' _ isName_iff

namespace Piece

-- What follows a word goes on with none of its parts, and with no colon.
def endsWord (rest : List Glyph) : Prop :=
  ∀ g ∈ rest.head?, isWordPart g = false ∧ g ≠ .char ':'

theorem isWordPart_of_isName {word : List Char} (h : IsName word) :
    ∀ g ∈ word.map Glyph.char, isWordPart g := by
  intro g hg
  obtain ⟨c, hc, rfl⟩ := List.mem_map.mp hg
  have hpart := h.parts c hc
  simpa [isWordPart, Glyph.test, or_assoc] using hpart

theorem word_name {word : List Char} {rest : List Glyph} (h : IsName word) (hends : endsWord rest) :
    Piece.word (word.map .char ++ rest) =
      match Command.ofWord? (word.map .char) with
      | some command => plain (.command command) (word.map .char) rest
      | none => plain .variable (word.map .char) rest := by
  have hstop : ∀ g ∈ rest.head?, isWordPart g = false := fun g hg => (hends g hg).1
  have hparts := isWordPart_of_isName h
  have htake : (word.map Glyph.char ++ rest).takeWhile isWordPart = word.map .char := by
    rw [takeWhile_append hstop, List.takeWhile_eq_self_iff.mpr hparts]
  have hdrop : (word.map Glyph.char ++ rest).dropWhile isWordPart = rest := by
    rw [dropWhile_append hstop, List.dropWhile_eq_nil_iff.mpr hparts, List.nil_append]
  unfold Piece.word
  rw [htake, hdrop]
  dsimp only
  split
  · exact ((hends (.char ':') rfl).2 rfl).elim
  · rfl

end Piece

-- What a word is: a reserved word, or a variable.
def Token.Kind.ofName (word : List Char) : Token.Kind :=
  match Command.ofWord? (word.map .char) with
  | some reserved => .command reserved
  | none => .variable

namespace Token.Kind

theorem ofName_eq_command_iff {word : List Char} {reserved : Command} :
    ofName word = .command reserved ↔ word.map Command.capital = reserved.spelling.toList := by
  rw [← Command.ofWord?_eq_some_iff, ofName]
  cases Command.ofWord? (word.map .char) <;> simp

theorem ofName_cases (word : List Char) :
    ofName word = .variable ∨ ∃ reserved, ofName word = .command reserved := by
  unfold ofName
  cases Command.ofWord? (word.map .char) with
  | none => exact .inl rfl
  | some reserved => exact .inr ⟨reserved, rfl⟩

end Token.Kind

namespace Cursor

variable {c : Cursor} {word : List Char} {rest : List Glyph}

theorem next_name (h : IsName word) (hends : Piece.endsWord rest)
    (hplace : c.rest.dropWhile Piece.isGap = word.map .char ++ rest) :
    c.next = (.ok ⟨⟨word.flatMap String.utf8EncodeChar, c.line⟩, .ofName word⟩,
      ⟨rest, c.line⟩) := by
  obtain ⟨first, hfirst, hletter⟩ := h.start
  obtain ⟨parts, rfl⟩ := List.head?_eq_some_iff.mp hfirst
  have hstart : Piece.isWordStart (.char first) := hletter
  have hcut : Piece.cut? (.char first) (parts.map .char ++ rest) =
      some (Piece.plain (.ofName (first :: parts)) ((first :: parts).map .char) rest) := by
    rw [(Piece.Cuts.word hstart _).cut?, ← List.cons_append, ← List.map_cons, Piece.word_name h hends]
    unfold Token.Kind.ofName
    cases Command.ofWord? ((first :: parts).map .char) <;> rfl
  have hlines : Piece.newlines ((first :: parts).map Glyph.char) = 0 := by
    refine List.count_eq_zero.mpr fun hmem => ?_
    have hpart := Piece.isWordPart_of_isName h _ hmem
    revert hpart
    decide
  have hwrite : Glyph.write ((first :: parts).map .char) =
      (first :: parts).flatMap String.utf8EncodeChar :=
    List.flatMap_map Glyph.char Glyph.bytes (first :: parts)
  rw [next_cut hplace hcut]
  simp only [Piece.plain, Piece.token, hlines, hwrite, Nat.add_zero]

-- A word is a reserved word if its letters are one as capitals, and a variable otherwise. As long as
-- it has neither of the two letters from outside ASCII whose capitals are in ASCII, only the letters
-- of ASCII count, so that no word with any other letter is reserved.
theorem names_recognized (h : IsName word) (hends : Piece.endsWord rest)
    (hplace : c.rest.dropWhile Piece.isGap = word.map .char ++ rest) :
    ∃ kind, c.next =
        (.ok ⟨⟨word.flatMap String.utf8EncodeChar, c.line⟩, kind⟩, ⟨rest, c.line⟩) ∧
      (kind = .variable ∨ ∃ command, kind = .command command) ∧
      (∀ command, kind = .command command ↔
        word.map Command.capital = command.spelling.toList) ∧
      ((∀ letter ∈ word, letter ∉ Command.strangers) →
        (∀ command, kind = .command command ↔
          word.map Char.toUpper = command.spelling.toList) ∧
        ((∃ letter ∈ word, 128 ≤ letter.toNat) → kind = .variable)) := by
  refine ⟨.ofName word, next_name h hends hplace, Token.Kind.ofName_cases word,
    fun command => Token.Kind.ofName_eq_command_iff, fun hplain => ?_⟩
  have hcapitals : word.map Command.capital = word.map Char.toUpper :=
    List.map_congr_left fun letter hl => Command.capital_eq (hplain letter hl)
  have hkind (command : Command) : Token.Kind.ofName word = .command command ↔
      word.map Char.toUpper = command.spelling.toList := by
    rw [Token.Kind.ofName_eq_command_iff, hcapitals]
  refine ⟨hkind, ?_⟩
  rintro ⟨letter, hl, hother⟩
  rcases Token.Kind.ofName_cases word with hvariable | ⟨command, hcommand⟩
  · exact hvariable
  · -- such a letter would be spelled in the reserved word as it is
    have hmem := List.mem_map_of_mem (f := Char.toUpper) hl
    rw [(hkind command).mp hcommand, Command.toUpper_of_not_ascii hother] at hmem
    have hascii := Command.toNat_lt_of_mem_spelling hmem
    omega

-- A reserved word in small letters with a variable after it.
theorem names_recognized_gosub :
    (start (Bytes.ofString " gosub a")).next =
      (.ok ⟨⟨Bytes.ofString "gosub", 1⟩, .command .Gosub⟩, ⟨[.char ' ', .char 'a'], 1⟩) := by
  have hname : IsName "gosub".toList := by decide
  have hends : Piece.endsWord [.char ' ', .char 'a'] := by
    rintro g ⟨⟩
    decide
  have hplace : (start (Bytes.ofString " gosub a")).rest.dropWhile Piece.isGap =
      "gosub".toList.map .char ++ [.char ' ', .char 'a'] := by decide
  obtain ⟨kind, hnext, -, -, hplain⟩ := names_recognized hname hends hplace
  have hkind := ((hplain (by simp [Command.strangers])).1 .Gosub).mpr (by decide)
  rw [hnext, hkind]
  rfl

-- With a dotless i the word that starts a branch is reserved as well.
theorem dotless_branch_reserved :
    IsName "ıf".toList ∧ (start (Bytes.ofString "ıf")).rest = "ıf".toList.map .char ∧
      (start (Bytes.ofString "ıf")).next =
        (.ok ⟨⟨Bytes.ofString "ıf", 1⟩, .command .If⟩, ⟨[], 1⟩) ∧
      ∀ command : Command, "ıf".toList.map Char.toUpper ≠ command.spelling.toList := by
  have hall : ∀ command ∈ Command.all, "ıf".toList.map Char.toUpper ≠ command.spelling.toList := by
    decide
  exact ⟨by decide, by decide, rfl,
    fun command => hall command (Command.mem_all command)⟩

end Cursor

end LineBasic
