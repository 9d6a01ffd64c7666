import LineBasic.Proofs.Double.Print
import LineBasic.Proofs.Double.Read
import LineBasic.Proofs.Token.Scan

namespace LineBasic

open Digits

theorem Glyph.ofByte_point : ofByte 46 = .char '.' :=
  rfl

namespace Piece

theorem isDigit_ofByte {b : UInt8} (h : Digits.isDigit b = true) :
    isDigit (Glyph.ofByte b) = true ∧ isGap (Glyph.ofByte b) = false := by
  have hall : ∀ n < 58, 48 ≤ n →
      isDigit (.char (Char.ofNat n)) = true ∧ isGap (.char (Char.ofNat n)) = false := by decide
  have hrange := isDigit_iff.mp h
  exact hall _ (Nat.lt_succ_of_le hrange.2) hrange.1

theorem digits_map {digits : Bytes} (h : ∀ b ∈ digits, Digits.isDigit b = true) :
    ∀ g ∈ digits.map Glyph.ofByte, isDigit g = true := by
  intro g hg
  obtain ⟨b, hb, rfl⟩ := List.mem_map.mp hg
  exact (isDigit_ofByte (h b hb)).1

theorem number_digits {whole fraction : Bytes} (hw : ∀ b ∈ whole, Digits.isDigit b = true)
    (hf : ∀ b ∈ fraction, Digits.isDigit b = true) :
    let glyphs := (whole ++ 46 :: fraction).map Glyph.ofByte
    number glyphs = plain (.number (Double.readLiteral (Glyph.write glyphs))) glyphs [] := by
  intro glyphs
  have hglyphs : glyphs = whole.map Glyph.ofByte ++ .char '.' :: fraction.map Glyph.ofByte := by
    rw [← Glyph.ofByte_point, ← List.map_cons, ← List.map_append]
  have hpoint : isDigit (.char '.') = false := by decide
  have htake : glyphs.takeWhile isDigit = whole.map Glyph.ofByte := by
    rw [hglyphs, List.takeWhile_append_of_pos (digits_map hw),
      List.takeWhile_cons_of_neg (by simp [hpoint]), List.append_nil]
  have hdrop : glyphs.dropWhile isDigit = .char '.' :: fraction.map Glyph.ofByte := by
    rw [hglyphs, List.dropWhile_append_of_pos (digits_map hw),
      List.dropWhile_cons_of_neg (by simp [hpoint])]
  have hfraction : (fraction.map Glyph.ofByte).takeWhile isDigit = fraction.map Glyph.ofByte :=
    List.takeWhile_eq_self_iff.mpr (digits_map hf)
  have hnone : (fraction.map Glyph.ofByte).dropWhile isDigit = [] :=
    List.dropWhile_eq_nil_iff.mpr (digits_map hf)
  simp only [number, htake, hdrop, hfraction, hnone, ← hglyphs]

end Piece

namespace Scan

theorem ofSource_digits {whole fraction : Bytes} (hne : whole ≠ [])
    (hw : ∀ b ∈ whole, Digits.isDigit b = true) (hf : ∀ b ∈ fraction, Digits.isDigit b = true) :
    let text := whole ++ 46 :: fraction
    ofSource text = ⟨[⟨⟨text, 1⟩, .number (Double.readLiteral text)⟩], 1, none⟩ := by
  intro text
  have hvisible : ∀ b ∈ text, Text.Visible b := by
    intro b hb
    rcases List.mem_append.mp hb with hb | hb
    · exact Text.visible_digit (hw b hb)
    · rcases List.mem_cons.mp hb with rfl | hb
      · exact ⟨by decide, by decide⟩
      · exact Text.visible_digit (hf b hb)
  have hascii : ∀ b ∈ text, b.toNat < 128 := fun b hb => Nat.lt_succ_of_lt (hvisible b hb).2
  have hread : Glyph.read text = text.map Glyph.ofByte := Glyph.read_ascii hascii
  have hnumber := Piece.number_digits hw hf
  obtain ⟨first, rest, rfl⟩ := List.exists_cons_of_ne_nil hne
  have hfirst := hw first List.mem_cons_self
  have hcut : Piece.cut? (Glyph.ofByte first) ((rest ++ 46 :: fraction).map Glyph.ofByte) =
      some (Piece.plain (.number (Double.readLiteral text)) (text.map Glyph.ofByte) []) := by
    have hwrite : Glyph.write (text.map Glyph.ofByte) = text := by rw [← hread, Glyph.write_read]
    rw [(Piece.Cuts.number (Piece.isDigit_ofByte hfirst).1 _).cut?, ← List.map_cons, ← List.cons_append, hnumber]
    have hglyphs : (first :: rest ++ 46 :: fraction).map Glyph.ofByte = text.map Glyph.ofByte := rfl
    rw [hglyphs, hwrite]
  have hgap : (Cursor.start text).rest.dropWhile Piece.isGap =
      Glyph.ofByte first :: (rest ++ 46 :: fraction).map Glyph.ofByte := by
    rw [Cursor.start, hread]
    exact List.dropWhile_cons_of_neg (by simp [(Piece.isDigit_ofByte hfirst).2])
  have hlines : Piece.newlines (text.map Glyph.ofByte) = 0 := by
    rw [← hread, newlines_read]
    refine List.count_eq_zero.mpr fun hmem => ?_
    exact absurd (hvisible 10 hmem).1 (by decide)
  have hrest (line : Nat) : ofCursor ⟨[], line⟩ = ⟨[], line, none⟩ := ofCursor_ended rfl
  rw [ofSource_eq, ofCursor_cut hgap hcut]
  dsimp only [Piece.plain, Piece.token]
  rw [hrest, hlines, ← hread, Glyph.write_read]
  rfl

end Scan

namespace Double

open Decimal

variable {x : Double}

def printedSign (x : Double) : Sign :=
  if x.negative then .minus else .absent

theorem text_printedSign (x : Double) : x.printedSign.text = x.signText := by
  unfold printedSign signText
  split <;> rfl

theorem negative_printedSign (x : Double) : x.printedSign.negative = x.negative := by
  unfold printedSign
  split <;> simp_all [Sign.negative]

theorem exists_exponentText {exponent : Int} (h : exponent.natAbs < 100000) :
    ∃ e : Exponent, e.Valid ∧ e.text = [69] ++ Bytes.ofInt exponent ∧ e.counted = exponent := by
  have hdigits (n : Nat) : Grouped (Bytes.ofNat n) :=
    group_of_digits (Bytes.ofNat_ne_nil n) fun _ => Bytes.isDigit_of_mem_ofNat
  have hvalue {n : Nat} (hn : n < 100000) :
      firstFive (Digits.value (ungroup (Bytes.ofNat n))) = n := by
    rw [ungroup_of_digits fun _ => Bytes.isDigit_of_mem_ofNat, value_ofNat, firstFive_of_lt hn]
  cases exponent with
  | ofNat n =>
    refine ⟨⟨69, .absent, Bytes.ofNat n⟩, ⟨.inr rfl, hdigits n⟩, rfl, ?_⟩
    exact congrArg Int.ofNat (hvalue h)
  | negSucc n =>
    refine ⟨⟨69, .minus, Bytes.ofNat (n + 1)⟩, ⟨.inr rfl, hdigits _⟩, rfl, ?_⟩
    exact congrArg (fun k : Nat => -(k : Int)) (hvalue h)

-- The power of ten of a finite number other than zero is not far from zero.
theorem exponent_bounds {first : UInt8} {fraction : Bytes} {exponent : Int}
    (h : x.isFinite = true) (hne : x.isZero = false) (hdigit : isDigit first = true)
    (hfirst : first ≠ 48) (hf : IsFraction fraction)
    (hsize : amount [first] fraction * 10 ^ exponent = (shortest x).size) :
    exponent.natAbs < 100000 := by
  have hnearest := isNearest_shortest h
  rw [← hsize] at hnearest
  have hhigh : exponent < 400 := by
    apply exponent_of_size_lt hdigit hfirst hf
    by_contra hle
    have hinfinite := infinite_of_le hnearest (not_lt.mp hle)
    exact absurd (of_decide_eq_true h) (Nat.not_lt.mpr hinfinite)
  have hlow : -400 ≤ exponent := by
    apply exponent_of_le_size hdigit hfirst hf
    by_contra hlt
    have hzero := zero_of_le hnearest (not_le.mp hlt).le
    exact absurd hzero (of_decide_eq_false hne)
  omega

def printedNumeral (x : Double) (whole fraction : Bytes) (exponent : Option Exponent) : Numeral :=
  ⟨x.printedSign, whole, some fraction, exponent⟩

theorem valid_printedNumeral {whole fraction : Bytes} {exponent : Option Exponent}
    (hw : IsWhole whole) (hf : IsFraction fraction) (he : ∀ e ∈ exponent, e.Valid) :
    (x.printedNumeral whole fraction exponent).Valid :=
  ⟨.inr (group_of_digits hw.nonempty hw.all), .inr (group_of_digits hf.nonempty hf.all),
    .inl hw.nonempty, he⟩

theorem text_printedNumeral (x : Double) (whole fraction : Bytes) (exponent : Option Exponent) :
    (x.printedNumeral whole fraction exponent).text =
      x.signText ++ (whole ++ [46] ++ fraction ++ exponent.elim [] Exponent.text) := by
  show x.printedSign.text ++ (whole ++ (46 :: fraction ++ exponent.elim [] Exponent.text)) = _
  rw [text_printedSign]
  simp

theorem counted_printedNumeral {whole fraction : Bytes} {exponent : Option Exponent}
    (hw : IsWhole whole) (hf : IsFraction fraction) :
    (x.printedNumeral whole fraction exponent).counted =
      amount whole fraction * 10 ^ (exponent.elim 0 Exponent.counted) := by
  show amount (ungroup whole) (ungroup fraction) * _ = _
  rw [ungroup_of_digits hw.all, ungroup_of_digits hf.all]
  rfl

theorem print_of_isZero (h : x.isZero = true) : x.print = x.signText ++ [48, 46, 48] := by
  have hzero : x.magnitude = 0 := of_decide_eq_true h
  have hnan : x.isNaN = false := decide_eq_false (by rw [hzero]; exact Nat.not_lt_zero _)
  have hinfinite : x.isInfinite = false := by
    rw [isInfinite, hzero]
    decide
  simp only [print, hnan, hinfinite, h, Bool.false_eq_true, if_false, if_true]
  rfl

-- A number that is printed without an exponent is printed as digits around a point.
theorem exists_digits_print (h : x.isFinite = true)
    (hp : x.isZero = true ∨ x.isPositional = true) :
    ∃ whole fraction, x.print = x.signText ++ (whole ++ [46] ++ fraction) ∧ IsWhole whole ∧
      IsFraction fraction ∧ x.IsNearest (amount whole fraction) := by
  cases hzero : x.isZero with
  | true =>
    have hamount : amount [48] [48] = x.size := by
      rw [amount_zero, size_of_isZero hzero]
      simp [value]
    refine ⟨[48], [48], print_of_isZero hzero, isWhole_zero, isFraction_zero, ?_⟩
    rw [hamount]
    exact isNearest_size (isNaN_of_isFinite h)
  | false =>
    have hpositional : x.isPositional = true := hp.resolve_left (by simp [hzero])
    obtain ⟨whole, fraction, htext, hwhole, hfraction, hamount⟩ :=
      positional_spec (digits_shortest h hzero)
    refine ⟨whole, fraction, ?_, hwhole, hfraction, hamount ▸ isNearest_shortest h⟩
    rw [print_eq h hzero, hpositional, if_pos rfl, htext]

-- The printed form of a finite number is a numeral for a number that it is the nearest one to.
theorem exists_numeral_print (h : x.isFinite = true) :
    ∃ n : Numeral, n.Valid ∧ n.text = x.print ∧ n.sign.negative = x.negative ∧
      x.IsNearest n.counted := by
  by_cases hp : x.isZero = true ∨ x.isPositional = true
  · obtain ⟨whole, fraction, hprint, hwhole, hfraction, hnearest⟩ := exists_digits_print h hp
    refine ⟨x.printedNumeral whole fraction none, valid_printedNumeral hwhole hfraction (by simp),
      ?_, negative_printedSign x, ?_⟩
    · rw [text_printedNumeral, hprint, Option.elim_none, List.append_nil]
    · rw [counted_printedNumeral hwhole hfraction, Option.elim_none, zpow_zero, mul_one]
      exact hnearest
  · rw [not_or, Bool.not_eq_true, Bool.not_eq_true] at hp
    obtain ⟨hne, hpositional⟩ := hp
    obtain ⟨first, fraction, exponent, htext, hfirst, hzero, hfraction, hamount⟩ :=
      scientific_spec (digits_shortest h hne)
    obtain ⟨e, hvalid, hetext, hcounted⟩ :=
      exists_exponentText (exponent_bounds h hne hfirst hzero hfraction hamount)
    have hwhole : IsWhole [first] :=
      ⟨List.cons_ne_nil _ _, List.forall_mem_singleton.mpr hfirst,
        .inr fun he => hzero (Option.some.inj he)⟩
    refine ⟨x.printedNumeral [first] fraction (some e),
      valid_printedNumeral hwhole hfraction (by simpa using hvalid), ?_,
      negative_printedSign x, ?_⟩
    · rw [text_printedNumeral, print_eq h hne, hpositional, if_neg Bool.false_ne_true, htext,
        Option.elim_some, hetext]
      simp only [List.append_assoc]
    · rw [counted_printedNumeral hwhole hfraction, Option.elim_some, hcounted, hamount]
      exact isNearest_shortest h

theorem readInput?_print (h : x.isFinite = true) : readInput? x.print = some x := by
  obtain ⟨n, hn, htext, hnegative, hnearest⟩ := exists_numeral_print h
  have hblanks : Text.Blanks [] := ⟨[], rfl, by simp⟩
  rw [readInput?_eq_some_iff]
  refine ⟨[], n, [], ?_, hblanks, hblanks, hn, h, hnegative.symm, hnearest⟩
  rw [List.nil_append, List.append_nil, htext]

theorem readLiteral_digits {whole fraction : Bytes} (hw : ∀ b ∈ whole, isDigit b = true)
    (hx : x.IsNearest (amount whole fraction)) (hn : x.negative = false) :
    readLiteral (whole ++ 46 :: fraction) = x := by
  have hpoint : ∀ b ∈ (46 :: fraction : Bytes).head?, isDigit b = false := by
    rintro b ⟨⟩
    rfl
  obtain ⟨htake, hdrop⟩ := span_append hw hpoint
  rw [readLiteral, htake, hdrop, List.drop_one, List.tail_cons, ofDigits, toDouble_eq_iff,
    size_digits, zpow_zero, mul_one]
  exact ⟨hn, hx⟩

-- Printed numbers can be read back. A finite number is entered by its printed form, and if that has
-- neither a sign nor an exponent, it is a literal of the number.
theorem print_readsBack (h : x.isFinite = true) :
    readInput? x.print = some x ∧
    (x.negative = false → x.isZero = true ∨ 1 / 1000 ≤ x.size ∧ x.size < 10 ^ 7 →
      (Scan.ofSource x.print).failure = none ∧
      (Scan.ofSource x.print).listed =
        [⟨⟨x.print, 1⟩, .number x⟩, ⟨⟨[], 1⟩, .endOfInput⟩]) := by
  refine ⟨readInput?_print h, fun hn hrange => ?_⟩
  have hp := hrange.imp_right (isPositional_iff (isNaN_of_isFinite h)).mpr
  obtain ⟨whole, fraction, hprint, hwhole, hfraction, hnearest⟩ := exists_digits_print h hp
  have hsign : x.signText = [] := by
    rw [signText, hn]
    rfl
  rw [hsign, List.nil_append, List.append_assoc, List.singleton_append] at hprint
  rw [hprint, Scan.ofSource_digits hwhole.nonempty hwhole.all hfraction.all,
    readLiteral_digits hwhole.all hnearest hn]
  exact ⟨rfl, rfl⟩

-- The least number greater than zero, and a half.
theorem print_readsBack_half :
    let half : Double := readLiteral (Bytes.ofString "0.5")
    readInput? (print ⟨1⟩) = some ⟨1⟩ ∧
    (Scan.ofSource (print half)).listed =
      [⟨⟨print half, 1⟩, .number half⟩, ⟨⟨[], 1⟩, .endOfInput⟩] := by
  intro half
  have hfinite : half.isFinite = true := by decide +kernel
  have hnegative : half.negative = false := by decide +kernel
  have hpositional : half.isPositional = true := by decide +kernel
  have hrange := (isPositional_iff (isNaN_of_isFinite hfinite)).mp hpositional
  obtain ⟨-, hlex⟩ := print_readsBack hfinite
  exact ⟨(print_readsBack (x := ⟨1⟩) (by decide)).1, (hlex hnegative (.inr hrange)).2⟩

end Double

end LineBasic
