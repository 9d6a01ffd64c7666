import LineBasic.Double.Read
import LineBasic.Proofs.Double.Numeral
import LineBasic.Proofs.Text.Trim

namespace LineBasic

open Digits Text

theorem Text.visible_digit {b : UInt8} (h : isDigit b = true) : Visible b := by
  have hrange := isDigit_iff.mp h
  exact ⟨by omega, by omega⟩

namespace Double

theorem exponentValue_eq {digits : Bytes} (h : ∀ b ∈ digits, isDigit b = true) :
    exponentValue digits = firstFive (Digits.value digits) := by
  induction digits using List.reverseRecOn with
  | nil => exact (firstFive_of_lt (by decide)).symm
  | append_singleton digits b ih =>
    have hb := isDigit_iff.mp (h b (by simp))
    have hdigits := ih fun c hc => h c (List.mem_append_left _ hc)
    rw [value_append_singleton, firstFive_mul_add (by omega), ← hdigits, exponentValue,
      List.foldl_append]
    rfl

theorem splitSign_text (sign : Sign) {rest : Bytes} (h : ∀ b ∈ rest.head?, b ≠ 45 ∧ b ≠ 43) :
    splitSign (sign.text ++ rest) = (sign.negative, rest) := by
  cases sign with
  | minus => rfl
  | plus => rfl
  | absent =>
    cases rest with
    | nil => rfl
    | cons b rest =>
      obtain ⟨hminus, hplus⟩ := h b rfl
      show splitSign (b :: rest) = _
      unfold splitSign
      split
      · rename_i heq
        cases heq
        exact (hminus rfl).elim
      · rename_i heq
        cases heq
        exact (hplus rfl).elim
      · rfl

theorem exists_sign {text rest : Bytes} {negative : Bool} (h : splitSign text = (negative, rest)) :
    ∃ sign : Sign, text = sign.text ++ rest ∧ sign.negative = negative := by
  unfold splitSign at h
  split at h
  · cases h
    exact ⟨.minus, rfl, rfl⟩
  · cases h
    exact ⟨.plus, rfl, rfl⟩
  · cases h
    exact ⟨.absent, rfl, rfl⟩

theorem not_sign_of_isDigit {b : UInt8} (h : isDigit b = true) : b ≠ 45 ∧ b ≠ 43 := by
  constructor
  · rintro rfl
    cases h
  · rintro rfl
    cases h

theorem not_sign_of_group {group : Bytes} (h : Grouped group) :
    ∀ b ∈ group.head?, b ≠ 45 ∧ b ≠ 43 := by
  obtain ⟨b, rest, rfl, hb⟩ := h.exists_digit
  rintro c ⟨⟩
  exact not_sign_of_isDigit hb

theorem readExponent?_text {e : Exponent} (h : e.Valid) :
    readExponent? e.text = some e.counted := by
  have hmark : (e.mark = 101 || e.mark = 69) = true := by simpa using h.mark
  have hsign := splitSign_text e.sign (not_sign_of_group h.digits)
  have hne : e.digits.isEmpty = false := by
    obtain ⟨b, rest, he, -⟩ := h.digits.exists_digit
    rw [he]
    rfl
  have hgroup : wellGrouped e.digits = true := wellGrouped_iff.mpr (.inr h.digits)
  have hvalue : exponentValue (ungroup e.digits) = firstFive (Digits.value (ungroup e.digits)) :=
    exponentValue_eq fun _ => isDigit_of_mem_ungroup
  simp only [Exponent.text, readExponent?, hmark, if_true, hsign, hne, hgroup, hvalue,
    Bool.not_true, Bool.or_false, Bool.false_eq_true, if_false]
  rfl

theorem exists_exponent {rest : Bytes} {value : Int} (h : readExponent? rest = some value) :
    ∃ exponent : Option Exponent, (∀ e ∈ exponent, e.Valid) ∧
      rest = exponent.elim [] Exponent.text := by
  cases rest with
  | nil => exact ⟨none, by simp, rfl⟩
  | cons mark rest =>
    cases hsplit : splitSign rest with
    | mk negative group =>
      obtain ⟨sign, hrest, -⟩ := exists_sign hsplit
      simp only [readExponent?, hsplit] at h
      split at h
      · rename_i hmark
        split at h
        · cases h
        · rename_i hgroup
          rw [Bool.or_eq_true, not_or, List.isEmpty_iff, Bool.not_eq_true', Bool.not_eq_false]
            at hgroup
          have hgroup : Grouped group := (wellGrouped_iff.mp hgroup.2).resolve_left hgroup.1
          refine ⟨some ⟨mark, sign, group⟩, ?_, congrArg (mark :: ·) hrest⟩
          rintro e ⟨⟩
          exact ⟨by simpa using hmark, hgroup⟩
      · cases h

variable {n : Numeral} {text : Bytes} {x : Double}

def ofNumeral (n : Numeral) : Double :=
  ofDigits n.sign.negative (ungroup n.whole) (ungroup n.fractionDigits) n.countedExponent

theorem ofNumeral_eq_iff :
    ofNumeral n = x ↔ x.negative = n.sign.negative ∧ x.IsNearest n.counted := by
  rw [ofNumeral, ofDigits, Decimal.toDouble_eq_iff, Decimal.size_digits]
  rfl

-- Neither a point nor the mark of an exponent goes on a group of digits.
theorem head_exponentText (h : n.Valid) :
    ∀ b ∈ n.exponentText.head?, isGrouped b = false ∧ b ≠ 46 := by
  unfold Numeral.exponentText
  cases he : n.exponent with
  | none => simp
  | some e =>
    rintro b ⟨⟩
    rcases (h.exponent e he).mark with hm | hm <;> rw [hm] <;> decide

theorem head_fractionText (h : n.Valid) :
    ∀ b ∈ (n.fractionText ++ n.exponentText).head?, isGrouped b = false := by
  unfold Numeral.fractionText
  cases n.fraction with
  | none => exact fun b hb => (head_exponentText h b hb).1
  | some digits =>
    rintro b ⟨⟩
    rfl

theorem readExponent?_exponentText (h : n.Valid) :
    readExponent? n.exponentText = some n.countedExponent := by
  unfold Numeral.exponentText Numeral.countedExponent
  cases he : n.exponent with
  | none => rfl
  | some e => exact readExponent?_text (h.exponent e he)

theorem not_sign_unsigned (h : n.Valid) :
    ∀ b ∈ (n.whole ++ (n.fractionText ++ n.exponentText)).head?, b ≠ 45 ∧ b ≠ 43 := by
  rcases h.whole with hw | hw
  · have hfraction := h.digits.resolve_left (fun hne => hne hw)
    rw [hw, List.nil_append]
    unfold Numeral.fractionText
    unfold Numeral.fractionDigits at hfraction
    cases hf : n.fraction with
    | none =>
      rw [hf] at hfraction
      exact (hfraction rfl).elim
    | some digits =>
      rintro b ⟨⟩
      decide
  · obtain ⟨b, rest, he, hb⟩ := hw.exists_digit
    rw [he]
    rintro c ⟨⟩
    exact not_sign_of_isDigit hb

-- The digits after a point, if there is one, and what follows.
def splitFraction (text : Bytes) : Bytes × Bytes :=
  if text.head? == some 46 then
    ((text.drop 1).takeWhile isGrouped, (text.drop 1).dropWhile isGrouped)
  else ([], text)

theorem splitFraction_text (h : n.Valid) :
    splitFraction (n.fractionText ++ n.exponentText) = (n.fractionDigits, n.exponentText) := by
  unfold splitFraction Numeral.fractionText
  cases hf : n.fraction with
  | none =>
    have hpoint : (n.exponentText.head? == some 46) = false := by
      rw [beq_eq_false_iff_ne]
      exact fun he => (head_exponentText h 46 he).2 rfl
    simp [hpoint, Numeral.fractionDigits, hf]
  | some digits =>
    have hall := all_of_group h.fraction
    simp only [Numeral.fractionDigits, hf, Option.getD_some] at hall ⊢
    obtain ⟨htake, hdrop⟩ := span_append hall fun b hb => (head_exponentText h b hb).1
    simp [htake, hdrop]

theorem exists_fraction {text digits rest : Bytes} (h : splitFraction text = (digits, rest)) :
    ∃ fraction : Option Bytes, fraction.getD [] = digits ∧
      text = fraction.elim [] (46 :: ·) ++ rest := by
  unfold splitFraction at h
  split at h
  · rename_i hpoint
    cases h
    cases text with
    | nil => cases hpoint
    | cons b more =>
      obtain rfl : b = 46 := by simpa using hpoint
      exact ⟨some _, rfl, congrArg (46 :: ·) List.takeWhile_append_dropWhile.symm⟩
  · cases h
    exact ⟨none, rfl, rfl⟩

theorem readDecimal?_eq {text unsigned whole fraction rest : Bytes} {negative : Bool}
    (hsign : splitSign text = (negative, unsigned)) (hwhole : unsigned.takeWhile isGrouped = whole)
    (hfraction : splitFraction (unsigned.dropWhile isGrouped) = (fraction, rest)) :
    readDecimal? text =
      if (ungroup (whole ++ fraction)).isEmpty || !wellGrouped whole || !wellGrouped fraction then
        none
      else (readExponent? rest).map (ofDigits negative (ungroup whole) (ungroup fraction)) := by
  unfold splitFraction at hfraction
  simp only [readDecimal?, hsign, hwhole]
  split at hfraction
  · rename_i hpoint
    cases hfraction
    simp only [hpoint, if_true]
  · rename_i hpoint
    cases hfraction
    simp only [hpoint, Bool.false_eq_true, if_false]

theorem readDecimal?_text (h : n.Valid) : readDecimal? n.text = some (ofNumeral n) := by
  have hsign := splitSign_text n.sign (not_sign_unsigned h)
  obtain ⟨htake, hdrop⟩ := span_append (all_of_group h.whole) (head_fractionText h)
  have hsplit := splitFraction_text h
  have hdigits : (ungroup (n.whole ++ n.fractionDigits)).isEmpty = false := by
    rw [ungroup_append, List.isEmpty_eq_false_iff]
    rcases h.digits with hne | hne
    · simp [(h.whole.resolve_left hne).ungroup_ne_nil]
    · simp [(h.fraction.resolve_left hne).ungroup_ne_nil]
  have hwhole : wellGrouped n.whole = true := wellGrouped_iff.mpr h.whole
  have hfraction : wellGrouped n.fractionDigits = true := wellGrouped_iff.mpr h.fraction
  rw [← hdrop] at hsplit
  rw [Numeral.text, readDecimal?_eq hsign htake hsplit, readExponent?_exponentText h, hdigits,
    hwhole, hfraction]
  rfl

theorem exists_numeral (h : readDecimal? text = some x) :
    ∃ n : Numeral, n.Valid ∧ text = n.text := by
  cases hsign : splitSign text with
  | mk negative unsigned =>
    cases hsplit : splitFraction (unsigned.dropWhile isGrouped) with
    | mk digits rest =>
      rw [readDecimal?_eq hsign rfl hsplit] at h
      obtain ⟨sign, htext, -⟩ := exists_sign hsign
      obtain ⟨fraction, hdigits, hfraction⟩ := exists_fraction hsplit
      split at h
      · cases h
      · rename_i hvalid
        simp only [Bool.or_eq_true, not_or, Bool.not_eq_true', Bool.not_eq_false, List.isEmpty_iff]
          at hvalid
        obtain ⟨⟨hne, hwhole⟩, hgroup⟩ := hvalid
        obtain ⟨value, hread, -⟩ := Option.map_eq_some_iff.mp h
        obtain ⟨exponent, hexponent, hrest⟩ := exists_exponent hread
        have hunsigned := List.takeWhile_append_dropWhile (p := isGrouped) (l := unsigned)
        have hsome : unsigned.takeWhile isGrouped ≠ [] ∨ digits ≠ [] := by
          by_contra hnone
          rw [not_or, not_not, not_not] at hnone
          rw [hnone.1, hnone.2] at hne
          exact hne rfl
        refine ⟨⟨sign, unsigned.takeWhile isGrouped, fraction, exponent⟩,
          ⟨wellGrouped_iff.mp hwhole, ?_, ?_, hexponent⟩, ?_⟩
        · rw [Numeral.fractionDigits, hdigits]
          exact wellGrouped_iff.mp hgroup
        · rw [Numeral.fractionDigits, hdigits]
          exact hsome
        · rw [htext, Numeral.text, Numeral.fractionText, Numeral.exponentText, ← hrest, ← hfraction,
            hunsigned]

-- A text is written in one way only, but for a plus in front.
theorem numeral_unique {n' : Numeral} (h : n.Valid) (h' : n'.Valid) (htext : n.text = n'.text) :
    n.sign.negative = n'.sign.negative ∧ n.whole = n'.whole ∧
      n.fractionDigits = n'.fractionDigits ∧ n.exponentText = n'.exponentText := by
  have hsign := splitSign_text n.sign (not_sign_unsigned h)
  have hsign' := splitSign_text n'.sign (not_sign_unsigned h')
  rw [← Numeral.text] at hsign hsign'
  rw [htext, hsign', Prod.mk.injEq] at hsign
  obtain ⟨hnegative, hunsigned⟩ := hsign
  obtain ⟨htake, hdrop⟩ := span_append (all_of_group h.whole) (head_fractionText h)
  obtain ⟨htake', hdrop'⟩ := span_append (all_of_group h'.whole) (head_fractionText h')
  have hsplit := splitFraction_text h
  rw [← hdrop, ← hunsigned, hdrop', splitFraction_text h', Prod.mk.injEq] at hsplit
  rw [← hunsigned, htake'] at htake
  exact ⟨hnegative.symm, htake.symm, hsplit.1.symm, hsplit.2.symm⟩

theorem writtenExponent_unique {n' : Numeral} (h : n.Valid) (h' : n'.Valid)
    (htext : n.exponentText = n'.exponentText) : n.writtenExponent = n'.writtenExponent := by
  unfold Numeral.exponentText at htext
  unfold Numeral.writtenExponent
  cases he : n.exponent with
  | none =>
    cases he' : n'.exponent with
    | none => rfl
    | some e' =>
      rw [he, he'] at htext
      cases htext
  | some e =>
    cases he' : n'.exponent with
    | none =>
      rw [he, he'] at htext
      cases htext
    | some e' =>
      rw [he, he'] at htext
      have hrest : e.sign.text ++ e.digits = e'.sign.text ++ e'.digits := (List.cons.inj htext).2
      have hsign := splitSign_text e.sign (not_sign_of_group (h.exponent e he).digits)
      rw [hrest, splitSign_text e'.sign (not_sign_of_group (h'.exponent e' he').digits),
        Prod.mk.injEq] at hsign
      show e.sign.apply _ = e'.sign.apply _
      rw [Sign.apply, Sign.apply, hsign.1, hsign.2]

theorem written_unique {n' : Numeral} (h : n.Valid) (h' : n'.Valid) (htext : n.text = n'.text) :
    n.written = n'.written := by
  obtain ⟨-, hwhole, hfraction, hexponent⟩ := numeral_unique h h' htext
  rw [Numeral.written, Numeral.written, Numeral.significand, Numeral.significand, hwhole, hfraction,
    writtenExponent_unique h h' hexponent]

-- The texts that are read are the numerals.
theorem readDecimal?_eq_some_iff :
    readDecimal? text = some x ↔ ∃ n : Numeral, n.Valid ∧ text = n.text ∧ ofNumeral n = x := by
  constructor
  · intro h
    obtain ⟨n, hn, rfl⟩ := exists_numeral h
    rw [readDecimal?_text hn] at h
    exact ⟨n, hn, rfl, Option.some.inj h⟩
  · rintro ⟨n, hn, rfl, rfl⟩
    exact readDecimal?_text hn

theorem readFinite?_eq_some_iff : readFinite? text = some x ↔
    ∃ n : Numeral, n.Valid ∧ text = n.text ∧ x.isFinite = true ∧ x.negative = n.sign.negative ∧
      x.IsNearest n.counted := by
  rw [readFinite?, Option.filter_eq_some_iff, readDecimal?_eq_some_iff]
  constructor
  · rintro ⟨⟨n, hn, htext, hx⟩, hfinite⟩
    exact ⟨n, hn, htext, hfinite, ofNumeral_eq_iff.mp hx⟩
  · rintro ⟨n, hn, htext, hfinite, hx⟩
    exact ⟨⟨n, hn, htext, ofNumeral_eq_iff.mpr hx⟩, hfinite⟩

variable {line : Bytes}

theorem visible_symbol {b : UInt8} (h : b ∈ Numeral.symbols) : Visible b := by
  simp only [Numeral.symbols, List.mem_cons, List.not_mem_nil, or_false] at h
  rcases h with rfl | rfl | rfl | rfl | rfl | rfl <;> exact ⟨by decide, by decide⟩

theorem visible_numeral (h : n.Valid) : ∀ b ∈ n.text, Visible b := by
  intro b hb
  rcases Numeral.mem_text h hb with hd | hs
  · exact visible_digit hd
  · exact visible_symbol hs

theorem trim_numeral (h : n.Valid) {before after : Bytes} (hb : Blanks before) (ha : Blanks after) :
    trim (before ++ n.text ++ after) = n.text :=
  trim_eq hb ha (visible_numeral h) (Numeral.text_ne_nil h)

theorem readInput?_eq_some_iff : readInput? line = some x ↔
    ∃ before n after, line = before ++ Numeral.text n ++ after ∧ Blanks before ∧ Blanks after ∧
      n.Valid ∧ x.isFinite = true ∧ x.negative = n.sign.negative ∧ x.IsNearest n.counted := by
  rw [readInput?, readFinite?_eq_some_iff]
  constructor
  · rintro ⟨n, hn, htext, hx⟩
    obtain ⟨before, after, hline, hb, ha⟩ := exists_trim line
    rw [htext] at hline
    exact ⟨before, n, after, hline, hb, ha, hn, hx⟩
  · rintro ⟨before, n, after, rfl, hb, ha, hn, hx⟩
    exact ⟨n, hn, trim_numeral hn hb ha, hx⟩

theorem readInput?_letter {b : UInt8} (hb : b ∈ line)
    (hletter : 65 ≤ b.toNat ∧ b.toNat ≤ 90 ∨ 97 ≤ b.toNat ∧ b.toNat ≤ 122)
    (hmark : b ≠ 69 ∧ b ≠ 101) : readInput? line = none := by
  cases hread : readInput? line with
  | none => rfl
  | some x =>
    exfalso
    obtain ⟨before, n, after, rfl, hbefore, hafter, hn, -⟩ := readInput?_eq_some_iff.mp hread
    have hvisible : Visible b := ⟨by omega, by omega⟩
    rcases List.mem_append.mp hb with hb | hb
    · rcases List.mem_append.mp hb with hb | hb
      · exact hbefore.not_visible hb hvisible
      · rcases Numeral.mem_text hn hb with hd | hs
        · have := isDigit_iff.mp hd
          omega
        · simp only [Numeral.symbols, List.mem_cons, List.not_mem_nil, or_false] at hs
          rcases hs with rfl | rfl | rfl | rfl | rfl | rfl <;> simp at hletter hmark
    · exact hafter.not_visible hb hvisible

end Double

end LineBasic
