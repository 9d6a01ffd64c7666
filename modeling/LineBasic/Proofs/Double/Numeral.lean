import LineBasic.Proofs.Double.Decimal

namespace LineBasic

open Digits

-- The syntax of a number that can be entered: a sign, digits with a point, an exponent.

inductive Sign where
  | absent
  | plus
  | minus
  deriving DecidableEq, Repr

namespace Sign

def text : Sign → Bytes
  | absent => []
  | plus => [43]
  | minus => [45]

def negative : Sign → Bool
  | minus => true
  | _ => false

def apply (s : Sign) (n : Nat) : Int :=
  if s.negative then -n else n

theorem natAbs_apply (s : Sign) (n : Nat) : (s.apply n).natAbs = n := by
  unfold apply
  split <;> omega

end Sign

structure Exponent where
  mark : UInt8
  sign : Sign
  digits : Bytes
  deriving DecidableEq, Repr

structure Numeral where
  sign : Sign
  whole : Bytes
  fraction : Option Bytes
  exponent : Option Exponent
  deriving DecidableEq, Repr

-- An exponent counts by its first five digits.
def firstFive (n : Nat) : Nat :=
  if n < 100000 then n else firstFive (n / 10)

namespace Exponent

def text (e : Exponent) : Bytes :=
  e.mark :: (e.sign.text ++ e.digits)

structure Valid (e : Exponent) : Prop where
  mark : e.mark = 101 ∨ e.mark = 69
  digits : Grouped e.digits

-- The exponent as it is written, and as it counts.
def written (e : Exponent) : Int :=
  e.sign.apply (Digits.value (ungroup e.digits))

def counted (e : Exponent) : Int :=
  e.sign.apply (firstFive (Digits.value (ungroup e.digits)))

end Exponent

namespace Numeral

def fractionDigits (n : Numeral) : Bytes :=
  n.fraction.getD []

def fractionText (n : Numeral) : Bytes :=
  n.fraction.elim [] (46 :: ·)

def exponentText (n : Numeral) : Bytes :=
  n.exponent.elim [] Exponent.text

def text (n : Numeral) : Bytes :=
  n.sign.text ++ (n.whole ++ (n.fractionText ++ n.exponentText))

-- There is at least one digit, and underscores only stand between digits.
structure Valid (n : Numeral) : Prop where
  whole : n.whole = [] ∨ Grouped n.whole
  fraction : n.fractionDigits = [] ∨ Grouped n.fractionDigits
  digits : n.whole ≠ [] ∨ n.fractionDigits ≠ []
  exponent : ∀ e ∈ n.exponent, e.Valid

def writtenExponent (n : Numeral) : Int :=
  n.exponent.elim 0 Exponent.written

def countedExponent (n : Numeral) : Int :=
  n.exponent.elim 0 Exponent.counted

def significand (n : Numeral) : ℚ :=
  Decimal.amount (ungroup n.whole) (ungroup n.fractionDigits)

-- The number that is written, without its sign, and the one that counts.
def written (n : Numeral) : ℚ :=
  n.significand * 10 ^ n.writtenExponent

def counted (n : Numeral) : ℚ :=
  n.significand * 10 ^ n.countedExponent

end Numeral

theorem firstFive_of_lt {n : Nat} (h : n < 100000) : firstFive n = n := by
  rw [firstFive, if_pos h]

theorem le_firstFive {n : Nat} (h : 10000 ≤ n) : 10000 ≤ firstFive n := by
  fun_induction firstFive n with
  | case1 n _ => exact h
  | case2 n _ ih => exact ih (by omega)

theorem firstFive_mul_add {n d : Nat} (hd : d < 10) :
    firstFive (n * 10 + d) = if firstFive n < 10000 then firstFive n * 10 + d else firstFive n := by
  by_cases hn : n < 10000
  · rw [firstFive_of_lt (by omega : n < 100000), if_pos hn]
    exact firstFive_of_lt (by omega)
  · have hle := le_firstFive (Nat.le_of_not_lt hn)
    have hdiv : (n * 10 + d) / 10 = n := by omega
    rw [firstFive, if_neg (by omega), hdiv, if_neg (Nat.not_lt.mpr hle)]

namespace Numeral

variable {n : Numeral}

def symbols : Bytes :=
  [43, 45, 46, 69, 95, 101]

theorem mem_symbols_of_group {group : Bytes} (h : ∀ b ∈ group, isGrouped b = true) :
    ∀ b ∈ group, isDigit b = true ∨ b ∈ symbols := by
  intro b hb
  rcases isGrouped_iff.mp (h b hb) with hd | rfl
  · exact .inl hd
  · exact .inr (by decide)

theorem mem_text {b : UInt8} (h : n.Valid) (hb : b ∈ n.text) : isDigit b = true ∨ b ∈ symbols := by
  have hsign (s : Sign) : ∀ c ∈ s.text, c ∈ symbols := by
    cases s <;> simp [Sign.text, symbols]
  simp only [text, List.mem_append] at hb
  rcases hb with hb | hb | hb | hb
  · exact .inr (hsign _ b hb)
  · exact mem_symbols_of_group (all_of_group h.whole) b hb
  · have hfraction := mem_symbols_of_group (all_of_group h.fraction)
    unfold fractionText at hb
    unfold fractionDigits at hfraction
    cases hf : n.fraction with
    | none => simp [hf] at hb
    | some digits =>
      rw [hf] at hb hfraction
      rcases List.mem_cons.mp hb with rfl | hb
      · exact .inr (by decide)
      · exact hfraction b hb
  · unfold exponentText at hb
    cases he : n.exponent with
    | none => simp [he] at hb
    | some e =>
      rw [he] at hb
      have hvalid := h.exponent e he
      rcases List.mem_cons.mp hb with rfl | hb
      · rcases hvalid.mark with hm | hm <;> exact .inr (hm ▸ by decide)
      · rcases List.mem_append.mp hb with hb | hb
        · exact .inr (hsign _ b hb)
        · exact mem_symbols_of_group hvalid.digits.all b hb

theorem text_ne_nil (h : n.Valid) : n.text ≠ [] := by
  intro hnil
  simp only [text, List.append_eq_nil_iff] at hnil
  obtain ⟨-, hwhole, hfraction, -⟩ := hnil
  rcases h.digits with hne | hne
  · exact hne hwhole
  · unfold fractionText at hfraction
    unfold fractionDigits at hne
    cases hf : n.fraction with
    | none =>
      rw [hf] at hne
      exact hne rfl
    | some digits => simp [hf] at hfraction

-- An exponent of at most five digits counts as it is written.
theorem counted_eq_written (h : n.writtenExponent.natAbs < 100000) : n.counted = n.written := by
  have hexponent : n.countedExponent = n.writtenExponent := by
    unfold writtenExponent at h
    unfold countedExponent writtenExponent
    cases he : n.exponent with
    | none => rfl
    | some e =>
      rw [he] at h
      have hvalue : Digits.value (ungroup e.digits) < 100000 :=
        (Sign.natAbs_apply _ _).symm.trans_lt h
      show e.sign.apply (firstFive _) = e.sign.apply _
      rw [firstFive_of_lt hvalue]
  rw [counted, written, hexponent]

end Numeral

end LineBasic
