import LineBasic.Double.Decimal
import LineBasic.Proofs.Digits
import LineBasic.Proofs.Double.Nearest
import Mathlib.Tactic.FieldSimp

namespace LineBasic

namespace Decimal

open Double

variable {d : Decimal} {x : Double}

def size (d : Decimal) : ℚ :=
  d.digits * 10 ^ d.exponent

theorem negative_zero (negative : Bool) : (zero negative).negative = negative := by
  cases negative <;> rfl

theorem negative_toDouble (d : Decimal) (negative : Bool) :
    (d.toDouble negative).negative = negative := by
  unfold toDouble
  split
  · exact negative_zero negative
  · split
    · exact negative_nearest negative
    · exact negative_nearest negative

theorem isNearest_toDouble (d : Decimal) (negative : Bool) :
    (d.toDouble negative).IsNearest d.size := by
  unfold toDouble
  split
  · rename_i hzero
    have hsize : d.size = (zero negative).size := by
      rw [size_of_isZero (by cases negative <;> decide), size, hzero, Nat.cast_zero, zero_mul]
    rw [hsize]
    exact isNearest_size (by cases negative <;> decide)
  · split
    · rename_i hnonneg
      have hnearest := isNearest_nearest negative (d.digits * Nat.pow 10 d.exponent.toNat * one)
        Nat.one_pos
      have hsize : d.size =
          ((d.digits * Nat.pow 10 d.exponent.toNat * one : Nat) : ℚ) / (1 : Nat) / one := by
        have hexponent : (10 : ℚ) ^ d.exponent = 10 ^ d.exponent.toNat := by
          rw [← zpow_natCast, Int.toNat_of_nonneg hnonneg]
        rw [Nat.cast_one, div_one, Nat.cast_mul, mul_div_cancel_right₀ _ Double.one_pos.ne', size,
          hexponent, Nat.pow_eq]
        push_cast
        rfl
      rwa [hsize]
    · rename_i hneg
      have hpos : 0 < Nat.pow 10 (-d.exponent).toNat := Nat.pow_pos (by decide)
      have hnearest := isNearest_nearest negative (d.digits * one) hpos
      have hsize : d.size =
          ((d.digits * one : Nat) : ℚ) / (Nat.pow 10 (-d.exponent).toNat : Nat) / one := by
        have hexponent : (10 : ℚ) ^ d.exponent = (10 ^ (-d.exponent).toNat)⁻¹ := by
          rw [← zpow_natCast, Int.toNat_of_nonneg (by omega), zpow_neg, inv_inv]
        rw [Nat.cast_mul, div_right_comm, mul_div_cancel_right₀ _ Double.one_pos.ne', size,
          hexponent, Nat.pow_eq]
        push_cast
        rfl
      rwa [hsize]

-- What is read is the nearest number with the sign.
theorem toDouble_eq_iff {negative : Bool} :
    d.toDouble negative = x ↔ x.negative = negative ∧ x.IsNearest d.size := by
  constructor
  · rintro rfl
    exact ⟨negative_toDouble d negative, isNearest_toDouble d negative⟩
  · rintro ⟨hsign, hx⟩
    have hnegative := (negative_toDouble d negative).trans hsign.symm
    exact (isNearest_toDouble d negative).unique hx hnegative

-- The number that digits with a point between them stand for.
def amount (whole fraction : Bytes) : ℚ :=
  Digits.value whole + Digits.value fraction / 10 ^ fraction.length

theorem size_digits (whole fraction : Bytes) (exponent : Int) :
    size ⟨Digits.value (whole ++ fraction), exponent - fraction.length⟩ =
      amount whole fraction * 10 ^ exponent := by
  have hten : (10 : ℚ) ≠ 0 := by norm_num
  rw [size, amount, Digits.value_append, zpow_sub₀ hten, zpow_natCast]
  push_cast
  field_simp

-- What is far away is infinite, and what is near to zero is zero.
theorem infinite_of_le {v : ℚ} (hx : x.IsNearest v) (h : 10 ^ (400 : Int) ≤ v) :
    infinityBits ≤ x.magnitude := by
  have hinfinite : (toDouble ⟨1, 400⟩ false).magnitude = infinityBits := by decide +kernel
  have hnearest := isNearest_toDouble ⟨1, 400⟩ false
  rw [size, Nat.cast_one, one_mul] at hnearest
  rw [← hinfinite]
  exact hnearest.magnitude_le hx h

theorem zero_of_le {v : ℚ} (hx : x.IsNearest v) (h : v ≤ 10 ^ (-400 : Int)) : x.magnitude = 0 := by
  have hzero : (toDouble ⟨1, -400⟩ false).magnitude = 0 := by decide +kernel
  have hnearest := isNearest_toDouble ⟨1, -400⟩ false
  rw [size, Nat.cast_one, one_mul] at hnearest
  have hle := hx.magnitude_le hnearest h
  rw [hzero] at hle
  exact Nat.le_zero.mp hle

theorem size_strip (fuel : Nat) (d : Decimal) : (strip fuel d).size = d.size := by
  induction fuel generalizing d with
  | zero => rfl
  | succ fuel ih =>
    unfold strip
    split
    · rename_i hzero
      have hdigits : d.digits = d.digits / 10 * 10 := by omega
      have hcast : (d.digits : ℚ) = (d.digits / 10 : Nat) * 10 := by exact_mod_cast hdigits
      rw [ih, size, size, zpow_add_one₀ (by norm_num), hcast]
      ring
    · rfl

theorem digits_strip {fuel : Nat} (hne : d.digits ≠ 0) (hlt : d.digits < 10 ^ fuel) :
    (strip fuel d).digits % 10 ≠ 0 := by
  induction fuel generalizing d with
  | zero =>
    rw [Nat.pow_zero] at hlt
    omega
  | succ fuel ih =>
    unfold strip
    split
    · rename_i hzero
      rw [Nat.pow_succ] at hlt
      exact ih (d := ⟨d.digits / 10, d.exponent + 1⟩) (by dsimp only; omega) (by dsimp only; omega)
    · assumption

theorem lt_pow_length {n : Nat} (h : n ≠ 0) : n < 10 ^ length n := by
  have hlt := Bytes.lt_pow_length_ofNat n
  rw [Bytes.ofNat, List.length_map] at hlt
  rwa [length, if_neg h]

theorem size_exact (x : Double) : (exact x).size = x.size := by
  obtain ⟨places, hplaces, hone⟩ := one_eq_two_pow
  have hexponent : (-1074 : Int) = -(places : Int) := by omega
  have hexact : exact x = ⟨x.units * Nat.pow 5 places, -(places : Int)⟩ := by
    rw [exact, ← hplaces, hexponent]
  rw [hexact, size, Double.size, hone, zpow_neg, zpow_natCast, ← div_eq_mul_inv, div_eq_div_iff
    (pow_ne_zero _ (by norm_num)) (Nat.cast_ne_zero.mpr (Nat.ne_of_gt (Nat.two_pow_pos _)))]
  push_cast
  rw [mul_assoc, Nat.pow_eq, Nat.cast_pow, ← mul_pow]
  norm_num

theorem exact_readsBack (h : x.isNaN = false) : (exact x).toDouble x.negative = x := by
  rw [toDouble_eq_iff, size_exact]
  exact ⟨rfl, isNearest_size h⟩

theorem onGrid?_readsBack {exponent : Int} (h : onGrid? x exponent = some d) :
    d.toDouble x.negative = x := by
  unfold onGrid? at h
  dsimp only at h
  split at h
  · cases h
  · rename_i hlow _
    cases h
    exact of_decide_eq_true hlow
  · rename_i _ hhigh
    cases h
    exact of_decide_eq_true hhigh
  · rename_i hlow hhigh
    split at h
    · cases h
      exact of_decide_eq_true hlow
    · cases h
      exact of_decide_eq_true hhigh
    · cases h
      rcases Nat.mod_two_eq_zero_or_one (below x.units exponent) with he | he
      · rw [he]
        exact of_decide_eq_true hlow
      · rw [he]
        exact of_decide_eq_true hhigh

theorem search_readsBack (h : x.isNaN = false) (fuel : Nat) (exponent : Int) :
    (search x fuel exponent).toDouble x.negative = x := by
  induction fuel generalizing exponent with
  | zero => exact exact_readsBack h
  | succ fuel ih =>
    unfold search
    split
    · rename_i hgrid
      exact onGrid?_readsBack hgrid
    · exact ih _

theorem shortest_readsBack (h : x.isFinite = true) : (shortest x).toDouble x.negative = x := by
  have hsearch := search_readsBack (isNaN_of_isFinite h) 17 (leading x.units)
  rw [toDouble_eq_iff] at hsearch ⊢
  rwa [shortest, size_strip]

theorem digits_search (h : x.isFinite = true) (hne : x.isZero = false) (fuel : Nat)
    (exponent : Int) : (search x fuel exponent).digits ≠ 0 := by
  intro hzero
  have hsearch := search_readsBack (isNaN_of_isFinite h) fuel exponent
  rw [toDouble, if_pos hzero] at hsearch
  rw [← hsearch] at hne
  revert hne
  cases x.negative <;> decide

theorem digits_shortest (h : x.isFinite = true) (hne : x.isZero = false) :
    (shortest x).digits % 10 ≠ 0 :=
  have hdigits := digits_search h hne 17 (leading x.units)
  digits_strip hdigits (lt_pow_length hdigits)

end Decimal

end LineBasic
