import LineBasic.Double
import Mathlib.Algebra.Group.Nat.Defs
import Mathlib.Order.Monotone.Basic

namespace LineBasic.Double

-- How many units a magnitude stands for.
def unitsAt (magnitude : Nat) : Nat :=
  let exponent := magnitude / fractions
  let fraction := magnitude % fractions
  if exponent = 0 then fraction else (fractions + fraction) * Nat.pow 2 (exponent - 1)

theorem units_eq (x : Double) : x.units = unitsAt x.magnitude :=
  rfl

theorem unitsAt_of_lt {magnitude : Nat} (h : magnitude < fractions) :
    unitsAt magnitude = magnitude := by
  rw [unitsAt, Nat.div_eq_of_lt h, Nat.mod_eq_of_lt h]
  rfl

theorem unitsAt_normal {shift fraction : Nat} (h : fraction < fractions) :
    unitsAt ((shift + 1) * fractions + fraction) = (fractions + fraction) * 2 ^ shift := by
  have hpos : 0 < fractions := by decide
  have hexponent : ((shift + 1) * fractions + fraction) / fractions = shift + 1 := by
    rw [Nat.mul_comm, Nat.mul_add_div hpos, Nat.div_eq_of_lt h, Nat.add_zero]
  have hfraction : ((shift + 1) * fractions + fraction) % fractions = fraction := by
    rw [Nat.mul_comm, Nat.mul_add_mod, Nat.mod_eq_of_lt h]
  rw [unitsAt, hexponent, hfraction]
  rfl

-- A significand of at most fifty-three bits counts steps of a power of two. The greatest one is the
-- least one of twice the steps.
theorem unitsAt_place {shift significand : Nat} (hhigh : significand ≤ 2 * fractions)
    (hlow : shift = 0 ∨ fractions ≤ significand) :
    unitsAt (shift * fractions + significand) = significand * 2 ^ shift := by
  by_cases hsmall : significand < fractions
  · obtain rfl := hlow.resolve_right (by omega)
    rw [Nat.zero_mul, Nat.zero_add, unitsAt_of_lt hsmall, Nat.pow_zero, Nat.mul_one]
  · by_cases hlast : significand = 2 * fractions
    · have hplace : shift * fractions + significand = (shift + 1 + 1) * fractions + 0 := by
        rw [hlast, Nat.add_mul, Nat.add_mul]
        omega
      rw [hplace, unitsAt_normal (by decide), hlast, Nat.pow_succ']
      rw [Nat.add_zero, ← Nat.mul_assoc, Nat.mul_comm fractions 2]
    · obtain ⟨fraction, rfl⟩ := Nat.exists_eq_add_of_le (Nat.le_of_not_lt hsmall)
      have hplace :
          shift * fractions + (fractions + fraction) = (shift + 1) * fractions + fraction := by
        rw [Nat.add_mul]
        omega
      rw [hplace, unitsAt_normal (by omega)]

theorem exists_place (magnitude : Nat) :
    ∃ shift significand, magnitude = shift * fractions + significand ∧
      significand < 2 * fractions ∧ (shift = 0 ∨ fractions ≤ significand) := by
  have hsplit := Nat.div_add_mod' magnitude fractions
  have hlt : magnitude % fractions < fractions := Nat.mod_lt _ (by decide)
  by_cases hzero : magnitude / fractions = 0
  · rw [hzero] at hsplit
    exact ⟨0, magnitude % fractions, by omega, by omega, .inl rfl⟩
  · obtain ⟨shift, hshift⟩ := Nat.exists_eq_succ_of_ne_zero hzero
    rw [hshift, Nat.succ_mul] at hsplit
    exact ⟨shift, fractions + magnitude % fractions, by omega, by omega, .inr (by omega)⟩

theorem unitsAt_strictMono : StrictMono unitsAt := by
  apply strictMono_nat_of_lt_succ
  intro magnitude
  obtain ⟨shift, significand, rfl, hlt, hlow⟩ := exists_place magnitude
  have hnext : shift * fractions + significand + 1 = shift * fractions + (significand + 1) := by
    omega
  rw [hnext, unitsAt_place (by omega) hlow, unitsAt_place (by omega) (by omega)]
  exact Nat.mul_lt_mul_of_pos_right (Nat.lt_succ_self _) (Nat.two_pow_pos shift)

theorem eq_of_magnitude {x y : Double} (hn : x.negative = y.negative)
    (hm : x.magnitude = y.magnitude) : x = y := by
  have hx : x.bits.toNat < 2 * signPlace := x.bits.toNat_lt
  have hy : y.bits.toNat < 2 * signPlace := y.bits.toNat_lt
  have hbits : x.bits.toNat = y.bits.toNat := by
    unfold negative at hn
    unfold magnitude at hm
    have hiff := decide_eq_decide.mp hn
    unfold signPlace at *
    omega
  obtain ⟨x⟩ := x
  obtain ⟨y⟩ := y
  exact congrArg Double.mk (UInt64.toNat_inj.mp hbits)

theorem magnitude_le_of_not_nan {x : Double} (h : x.isNaN = false) : x.magnitude ≤ infinityBits :=
  Nat.le_of_not_lt (of_decide_eq_false h)

theorem isNaN_of_isFinite {x : Double} (h : x.isFinite = true) : x.isNaN = false := by
  have hlt : x.magnitude < infinityBits := of_decide_eq_true h
  exact decide_eq_false (Nat.not_lt_of_gt hlt)

theorem infinityBits_lt : infinityBits < signPlace := by
  decide

end LineBasic.Double
