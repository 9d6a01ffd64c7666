import LineBasic.Proofs.Double.Grid

namespace LineBasic.Double

def Denotes (x : Double) (n : Int) : Prop :=
  x.isFinite = true ∧ x.signedUnits = n * one

variable {negative : Bool} {magnitude : Nat}

theorem toNat_ofMagnitude (h : magnitude < signPlace) :
    (ofMagnitude negative magnitude).bits.toNat =
      if negative then magnitude + signPlace else magnitude := by
  unfold signPlace at h ⊢
  rw [ofMagnitude, UInt64.toNat_ofNat']
  apply Nat.mod_eq_of_lt
  unfold signPlace
  split <;> omega

theorem magnitude_ofMagnitude (h : magnitude < signPlace) :
    (ofMagnitude negative magnitude).magnitude = magnitude := by
  rw [Double.magnitude, toNat_ofMagnitude h]
  split
  · rw [Nat.add_mod_right, Nat.mod_eq_of_lt h]
  · exact Nat.mod_eq_of_lt h

theorem negative_ofMagnitude (h : magnitude < signPlace) :
    (ofMagnitude negative magnitude).negative = negative := by
  rw [Double.negative, toNat_ofMagnitude h]
  cases negative <;> simp [h]

theorem units_of_magnitude {x : Double} {shift significand : Nat}
    (hx : x.magnitude = shift * fractions + significand) (hlow : fractions ≤ significand)
    (hhigh : significand < 2 * fractions) : x.units = significand * 2 ^ shift := by
  rw [units_eq, hx, unitsAt_place (Nat.le_of_lt hhigh) (.inr hlow)]

theorem roundDiv_mul (quotient : Nat) {denominator : Nat} (h : 0 < denominator) :
    roundDiv (quotient * denominator) denominator = quotient := by
  rw [roundDiv, Nat.mul_div_cancel _ h, Nat.mul_mod_left]
  simp [h]

theorem log2_mul_two_pow {n : Nat} (h : n ≠ 0) (places : Nat) :
    (n * 2 ^ places).log2 = n.log2 + places := by
  induction places with
  | zero => rw [Nat.pow_zero, Nat.mul_one, Nat.add_zero]
  | succ places ih =>
    have hne : n * 2 ^ places ≠ 0 := Nat.mul_ne_zero h (Nat.ne_of_gt (Nat.two_pow_pos places))
    rw [Nat.pow_succ', Nat.mul_left_comm, Nat.log2_two_mul hne, ih, Nat.add_assoc]

-- The exponent has a name so that the power is not worked out.
theorem one_eq_two_pow : ∃ places, places = 1074 ∧ one = 2 ^ places := by
  unfold one
  generalize 1074 = places
  exact ⟨places, rfl, Nat.pow_eq⟩

theorem significand_range {n : Nat} (h : n ≠ 0) (hn : n < 2 ^ 53) :
    fractions ≤ n * 2 ^ (52 - n.log2) ∧ n * 2 ^ (52 - n.log2) < 2 * fractions := by
  have hbits : n.log2 < 53 := (Nat.log2_lt h).mpr hn
  have hfractions : 2 ^ n.log2 * 2 ^ (52 - n.log2) = fractions := by
    have hsum : n.log2 + (52 - n.log2) = 52 := by omega
    rw [← Nat.pow_add, hsum]
    rfl
  constructor
  · rw [← hfractions]
    exact Nat.mul_le_mul_right _ (Nat.log2_self_le h)
  · rw [← hfractions, ← Nat.mul_assoc, ← Nat.pow_succ']
    exact Nat.mul_lt_mul_of_pos_right Nat.lt_log2_self (Nat.two_pow_pos _)

def wholeMagnitude (n : Nat) : Nat :=
  (n.log2 + 1022) * fractions + n * 2 ^ (52 - n.log2)

theorem wholeMagnitude_lt {n : Nat} (h : n ≠ 0) (hn : n < 2 ^ 53) :
    wholeMagnitude n < infinityBits := by
  have hbits : n.log2 < 53 := (Nat.log2_lt h).mpr hn
  have hshift : (n.log2 + 1022) * fractions ≤ 1074 * fractions :=
    Nat.mul_le_mul_right _ (by omega)
  obtain ⟨-, hhigh⟩ := significand_range h hn
  unfold wholeMagnitude infinityBits
  omega

theorem nearest_mul_one {n : Nat} (h : n ≠ 0) (hn : n < 2 ^ 53) (negative : Bool) :
    nearest negative (n * one) 1 = ofMagnitude negative (wholeMagnitude n) := by
  obtain ⟨places, hplaces, hone⟩ := one_eq_two_pow
  have hbits : n.log2 < 53 := (Nat.log2_lt h).mpr hn
  have hshift : (n * one / 1).log2 - 52 = n.log2 + 1022 := by
    rw [Nat.div_one, hone, log2_mul_two_pow h]
    omega
  have hexact : n * one = n * 2 ^ (52 - n.log2) * 2 ^ (n.log2 + 1022) := by
    have hsum : 52 - n.log2 + (n.log2 + 1022) = places := by omega
    rw [Nat.mul_assoc, ← Nat.pow_add, hsum, hone]
  have hround : roundDiv (n * one) (1 * Nat.pow 2 (n.log2 + 1022)) = n * 2 ^ (52 - n.log2) := by
    rw [Nat.pow_eq, Nat.one_mul, hexact, roundDiv_mul _ (Nat.two_pow_pos _)]
  rw [nearest, hshift, hround]
  exact congrArg _ (Nat.min_eq_left (Nat.le_of_lt (wholeMagnitude_lt h hn)))

theorem units_of_wholeMagnitude {x : Double} {n : Nat} (h : n ≠ 0) (hn : n < 2 ^ 53)
    (hx : x.magnitude = wholeMagnitude n) : x.units = n * one := by
  obtain ⟨places, hplaces, hone⟩ := one_eq_two_pow
  have hbits : n.log2 < 53 := (Nat.log2_lt h).mpr hn
  have hsum : 52 - n.log2 + (n.log2 + 1022) = places := by omega
  obtain ⟨hlow, hhigh⟩ := significand_range h hn
  rw [units_of_magnitude hx hlow hhigh, Nat.mul_assoc, ← Nat.pow_add, hsum, hone]

theorem denotes_ofInt {n : Int} (hn : n.natAbs < 2 ^ 53) : (ofInt n).Denotes n := by
  by_cases hzero : n.natAbs = 0
  · obtain rfl := Int.natAbs_eq_zero.mp hzero
    constructor <;> decide +kernel
  · have hfinite := wholeMagnitude_lt hzero hn
    have hplace : wholeMagnitude n.natAbs < signPlace := Nat.lt_trans hfinite (by decide)
    have hbits : ofInt n = ofMagnitude (decide (n < 0)) (wholeMagnitude n.natAbs) :=
      nearest_mul_one hzero hn _
    have hmagnitude : (ofInt n).magnitude = wholeMagnitude n.natAbs := by
      rw [hbits, magnitude_ofMagnitude hplace]
    have hnegative : (ofInt n).negative = decide (n < 0) := by
      rw [hbits, negative_ofMagnitude hplace]
    constructor
    · rw [isFinite, hmagnitude]
      exact decide_eq_true hfinite
    · rw [signedUnits, hnegative, units_of_wholeMagnitude hzero hn hmagnitude, Int.natCast_mul]
      split
      · rename_i hlt
        have hn : n = -n.natAbs := by
          have := of_decide_eq_true hlt
          omega
        rw [← Int.neg_mul, ← hn]
      · rename_i hle
        have hn : (n.natAbs : Int) = n := by
          have : ¬n < 0 := by simpa using hle
          omega
        rw [hn]

end LineBasic.Double
