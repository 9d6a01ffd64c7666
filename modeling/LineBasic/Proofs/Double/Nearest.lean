import LineBasic.Proofs.Double.Integer
import Mathlib.Tactic.Linarith
import Mathlib.Tactic.Positivity
import Mathlib.Tactic.Ring

namespace LineBasic.Double

-- How far a number is from zero. An infinity counts as the power of two that comes after the
-- greatest finite number.
def size (x : Double) : ℚ :=
  x.units / one

-- A number is the nearest one to a distance from zero. Of two that are equally near it is the one
-- with the even fraction.
structure IsNearest (x : Double) (v : ℚ) : Prop where
  number : x.isNaN = false
  closest : ∀ y : Double, y.isNaN = false → |x.size - v| ≤ |y.size - v|
  even : ∀ y : Double, y.isNaN = false → y.size ≠ x.size → |y.size - v| = |x.size - v| →
    x.magnitude % 2 = 0

def place (magnitude : Nat) : ℚ :=
  unitsAt magnitude / one

theorem size_eq (x : Double) : x.size = place x.magnitude :=
  rfl

theorem one_pos : (0 : ℚ) < one := by
  obtain ⟨places, -, hone⟩ := one_eq_two_pow
  rw [hone]
  exact Nat.cast_pos.mpr (Nat.two_pow_pos places)

theorem place_strictMono : StrictMono place := by
  intro m k h
  exact div_lt_div_of_pos_right (Nat.cast_lt.mpr (unitsAt_strictMono h)) one_pos

structure Closest (m : Nat) (v : ℚ) : Prop where
  le : m ≤ infinityBits
  closest : ∀ k ≤ infinityBits, |place m - v| ≤ |place k - v|
  even : ∀ k ≤ infinityBits, k ≠ m → |place k - v| = |place m - v| → m % 2 = 0

theorem isNearest_iff {x : Double} {v : ℚ} : x.IsNearest v ↔ Closest x.magnitude v := by
  have hnumber (y : Double) : y.isNaN = false ↔ y.magnitude ≤ infinityBits := by
    simp [isNaN]
  have hmagnitude {k : Nat} (hk : k ≤ infinityBits) :
      (ofMagnitude false k).magnitude = k :=
    magnitude_ofMagnitude (Nat.lt_of_le_of_lt hk infinityBits_lt)
  constructor
  · intro h
    refine ⟨(hnumber x).mp h.number, fun k hk => ?_, fun k hk hne heq => ?_⟩
    · have hclosest := h.closest (ofMagnitude false k) ((hnumber _).mpr (by rwa [hmagnitude hk]))
      rwa [size_eq, size_eq, hmagnitude hk] at hclosest
    · refine h.even (ofMagnitude false k) ((hnumber _).mpr (by rwa [hmagnitude hk])) ?_ ?_
      · rw [size_eq, size_eq, hmagnitude hk]
        exact fun he => hne (place_strictMono.injective he)
      · rwa [size_eq, size_eq, hmagnitude hk]
  · intro h
    refine ⟨(hnumber x).mpr h.le, fun y hy => h.closest _ ((hnumber y).mp hy), ?_⟩
    intro y hy hne heq
    exact h.even _ ((hnumber y).mp hy) (fun he => hne (congrArg place he)) heq

section Bracket

variable {a m : Nat} {v : ℚ}

-- Of the two magnitudes around a distance, one is chosen: the nearer one, or the even one if they
-- are equally near.
inductive Chosen (a : Nat) (v : ℚ) : Nat → Prop where
  | lower (h : 2 * v < place a + place (a + 1)) : Chosen a v a
  | upper (h : place a + place (a + 1) < 2 * v) : Chosen a v (a + 1)
  | tie (h : 2 * v = place a + place (a + 1)) : Chosen a v (a + a % 2)

theorem distance (hlow : place a ≤ v) (hhigh : v < place (a + 1)) (k : Nat) :
    (k ≤ a ∧ |place k - v| = v - place k) ∨ (a + 1 ≤ k ∧ |place k - v| = place k - v) := by
  rcases Nat.lt_or_ge a k with hk | hk
  · have hplace := place_strictMono.monotone hk
    exact .inr ⟨hk, abs_of_nonneg (by linarith)⟩
  · have hplace := place_strictMono.monotone hk
    rw [abs_of_nonpos (by linarith)]
    exact .inl ⟨hk, by ring⟩

theorem Chosen.distance_le (hc : Chosen a v m) (hlow : place a ≤ v) (hhigh : v < place (a + 1)) :
    |place m - v| ≤ v - place a ∧ |place m - v| ≤ place (a + 1) - v := by
  cases hc with
  | lower h =>
    rw [abs_of_nonpos (by linarith)]
    constructor <;> linarith
  | upper h =>
    rw [abs_of_nonneg (by linarith)]
    constructor <;> linarith
  | tie h =>
    rcases Nat.mod_two_eq_zero_or_one a with he | he
    · rw [he, Nat.add_zero, abs_of_nonpos (by linarith)]
      constructor <;> linarith
    · rw [he, abs_of_nonneg (by linarith)]
      constructor <;> linarith

-- Another magnitude is as near only if both are equally near, and then the even one is chosen.
theorem Chosen.even (hc : Chosen a v m) (hlow : place a ≤ v) (hhigh : v < place (a + 1)) {k : Nat}
    (hne : k ≠ m) (heq : |place k - v| = |place m - v|) : m % 2 = 0 := by
  have hbelow {k : Nat} (h : k < a) : place k < place a := place_strictMono h
  have habove {k : Nat} (h : a + 1 < k) : place (a + 1) < place k := place_strictMono h
  cases hc with
  | lower h =>
    rw [abs_of_nonpos (by linarith : place a - v ≤ 0)] at heq
    rcases distance hlow hhigh k with ⟨hk, hd⟩ | ⟨hk, hd⟩
    · have := hbelow (Nat.lt_of_le_of_ne hk hne)
      linarith
    · have := place_strictMono.monotone hk
      linarith
  | upper h =>
    rw [abs_of_nonneg (by linarith : 0 ≤ place (a + 1) - v)] at heq
    rcases distance hlow hhigh k with ⟨hk, hd⟩ | ⟨hk, hd⟩
    · have := place_strictMono.monotone hk
      linarith
    · have := habove (Nat.lt_of_le_of_ne hk (Ne.symm hne))
      linarith
  | tie h => omega

-- Past the greatest finite number the infinity takes the place of what is chosen.
theorem Chosen.closest (hc : Chosen a v m) (hlow : place a ≤ v) (hhigh : v < place (a + 1)) :
    Closest (min m infinityBits) v := by
  obtain ⟨hleft, hright⟩ := hc.distance_le hlow hhigh
  rcases Nat.lt_or_ge infinityBits m with hm | hm
  · have ha : infinityBits ≤ a := by cases hc <;> omega
    have hv := place_strictMono.monotone ha
    have hdist {k : Nat} (hk : k ≤ infinityBits) : |place k - v| = v - place k := by
      have := place_strictMono.monotone hk
      rw [abs_of_nonpos (by linarith)]
      ring
    rw [Nat.min_eq_right (Nat.le_of_lt hm)]
    refine ⟨Nat.le_refl _, fun k hk => ?_, fun k hk hne heq => ?_⟩
    · have := place_strictMono.monotone hk
      rw [hdist hk, hdist (Nat.le_refl _)]
      linarith
    · rw [hdist hk, hdist (Nat.le_refl _)] at heq
      exact absurd (place_strictMono.injective (by linarith)) hne
  · rw [Nat.min_eq_left hm]
    refine ⟨hm, fun k _ => ?_, fun k _ hne heq => hc.even hlow hhigh hne heq⟩
    rcases distance hlow hhigh k with ⟨hk, hd⟩ | ⟨hk, hd⟩
    · have := place_strictMono.monotone hk
      linarith
    · have := place_strictMono.monotone hk
      linarith

end Bracket

section Rounding

variable {numerator denominator : Nat}

theorem shift_spec {shift : Nat} (hshift : shift = (numerator / denominator).log2 - 52) :
    numerator / (denominator * 2 ^ shift) < 2 * fractions ∧
      (shift = 0 ∨ fractions ≤ numerator / (denominator * 2 ^ shift)) := by
  rw [← Nat.div_div_eq_div_mul]
  have hpos : 0 < 2 ^ shift := Nat.two_pow_pos shift
  have hlt : numerator / denominator < 2 ^ ((numerator / denominator).log2 + 1) := Nat.lt_log2_self
  have htop : (2 : Nat) ^ 53 = 2 * fractions := by decide
  have hbottom : (2 : Nat) ^ 52 = fractions := by decide
  constructor
  · have hle : 2 ^ ((numerator / denominator).log2 + 1) ≤ 2 ^ (53 + shift) :=
      Nat.pow_le_pow_right (by decide) (by omega)
    rw [Nat.pow_add 2 53, htop] at hle
    exact Nat.div_lt_of_lt_mul (Nat.mul_comm _ _ ▸ Nat.lt_of_lt_of_le hlt hle)
  · by_cases hzero : shift = 0
    · exact .inl hzero
    · right
      have hne : numerator / denominator ≠ 0 := by
        intro he
        rw [he] at hshift
        exact hzero hshift
      have hle := Nat.log2_self_le hne
      have hlog : (numerator / denominator).log2 = 52 + shift := by omega
      rw [hlog, Nat.pow_add, hbottom] at hle
      exact (Nat.le_div_iff_mul_le hpos).mpr hle

theorem place_scaled (h : 0 < denominator) {shift n : Nat} (hn : n ≤ 2 * fractions)
    (hs : shift = 0 ∨ fractions ≤ n) :
    place (shift * fractions + n) = n * (denominator * 2 ^ shift) / (denominator * one) := by
  have hdenominator : (0 : ℚ) < denominator := Nat.cast_pos.mpr h
  rw [place, unitsAt_place hn hs, div_eq_div_iff one_pos.ne' (mul_pos hdenominator one_pos).ne']
  push_cast
  ring

-- The rest of a division tells on which side of the middle a quotient lies.
theorem chosen_of_rest {a : Nat} {v quotient rest step scale : ℚ} (hscale : 0 < scale)
    (ha : place a = quotient * step / scale) (hnext : place (a + 1) = (quotient + 1) * step / scale)
    (hv : v = (quotient * step + rest) / scale) :
    (2 * rest < step → Chosen a v a) ∧ (step < 2 * rest → Chosen a v (a + 1)) ∧
      (2 * rest = step → Chosen a v (a + a % 2)) := by
  have hmiddle : 2 * v - (place a + place (a + 1)) = (2 * rest - step) / scale := by
    rw [ha, hnext, hv]
    ring
  refine ⟨fun h => .lower ?_, fun h => .upper ?_, fun h => .tie ?_⟩
  · have hneg : (2 * rest - step) / scale < 0 := div_neg_of_neg_of_pos (by linarith) hscale
    linarith
  · have hpos : 0 < (2 * rest - step) / scale := div_pos (by linarith) hscale
    linarith
  · have hzero : (2 * rest - step) / scale = 0 := by rw [h, sub_self, zero_div]
    linarith

-- Rounding a quotient takes the nearer one of the two magnitudes around it.
theorem chosen_roundDiv (numerator : Nat) (h : 0 < denominator) {shift : Nat}
    (hshift : shift = (numerator / denominator).log2 - 52) :
    ∃ a, place a ≤ numerator / denominator / one ∧
      numerator / denominator / one < place (a + 1) ∧
      Chosen a (numerator / denominator / one)
        (shift * fractions + roundDiv numerator (denominator * 2 ^ shift)) := by
  obtain ⟨hhigh, hlow⟩ := shift_spec hshift
  have hpos : 0 < denominator * 2 ^ shift := Nat.mul_pos h (Nat.two_pow_pos shift)
  have hsplit := Nat.div_add_mod numerator (denominator * 2 ^ shift)
  have hrest := Nat.mod_lt numerator hpos
  rw [roundDiv]
  generalize numerator / (denominator * 2 ^ shift) = quotient at *
  generalize numerator % (denominator * 2 ^ shift) = rest at *
  have hscale : (0 : ℚ) < denominator * one := mul_pos (Nat.cast_pos.mpr h) one_pos
  have hvalue : (numerator : ℚ) / denominator / one =
      (quotient * (denominator * 2 ^ shift) + rest) / (denominator * one) := by
    rw [div_div, ← hsplit]
    push_cast
    ring
  have hplace := place_scaled h (Nat.le_of_lt hhigh) hlow
  have hnext : place (shift * fractions + quotient + 1) =
      (quotient + 1) * (denominator * 2 ^ shift) / (denominator * one) := by
    rw [Nat.add_assoc, place_scaled h hhigh (hlow.imp_right Nat.le_succ_of_le), Nat.cast_succ]
  obtain ⟨hlower, hupper, htie⟩ := chosen_of_rest hscale hplace hnext hvalue
  refine ⟨shift * fractions + quotient, ?_, ?_, ?_⟩
  · have hnonneg : (0 : ℚ) ≤ rest := Nat.cast_nonneg rest
    rw [hplace, hvalue]
    exact div_le_div_of_nonneg_right (by linarith) hscale.le
  · have hlt : (rest : ℚ) < denominator * 2 ^ shift := by exact_mod_cast hrest
    rw [hnext, hvalue]
    exact div_lt_div_of_pos_right (by linarith) hscale
  · split
    · rename_i hlt
      exact hlower (by exact_mod_cast hlt)
    · split
      · rename_i hlt
        rw [← Nat.add_assoc]
        exact hupper (by exact_mod_cast hlt)
      · have heq : 2 * rest = denominator * 2 ^ shift := by omega
        -- a step of the exponent is an even number of fractions
        have hparity : (shift * fractions + quotient) % 2 = quotient % 2 := by
          have heven : fractions % 2 = 0 := by decide
          rw [Nat.add_mod, Nat.mul_mod, heven, Nat.mul_zero, Nat.zero_mod, Nat.zero_add,
            Nat.mod_mod]
        rw [← Nat.add_assoc, ← hparity]
        exact htie (by exact_mod_cast heq)

theorem isNearest_nearest (negative : Bool) (numerator : Nat) (h : 0 < denominator) :
    (nearest negative numerator denominator).IsNearest (numerator / denominator / one) := by
  obtain ⟨a, hlow, hhigh, hchosen⟩ := chosen_roundDiv numerator h rfl
  rw [isNearest_iff, nearest, magnitude_ofMagnitude]
  · exact hchosen.closest hlow hhigh
  · exact Nat.lt_of_le_of_lt (Nat.min_le_right _ _) infinityBits_lt

theorem negative_nearest (negative : Bool) :
    (nearest negative numerator denominator).negative = negative :=
  negative_ofMagnitude (Nat.lt_of_le_of_lt (Nat.min_le_right _ _) infinityBits_lt)

end Rounding

variable {x y : Double} {v w : ℚ} {m k : Nat}

-- The nearer one of two ends is the one on the same side of their middle.
theorem middle_le_of_near {a b : ℚ} (hab : a < b) (h : |b - v| ≤ |a - v|) : (a + b) / 2 ≤ v := by
  rw [← sq_le_sq] at h
  nlinarith

theorem le_middle_of_near {a b : ℚ} (hab : a < b) (h : |a - v| ≤ |b - v|) : v ≤ (a + b) / 2 := by
  rw [← sq_le_sq] at h
  nlinarith

theorem Closest.le_of_le (hm : Closest m v) (hk : Closest k w) (h : v ≤ w) : m ≤ k := by
  by_contra hlt
  have hlt : k < m := Nat.lt_of_not_le hlt
  have hplace := place_strictMono hlt
  have hv := middle_le_of_near hplace (hm.closest k hk.le)
  have hw := le_middle_of_near hplace (hk.closest m hm.le)
  -- Both distances are the middle, so both magnitudes are even and one lies between them.
  have hdm : |place m - v| = (place m - place k) / 2 := by
    rw [abs_of_nonneg (by linarith)]
    linarith
  have hdk : |place k - v| = (place m - place k) / 2 := by
    rw [abs_of_nonpos (by linarith)]
    linarith
  have hmiddle : v = w := by linarith
  have heven := hm.even k hk.le (Nat.ne_of_lt hlt) (hdk.trans hdm.symm)
  have heven' := hk.even m hm.le (Nat.ne_of_gt hlt) (hmiddle ▸ hdm.trans hdk.symm)
  have hnext : k + 1 < m := by omega
  have hleft := place_strictMono (Nat.lt_succ_self k)
  have hright := place_strictMono hnext
  have hnear := hm.closest (k + 1) (Nat.le_of_lt (Nat.lt_of_lt_of_le hnext hm.le))
  have hmiddle' := middle_le_of_near hright hnear
  linarith

theorem closest_place (h : m ≤ infinityBits) : Closest m (place m) := by
  refine ⟨h, fun k _ => ?_, fun k _ hne heq => ?_⟩
  · rw [sub_self, abs_zero]
    exact abs_nonneg _
  · rw [sub_self, abs_zero, abs_eq_zero, sub_eq_zero] at heq
    exact absurd (place_strictMono.injective heq) hne

-- Rounding keeps the order.
theorem IsNearest.magnitude_le (hx : x.IsNearest v) (hy : y.IsNearest w) (h : v ≤ w) :
    x.magnitude ≤ y.magnitude :=
  (isNearest_iff.mp hx).le_of_le (isNearest_iff.mp hy) h

-- At most one number of each sign is nearest.
theorem IsNearest.unique (hx : x.IsNearest v) (hy : y.IsNearest v) (h : x.negative = y.negative) :
    x = y :=
  eq_of_magnitude h (Nat.le_antisymm (hx.magnitude_le hy le_rfl) (hy.magnitude_le hx le_rfl))

-- A number is its own rounding.
theorem isNearest_size (h : x.isNaN = false) : x.IsNearest x.size := by
  rw [isNearest_iff]
  exact closest_place (magnitude_le_of_not_nan h)

theorem size_of_isZero (h : x.isZero = true) : x.size = 0 := by
  have hzero : x.magnitude = 0 := of_decide_eq_true h
  have hunits : unitsAt 0 = 0 := rfl
  rw [size_eq, place, hzero, hunits, Nat.cast_zero, zero_div]

theorem size_le_size : x.size ≤ y.size ↔ x.magnitude ≤ y.magnitude :=
  place_strictMono.le_iff_le

theorem size_lt_size : x.size < y.size ↔ x.magnitude < y.magnitude :=
  place_strictMono.lt_iff_lt

end LineBasic.Double
