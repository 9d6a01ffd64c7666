import LineBasic.Double.Print
import LineBasic.Proofs.Double.Decimal

namespace LineBasic

namespace Digits

-- A whole part without superfluous zeros in front.
structure IsWhole (digits : Bytes) : Prop where
  nonempty : digits ≠ []
  all : ∀ b ∈ digits, isDigit b = true
  head : digits = [48] ∨ digits.head? ≠ some 48

-- A fraction without superfluous zeros at the end.
structure IsFraction (digits : Bytes) : Prop where
  nonempty : digits ≠ []
  all : ∀ b ∈ digits, isDigit b = true
  last : digits = [48] ∨ digits.getLast? ≠ some 48

variable {n : Nat} {left right : Bytes}

theorem isWhole_zero : IsWhole [48] :=
  ⟨List.cons_ne_nil _ _, List.forall_mem_singleton.mpr rfl, .inl rfl⟩

theorem isFraction_zero : IsFraction [48] :=
  ⟨List.cons_ne_nil _ _, List.forall_mem_singleton.mpr rfl, .inl rfl⟩

theorem isWhole_ofNat (n : Nat) : IsWhole (Bytes.ofNat n) := by
  refine ⟨Bytes.ofNat_ne_nil n, fun _ => Bytes.isDigit_of_mem_ofNat, ?_⟩
  by_cases hn : n = 0
  · rw [hn]
    exact .inl rfl
  · exact .inr (Bytes.head?_ofNat hn)

end Digits

namespace Decimal

open Digits Double

variable {d : Decimal}

theorem amount_eq_size (whole fraction : Bytes) :
    amount whole fraction = size ⟨value (whole ++ fraction), -fraction.length⟩ := by
  have h := size_digits whole fraction 0
  rwa [zpow_zero, mul_one, Int.zero_sub, eq_comm] at h

theorem amount_zero (whole : Bytes) : amount whole [48] = value whole := by
  have hzero : value [48] = 0 := rfl
  rw [amount, hzero, Nat.cast_zero, zero_div, add_zero]

-- What comes at the end of the digits ends in no zero.
theorem isFraction_of_getLast (hd : d.digits % 10 ≠ 0) (fraction : Bytes) (hne : fraction ≠ [])
    (hdigits : ∀ b ∈ fraction, isDigit b = true)
    (h : fraction.getLast? = (Bytes.ofNat d.digits).getLast?) : IsFraction fraction :=
  ⟨hne, hdigits, .inr (h ▸ Bytes.getLast?_ofNat hd)⟩

-- The form without an exponent is one for the same number.
theorem positional_spec (hd : d.digits % 10 ≠ 0) :
    ∃ whole fraction, positional d = whole ++ [46] ++ fraction ∧ IsWhole whole ∧
      IsFraction fraction ∧ amount whole fraction = d.size := by
  have hdigit {b : UInt8} (h : b ∈ Bytes.ofNat d.digits) : isDigit b = true :=
    Bytes.isDigit_of_mem_ofNat h
  have hne := Bytes.ofNat_ne_nil d.digits
  have hhead := Bytes.head?_ofNat (n := d.digits) fun h => hd (by rw [h])
  have hvalue := value_ofNat d.digits
  have hlast := isFraction_of_getLast hd
  unfold positional
  dsimp only
  generalize Bytes.ofNat d.digits = digits at *
  split
  · rename_i hnonneg
    refine ⟨digits ++ List.replicate d.exponent.toNat 48, [48], by simp, ⟨by simp [hne], ?_, ?_⟩,
      isFraction_zero, ?_⟩
    · intro b hb
      exact (List.mem_append.mp hb).elim hdigit isDigit_of_mem_replicate
    · obtain ⟨first, rest, rfl⟩ := List.exists_cons_of_ne_nil hne
      exact .inr hhead
    · rw [amount_zero, value_append, hvalue, value_replicate_zero, List.length_replicate, size,
        Nat.add_zero, ← Int.toNat_of_nonneg hnonneg]
      push_cast
      rw [zpow_natCast, Int.toNat_natCast]
  · rename_i hneg
    have hplaces : d.exponent = -((-d.exponent).toNat : Int) := by omega
    generalize (-d.exponent).toNat = places at *
    split
    · rename_i hlt
      have hlength : digits.length - (digits.length - places) = places := by omega
      refine ⟨digits.take (digits.length - places), digits.drop (digits.length - places), rfl,
        ⟨?_, fun b hb => hdigit (List.mem_of_mem_take hb), .inr ?_⟩,
        hlast _ ?_ (fun b hb => hdigit (List.mem_of_mem_drop hb)) ?_, ?_⟩
      · simp [hne, Nat.sub_eq_zero_iff_le, hlt]
      · rwa [List.head?_take, if_neg (by omega)]
      · rw [ne_eq, List.drop_eq_nil_iff]
        omega
      · rw [List.getLast?_drop, if_neg (by omega)]
      · rw [amount_eq_size, List.take_append_drop, hvalue, List.length_drop, hlength, ← hplaces]
    · rename_i hge
      refine ⟨[48], List.replicate (places - digits.length) 48 ++ digits, by simp, isWhole_zero,
        hlast _ (by simp [hne]) ?_ (List.getLast?_append_of_ne_nil _ hne), ?_⟩
      · intro b hb
        exact (List.mem_append.mp hb).elim isDigit_of_mem_replicate hdigit
      · have hlength : places - digits.length + digits.length = places := by omega
        rw [amount_eq_size, ← List.append_assoc, value_append, hvalue, List.singleton_append,
          ← List.replicate_succ, value_replicate_zero, Nat.zero_mul, Nat.zero_add,
          List.length_append, List.length_replicate, hlength, ← hplaces]

-- So is the form with one.
theorem scientific_spec (hd : d.digits % 10 ≠ 0) :
    ∃ first fraction exponent, scientific d = [first] ++ [46] ++ fraction ++ [69] ++
        Bytes.ofInt exponent ∧ isDigit first = true ∧ first ≠ 48 ∧
      IsFraction fraction ∧ amount [first] fraction * 10 ^ exponent = d.size := by
  have hdigit {b : UInt8} (h : b ∈ Bytes.ofNat d.digits) : isDigit b = true :=
    Bytes.isDigit_of_mem_ofNat h
  have hne := Bytes.ofNat_ne_nil d.digits
  have hhead := Bytes.head?_ofNat (n := d.digits) fun h => hd (by rw [h])
  have hvalue := value_ofNat d.digits
  have hlast := isFraction_of_getLast hd
  unfold scientific
  dsimp only
  generalize Bytes.ofNat d.digits = digits at *
  obtain ⟨first, rest, rfl⟩ := List.exists_cons_of_ne_nil hne
  refine ⟨first, if rest.isEmpty then [48] else rest, d.exponent + (first :: rest).length - 1, rfl,
    hdigit List.mem_cons_self, fun h => hhead (congrArg some h), ?_, ?_⟩
  · cases rest with
    | nil => exact isFraction_zero
    | cons second more =>
      exact hlast _ (by simp) (fun b hb => hdigit (List.mem_cons_of_mem _ hb)) (by simp)
  · cases rest with
    | nil =>
      have hexponent : d.exponent + ([first] : Bytes).length - 1 = d.exponent := by simp
      rw [hexponent]
      show amount [first] [48] * _ = _
      rw [amount_zero, hvalue, size]
    | cons second more =>
      have hexponent : d.exponent + (first :: second :: more).length - 1 -
          (second :: more).length = d.exponent := by
        simp only [List.length_cons]
        omega
      show amount [first] (second :: more) * _ = _
      rw [← size_digits, List.singleton_append, hvalue, hexponent]

end Decimal

namespace Double

open Decimal Digits

variable {x : Double}

-- The numbers at the two ends of the range without an exponent.
def thousandth : Double :=
  Decimal.toDouble ⟨1, -3⟩ false

def tenMillion : Double :=
  Decimal.toDouble ⟨1, 7⟩ false

theorem size_tenMillion : tenMillion.size = 10 ^ 7 := by
  have hunits : tenMillion.units = 10 ^ 7 * one := by decide +kernel
  rw [Double.size, hunits, Nat.cast_mul, mul_div_cancel_right₀ _ Double.one_pos.ne']
  norm_num

-- The number nearest to a thousandth is a little greater.
theorem thousandth_le_size : 1 / 1000 ≤ thousandth.size := by
  have hunits : one ≤ thousandth.units * 1000 := by decide +kernel
  rw [Double.size, div_le_div_iff₀ (by norm_num) Double.one_pos, one_mul]
  exact_mod_cast hunits

theorem isNearest_thousandth : thousandth.IsNearest (1 / 1000) := by
  have hnearest := isNearest_toDouble ⟨1, -3⟩ false
  norm_num [Decimal.size] at hnearest
  exact hnearest

theorem isPositional_iff (h : x.isNaN = false) :
    x.isPositional = true ↔ 1 / 1000 ≤ x.size ∧ x.size < 10 ^ 7 := by
  have hlow : thousandth.magnitude ≤ x.magnitude ↔ 1 / 1000 ≤ x.size := by
    constructor
    · intro hle
      exact thousandth_le_size.trans (size_le_size.mpr hle)
    · intro hle
      exact isNearest_thousandth.magnitude_le (isNearest_size h) hle
  have hhigh : x.magnitude < tenMillion.magnitude ↔ x.size < 10 ^ 7 := by
    rw [← size_lt_size, size_tenMillion]
  rw [← hlow, ← hhigh, isPositional, Bool.and_eq_true, decide_eq_true_iff, decide_eq_true_iff]
  rfl

-- The decimal that is printed lies on the same side of both ends as the number.
theorem isNearest_shortest (h : x.isFinite = true) : x.IsNearest (shortest x).size :=
  (toDouble_eq_iff.mp (shortest_readsBack h)).2

theorem isNearest_tenMillion : tenMillion.IsNearest (10 ^ 7) := by
  rw [← size_tenMillion]
  exact isNearest_size (by decide +kernel)

theorem size_shortest_lt (h : x.isFinite = true) (hx : x.size < 10 ^ 7) :
    (shortest x).size < 10 ^ 7 := by
  by_contra hle
  have hmagnitude := isNearest_tenMillion.magnitude_le (isNearest_shortest h) (not_lt.mp hle)
  rw [← size_le_size, size_tenMillion] at hmagnitude
  exact absurd hx (not_lt.mpr hmagnitude)

theorem size_shortest_lt_thousandth (h : x.isFinite = true) (hx : x.size < 1 / 1000) :
    (shortest x).size < 1 / 1000 := by
  by_contra hle
  have hmagnitude :=
    isNearest_thousandth.magnitude_le (isNearest_shortest h) (not_lt.mp hle)
  rw [← size_le_size] at hmagnitude
  exact absurd hx (not_lt.mpr (thousandth_le_size.trans hmagnitude))

-- Only ten million itself could be printed as something less, and it has one digit.
theorem le_size_shortest (h : x.isFinite = true) (hx : 10 ^ 7 ≤ x.size) :
    10 ^ 7 ≤ (shortest x).size := by
  rcases eq_or_lt_of_le hx with heq | hlt
  · have hmagnitude : x.magnitude = tenMillion.magnitude :=
      place_strictMono.injective (heq.symm.trans size_tenMillion.symm)
    have hx : x = ofMagnitude x.negative tenMillion.magnitude :=
      eq_of_magnitude (negative_ofMagnitude (by decide +kernel)).symm
        (hmagnitude.trans (magnitude_ofMagnitude (by decide +kernel)).symm)
    have hshortest (negative : Bool) :
        shortest (ofMagnitude negative tenMillion.magnitude) = ⟨1, 7⟩ := by
      cases negative <;> decide +kernel
    rw [hx, hshortest, Decimal.size]
    norm_num
  · by_contra hsize
    have hmagnitude :=
      (isNearest_shortest h).magnitude_le isNearest_tenMillion (not_le.mp hsize).le
    rw [← size_le_size, size_tenMillion] at hmagnitude
    exact absurd hlt (not_lt.mpr hmagnitude)

theorem length_whole_le {whole fraction : Bytes} {places : Nat} (hw : IsWhole whole)
    (h : amount whole fraction < 10 ^ places) (hpos : 0 < places) : whole.length ≤ places := by
  rcases hw.head with rfl | hhead
  · exact hpos
  · obtain ⟨first, rest, rfl⟩ := List.exists_cons_of_ne_nil hw.nonempty
    have hfirst : first ≠ 48 := fun he => hhead (congrArg some he)
    have hle := pow_le_value (hw.all first List.mem_cons_self) hfirst rest
    have hcast : (10 : ℚ) ^ rest.length ≤ value (first :: rest) := by exact_mod_cast hle
    have hfraction : (0 : ℚ) ≤ value fraction / 10 ^ fraction.length := by positivity
    have hlt : (10 : ℚ) ^ rest.length < 10 ^ places := by
      rw [amount] at h
      linarith
    have hlength := (pow_lt_pow_iff_right₀ (by norm_num : (1 : ℚ) < 10)).mp hlt
    exact hlength

-- One digit other than zero, with a fraction, is at least one and less than ten.
theorem amount_range {first : UInt8} {fraction : Bytes} (hdigit : isDigit first = true)
    (hfirst : first ≠ 48) (hf : IsFraction fraction) :
    1 ≤ amount [first] fraction ∧ amount [first] fraction < 10 := by
  have hvalue : value [first] = first.toNat - 48 := Nat.zero_add _
  have hne : first.toNat ≠ 48 := fun he => hfirst (UInt8.toNat_inj.mp he)
  have hrange := isDigit_iff.mp hdigit
  have hlow : (1 : ℚ) ≤ value [first] := by
    have : 1 ≤ value [first] := by omega
    exact_mod_cast this
  have hhigh : (value [first] : ℚ) ≤ 9 := by
    have : value [first] ≤ 9 := by omega
    exact_mod_cast this
  have hnonneg : (0 : ℚ) ≤ value fraction / 10 ^ fraction.length := by positivity
  have hless : (value fraction : ℚ) / 10 ^ fraction.length < 1 := by
    rw [div_lt_one (by positivity)]
    exact_mod_cast value_lt hf.all
  rw [amount]
  constructor <;> linarith

theorem exponent_of_size_lt {first : UInt8} {fraction : Bytes} {exponent bound : Int}
    (hdigit : isDigit first = true) (hfirst : first ≠ 48) (hf : IsFraction fraction)
    (h : amount [first] fraction * 10 ^ exponent < 10 ^ bound) : exponent < bound := by
  obtain ⟨hlow, -⟩ := amount_range hdigit hfirst hf
  have hpos : (0 : ℚ) < 10 ^ exponent := zpow_pos (by norm_num) _
  apply (zpow_lt_zpow_iff_right₀ (by norm_num : (1 : ℚ) < 10)).mp
  exact (le_mul_of_one_le_left hpos.le hlow).trans_lt h

theorem exponent_of_le_size {first : UInt8} {fraction : Bytes} {exponent bound : Int}
    (hdigit : isDigit first = true) (hfirst : first ≠ 48) (hf : IsFraction fraction)
    (h : 10 ^ bound ≤ amount [first] fraction * 10 ^ exponent) : bound ≤ exponent := by
  obtain ⟨-, hhigh⟩ := amount_range hdigit hfirst hf
  have hpos : (0 : ℚ) < 10 ^ exponent := zpow_pos (by norm_num) _
  have hlt : (10 : ℚ) ^ bound < 10 ^ (exponent + 1) := by
    rw [zpow_add_one₀ (by norm_num), mul_comm _ (10 : ℚ)]
    exact h.trans_lt (mul_lt_mul_of_pos_right hhigh hpos)
  have hbound := (zpow_lt_zpow_iff_right₀ (by norm_num : (1 : ℚ) < 10)).mp hlt
  omega

def signText (x : Double) : Bytes :=
  if x.negative then [45] else []

theorem print_eq (h : x.isFinite = true) (hne : x.isZero = false) :
    x.print = x.signText ++
      if x.isPositional then positional (shortest x) else scientific (shortest x) := by
  have hinfinite : x.isInfinite = false := by
    have hlt : x.magnitude < infinityBits := of_decide_eq_true h
    exact decide_eq_false (Nat.ne_of_lt hlt)
  simp only [print, signText, isNaN_of_isFinite h, hinfinite, hne, Bool.false_eq_true, if_false]
  cases x.isPositional <;> simp

theorem digits_exponent {exponent : Int} (h : exponent ≤ -4 ∨ 7 ≤ exponent) :
    ∃ minus digits, Bytes.ofInt exponent = minus ++ digits ∧ IsWhole digits ∧
      (minus = [45] ∧ 4 ≤ value digits ∨ minus = [] ∧ 7 ≤ value digits) := by
  cases exponent with
  | ofNat n =>
    refine ⟨[], Bytes.ofNat n, rfl, isWhole_ofNat n, .inr ⟨rfl, ?_⟩⟩
    rw [value_ofNat]
    rw [Int.ofNat_eq_natCast] at h
    omega
  | negSucc n =>
    refine ⟨[45], Bytes.ofNat (n + 1), rfl, isWhole_ofNat _, .inl ⟨rfl, ?_⟩⟩
    rw [value_ofNat]
    omega

-- From a thousandth up to ten million a number is printed as a whole part of at most seven digits
-- and a fraction, any other one with one digit before the point and an exponent of at most -4 or at
-- least 7. There are no superfluous zeros.
theorem print_canonical (h : x.isFinite = true) (hne : x.isZero = false) :
    (1 / 1000 ≤ x.size ∧ x.size < 10 ^ 7 → ∃ whole fraction,
      x.print = x.signText ++ whole ++ [46] ++ fraction ∧
        IsWhole whole ∧ whole.length ≤ 7 ∧ IsFraction fraction) ∧
    (x.size < 1 / 1000 ∨ 10 ^ 7 ≤ x.size → ∃ first fraction minus exponent,
      x.print = x.signText ++ [first] ++ [46] ++ fraction ++ [69] ++ minus ++ exponent ∧
        isDigit first = true ∧ first ≠ 48 ∧ IsFraction fraction ∧ IsWhole exponent ∧
        (minus = [45] ∧ 4 ≤ value exponent ∨ minus = [] ∧ 7 ≤ value exponent)) := by
  have hdigits := digits_shortest h hne
  have hpositional := isPositional_iff (isNaN_of_isFinite h)
  constructor
  · intro hrange
    obtain ⟨whole, fraction, htext, hwhole, hfraction, hamount⟩ := positional_spec hdigits
    have hlt : amount whole fraction < 10 ^ 7 := by
      rw [hamount]
      exact size_shortest_lt h hrange.2
    refine ⟨whole, fraction, ?_, hwhole, length_whole_le hwhole hlt (by decide), hfraction⟩
    rw [print_eq h hne, if_pos (hpositional.mpr hrange), htext]
    simp only [List.append_assoc]
  · intro hrange
    obtain ⟨first, fraction, exponent, htext, hfirst, hzero, hfraction, hamount⟩ :=
      scientific_spec hdigits
    have hexponent : exponent ≤ -4 ∨ 7 ≤ exponent := by
      rcases hrange with hlow | hhigh
      · left
        have hlt : amount [first] fraction * 10 ^ exponent < 10 ^ (-3 : Int) := by
          rw [hamount]
          norm_num
          have := size_shortest_lt_thousandth h hlow
          linarith
        have := exponent_of_size_lt hfirst hzero hfraction hlt
        omega
      · right
        apply exponent_of_le_size hfirst hzero hfraction
        rw [hamount]
        exact_mod_cast le_size_shortest h hhigh
    obtain ⟨minus, digits, hsplit, hwhole, hbound⟩ := digits_exponent hexponent
    refine ⟨first, fraction, minus, digits, ?_, hfirst, hzero, hfraction, hwhole, hbound⟩
    have hnot : ¬x.isPositional = true := by
      rw [hpositional]
      rintro ⟨hle, hlt⟩
      rcases hrange with h | h <;> linarith
    rw [print_eq h hne, if_neg hnot, htext, hsplit]
    simp only [List.append_assoc]

-- A hundred million is 1.0E8.
theorem print_canonical_hundredMillion :
    ∃ first fraction minus exponent,
      print (.ofInt 100000000) =
          signText (.ofInt 100000000) ++ [first] ++ [46] ++ fraction ++ [69] ++ minus ++
            exponent ∧
        isDigit first = true ∧ first ≠ 48 ∧ IsFraction fraction ∧ IsWhole exponent ∧
        (minus = [45] ∧ 4 ≤ value exponent ∨ minus = [] ∧ 7 ≤ value exponent) := by
  have hsize : 10 ^ 7 ≤ size (.ofInt 100000000) := by
    rw [← size_tenMillion, size_le_size]
    decide +kernel
  exact (print_canonical (x := .ofInt 100000000) (by decide +kernel) (by decide +kernel)).2 (.inr hsize)

end Double

end LineBasic
