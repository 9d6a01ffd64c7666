import LineBasic.Digits
import Mathlib.Algebra.Group.Nat.Defs

namespace LineBasic

namespace Digits

variable {b : UInt8} {n d : Nat} {left right digits : Bytes}

theorem isDigit_iff : isDigit b = true ↔ 48 ≤ b.toNat ∧ b.toNat ≤ 57 := by
  simp [isDigit, UInt8.le_iff_toNat_le]

theorem isDigit_of_mem_replicate {count : Nat} (h : b ∈ List.replicate count 48) :
    isDigit b = true := by
  rw [List.eq_of_mem_replicate h]
  rfl

def ofFin (d : Nat) : UInt8 :=
  (48 + d).toUInt8

theorem toNat_ofFin (h : d < 10) : (ofFin d).toNat = 48 + d := by
  rw [ofFin, Nat.toUInt8_eq, UInt8.toNat_ofNat']
  exact Nat.mod_eq_of_lt (by omega)

theorem isDigit_ofFin (h : d < 10) : isDigit (ofFin d) = true := by
  rw [isDigit_iff, toNat_ofFin h]
  omega

theorem ofFin_eq_zero_iff (h : d < 10) : ofFin d = 48 ↔ d = 0 := by
  rw [← UInt8.toNat_inj, toNat_ofFin h]
  show 48 + d = 48 ↔ d = 0
  omega

theorem digitChar_toUInt8 (h : d < 10) : (Nat.digitChar d).toNat.toUInt8 = ofFin d := by
  revert h d
  decide

end Digits

namespace Bytes

open Digits

variable {n d : Nat}

theorem ofNat_of_lt (h : n < 10) : ofNat n = [ofFin n] := by
  rw [ofNat, Nat.toDigits_of_lt_base h, List.map_singleton, digitChar_toUInt8 h]

theorem ofNat_mul_add (hn : 0 < n) (hd : d < 10) : ofNat (n * 10 + d) = ofNat n ++ [ofFin d] := by
  have hdiv : (n * 10 + d) / 10 = n := by omega
  have hmod : (n * 10 + d) % 10 = d := by omega
  rw [ofNat, Nat.toDigits_of_base_le (by decide) (by omega), hdiv, hmod, List.map_append,
    List.map_singleton, digitChar_toUInt8 hd, ofNat]

end Bytes

namespace Digits

-- Numbers grow by one digit at their end.
theorem decimal_induction {motive : Nat → Prop} (small : ∀ d < 10, motive d)
    (more : ∀ n d, 0 < n → d < 10 → motive n → motive (n * 10 + d)) (n : Nat) : motive n := by
  induction n using Nat.strongRecOn with
  | ind n ih =>
    by_cases h : n < 10
    · exact small n h
    · have hn := more (n / 10) (n % 10) (by omega) (Nat.mod_lt _ (by decide)) (ih _ (by omega))
      rwa [Nat.div_add_mod'] at hn

theorem value_append_singleton : value (digits ++ [b]) = value digits * 10 + (b.toNat - 48) := by
  rw [value, List.foldl_append]
  rfl

theorem foldl_value (n : Nat) (digits : Bytes) :
    digits.foldl (fun n b => n * 10 + (b.toNat - 48)) n =
      n * 10 ^ digits.length + value digits := by
  unfold value
  induction digits generalizing n with
  | nil => simp
  | cons b rest ih =>
    rw [List.foldl_cons, ih, List.foldl_cons, ih (0 * 10 + _), List.length_cons, Nat.pow_succ',
      Nat.zero_mul, Nat.zero_add, Nat.add_mul, Nat.mul_assoc, Nat.add_assoc]

theorem value_append (left right : Bytes) :
    value (left ++ right) = value left * 10 ^ right.length + value right := by
  rw [value, List.foldl_append, foldl_value]
  rfl

theorem value_replicate_zero (count : Nat) : value (List.replicate count 48) = 0 := by
  induction count with
  | zero => rfl
  | succ count ih =>
    rw [List.replicate_succ', value_append_singleton, ih]
    rfl

theorem value_lt (h : ∀ b ∈ digits, isDigit b = true) : value digits < 10 ^ digits.length := by
  induction digits with
  | nil => exact Nat.one_pos
  | cons b rest ih =>
    have hb := isDigit_iff.mp (h b List.mem_cons_self)
    have hrest := ih fun c hc => h c (List.mem_cons_of_mem _ hc)
    have hsplit := value_append [b] rest
    have hone : value [b] = b.toNat - 48 := Nat.zero_add _
    have hle : value [b] * 10 ^ rest.length ≤ 9 * 10 ^ rest.length :=
      Nat.mul_le_mul_right _ (by omega)
    rw [List.singleton_append] at hsplit
    rw [List.length_cons, Nat.pow_succ]
    omega

-- A first digit other than zero counts at its place.
theorem pow_le_value (h : isDigit b = true) (hb : b ≠ 48) (rest : Bytes) :
    10 ^ rest.length ≤ value (b :: rest) := by
  have hdigit := isDigit_iff.mp h
  have hne : b.toNat ≠ 48 := fun he => hb (UInt8.toNat_inj.mp he)
  have hsplit := value_append [b] rest
  have hone : value [b] = b.toNat - 48 := Nat.zero_add _
  have hle : 1 * 10 ^ rest.length ≤ value [b] * 10 ^ rest.length :=
    Nat.mul_le_mul_right _ (by omega)
  rw [List.singleton_append] at hsplit
  omega

theorem value_ofNat (n : Nat) : value (Bytes.ofNat n) = n := by
  induction n using decimal_induction with
  | small d hd =>
    rw [Bytes.ofNat_of_lt hd]
    show 0 * 10 + ((ofFin d).toNat - 48) = d
    rw [toNat_ofFin hd]
    omega
  | more n d hn hd ih =>
    rw [Bytes.ofNat_mul_add hn hd, value_append_singleton, ih, toNat_ofFin hd]
    omega

end Digits

namespace Bytes

open Digits

variable {n : Nat}

theorem isDigit_of_mem_ofNat {b : UInt8} (h : b ∈ ofNat n) : isDigit b = true := by
  induction n using decimal_induction with
  | small d hd =>
    rw [ofNat_of_lt hd, List.mem_singleton] at h
    exact h ▸ isDigit_ofFin hd
  | more n d hn hd ih =>
    rw [ofNat_mul_add hn hd, List.mem_append, List.mem_singleton] at h
    exact h.elim ih fun h => h ▸ isDigit_ofFin hd

theorem ofNat_ne_nil (n : Nat) : ofNat n ≠ [] := by
  induction n using decimal_induction with
  | small d hd => simp [ofNat_of_lt hd]
  | more n d hn hd _ => simp [ofNat_mul_add hn hd]

theorem head?_ofNat (h : n ≠ 0) : (ofNat n).head? ≠ some 48 := by
  induction n using decimal_induction with
  | small d hd =>
    rw [ofNat_of_lt hd, List.head?_cons]
    exact fun he => h ((ofFin_eq_zero_iff hd).mp (Option.some.inj he))
  | more n d hn hd ih =>
    obtain ⟨first, rest, hcons⟩ := List.exists_cons_of_ne_nil (ofNat_ne_nil n)
    rw [ofNat_mul_add hn hd, hcons, List.cons_append, List.head?_cons]
    rw [hcons, List.head?_cons] at ih
    exact ih (Nat.ne_of_gt hn)

theorem getLast?_ofNat (h : n % 10 ≠ 0) : (ofNat n).getLast? ≠ some 48 := by
  induction n using decimal_induction with
  | small d hd =>
    rw [ofNat_of_lt hd, List.getLast?_singleton]
    intro he
    rw [(ofFin_eq_zero_iff hd).mp (Option.some.inj he)] at h
    exact h rfl
  | more n d hn hd _ =>
    rw [ofNat_mul_add hn hd, List.getLast?_concat]
    intro he
    rw [(ofFin_eq_zero_iff hd).mp (Option.some.inj he)] at h
    omega

theorem length_ofNat_le_iff {k : Nat} (hk : 0 < k) : (ofNat n).length ≤ k ↔ n < 10 ^ k := by
  rw [ofNat, List.length_map]
  exact Nat.length_toDigits_le_iff (by decide) hk

theorem lt_pow_length_ofNat (n : Nat) : n < 10 ^ (ofNat n).length :=
  (length_ofNat_le_iff (List.length_pos_iff.mpr (ofNat_ne_nil n))).mp (Nat.le_refl _)

end Bytes

namespace Digits

inductive Grouped : Bytes → Prop where
  | single {b : UInt8} (h : isDigit b = true) : Grouped [b]
  | digit {b : UInt8} {rest : Bytes} (h : isDigit b = true) (hr : Grouped rest) :
      Grouped (b :: rest)
  | underscore {b : UInt8} {rest : Bytes} (h : isDigit b = true) (hr : Grouped rest) :
      Grouped (b :: 95 :: rest)

variable {b : UInt8} {group rest : Bytes}

theorem group_cons : Grouped (b :: rest) ↔
    isDigit b = true ∧ (rest = [] ∨ Grouped rest ∨ ∃ more, rest = 95 :: more ∧ Grouped more) := by
  constructor
  · intro h
    cases h with
    | single h => exact ⟨h, .inl rfl⟩
    | digit h hr => exact ⟨h, .inr (.inl hr)⟩
    | underscore h hr => exact ⟨h, .inr (.inr ⟨_, rfl, hr⟩)⟩
  · rintro ⟨h, rfl | hr | ⟨more, rfl, hr⟩⟩
    · exact .single h
    · exact .digit h hr
    · exact .underscore h hr

theorem isGrouped_iff : isGrouped b = true ↔ isDigit b = true ∨ b = 95 := by
  simp [isGrouped]

-- After a digit an underscore may come, after an underscore only a digit.
theorem separated_iff (h : ∀ c ∈ group, isGrouped c = true) :
    (separated 95 group = true ↔ Grouped group) ∧
      ∀ last, isDigit last = true → (separated last group = true ↔
        group = [] ∨ Grouped group ∨ ∃ more, group = 95 :: more ∧ Grouped more) := by
  have hne {last : UInt8} (hl : isDigit last = true) : (last != 95) = true := by
    rw [bne_iff_ne]
    rintro rfl
    cases hl
  induction group with
  | nil =>
    constructor
    · constructor <;> intro hnil <;> cases hnil
    · intro last hl
      rw [separated, hne hl]
      simp
  | cons b rest ih =>
    obtain ⟨hunder, hdigit⟩ := ih fun c hc => h c (List.mem_cons_of_mem _ hc)
    rcases isGrouped_iff.mp (h b List.mem_cons_self) with hb | rfl
    · have hiff : separated b rest = true ↔ Grouped (b :: rest) := by
        rw [hdigit b hb, group_cons]
        simp [hb]
      have hcons : ¬∃ more, b :: rest = 95 :: more ∧ Grouped more := by
        rintro ⟨more, he, -⟩
        cases he
        cases hb
      constructor
      · rw [separated, hne hb, Bool.or_true, Bool.true_and, hiff]
      · intro last hl
        rw [separated, hne hl, Bool.true_or, Bool.true_and, hiff]
        rw [or_iff_left hcons, or_iff_right (List.cons_ne_nil _ _)]
    · have hno : ¬Grouped (95 :: rest) := by
        rw [group_cons]
        rintro ⟨hb, -⟩
        cases hb
      constructor
      · simp [separated, hno]
      · intro last hl
        rw [separated, hne hl, Bool.true_or, Bool.true_and, hunder]
        simp [hno]

theorem Grouped.all (h : Grouped group) : ∀ c ∈ group, isGrouped c = true := by
  induction h with
  | single hb => simpa using isGrouped_iff.mpr (.inl hb)
  | digit hb _ ih => simpa [isGrouped_iff.mpr (.inl hb)] using ih
  | underscore hb _ ih =>
    have hunder : isGrouped 95 = true := rfl
    simpa [isGrouped_iff.mpr (.inl hb), hunder] using ih

theorem wellGrouped_iff : wellGrouped group = true ↔ group = [] ∨ Grouped group := by
  rw [wellGrouped, Bool.and_eq_true, Bool.or_eq_true, List.isEmpty_iff, List.all_eq_true]
  constructor
  · rintro ⟨hall, rfl | hs⟩
    · exact .inl rfl
    · exact .inr ((separated_iff hall).1.mp hs)
  · rintro (rfl | hg)
    · exact ⟨by simp, .inl rfl⟩
    · exact ⟨hg.all, .inr ((separated_iff hg.all).1.mpr hg)⟩

theorem all_of_group {group : Bytes} (h : group = [] ∨ Grouped group) :
    ∀ b ∈ group, isGrouped b = true := by
  rcases h with rfl | h
  · simp
  · exact h.all

theorem Grouped.exists_digit (h : Grouped group) :
    ∃ b rest, group = b :: rest ∧ isDigit b = true := by
  cases h with
  | single h => exact ⟨_, _, rfl, h⟩
  | digit h _ => exact ⟨_, _, rfl, h⟩
  | underscore h _ => exact ⟨_, _, rfl, h⟩

theorem Grouped.ungroup_ne_nil (h : Grouped group) : ungroup group ≠ [] := by
  obtain ⟨b, rest, rfl, hb⟩ := h.exists_digit
  simp [ungroup, hb]

theorem isDigit_of_mem_ungroup (h : b ∈ ungroup group) : isDigit b = true :=
  (List.mem_filter.mp h).2

theorem group_of_digits (hne : group ≠ []) (h : ∀ b ∈ group, isDigit b = true) : Grouped group := by
  induction group with
  | nil => exact (hne rfl).elim
  | cons b rest ih =>
    have hb := h b List.mem_cons_self
    have hrest : ∀ c ∈ rest, isDigit c = true := fun c hc => h c (List.mem_cons_of_mem _ hc)
    cases rest with
    | nil => exact .single hb
    | cons c more => exact .digit hb (ih (List.cons_ne_nil _ _) hrest)

theorem ungroup_of_digits (h : ∀ b ∈ group, isDigit b = true) : ungroup group = group :=
  List.filter_eq_self.mpr h

-- Bytes of a class are cut off the front of a text up to the first byte outside it.
theorem span_append {p : UInt8 → Bool} {front tail : Bytes} (hf : ∀ b ∈ front, p b = true)
    (ht : ∀ b ∈ tail.head?, p b = false) :
    (front ++ tail).takeWhile p = front ∧ (front ++ tail).dropWhile p = tail := by
  rw [List.takeWhile_append_of_pos hf, List.dropWhile_append_of_pos hf]
  cases tail with
  | nil => simp
  | cons b tail => simp [ht b rfl]

theorem ungroup_append (left right : Bytes) :
    ungroup (left ++ right) = ungroup left ++ ungroup right :=
  List.filter_append _ _

end Digits

end LineBasic
