import LineBasic.Proofs.Double.Read
import LineBasic.Proofs.Machine.Fault

namespace LineBasic

open Digits Text

namespace Machine

-- An INPUT that goes on has stored the number of its line.
theorem receive_stores {keyword name : Word} {s s' : State}
    (h : receive keyword name s = (s', none)) :
    ∃ line x, s.input.readLine.1 = .line line ∧ Double.readInput? line = some x ∧
      s'.env = s.env.define name.text (.number x) := by
  unfold receive at h
  dsimp only at h
  split at h
  · cases h
  · cases h
  · rename_i line hline
    split at h
    · cases h
    · rename_i x hx
      cases h
      exact ⟨line, x, hline, hx, rfl⟩

theorem step_input_stores {m : Machine} {keyword name : Word} {prompt : Option Bytes} {s s' : State}
    (h : m.step (.simple (.input keyword prompt name)) s = (s', none)) :
    ∃ line x, s.input.readLine.1 = .line line ∧ Double.readInput? line = some x ∧
      s'.env = s.env.define name.text (.number x) := by
  cases prompt with
  | none => exact receive_stores (s := { s with pc := s.pc + 1, steps := s.steps + 1 }) h
  | some text =>
    simp only [step, execute, executeStmt] at h
    split at h
    · cases h
    · rename_i t hemit
      have hinput := emit_input hemit
      obtain ⟨-, -, henv⟩ := emit_frame m { s with pc := s.pc + 1, steps := s.steps + 1 } text
      rw [hemit] at henv
      obtain ⟨line, x, hline, hx, hs⟩ := receive_stores h
      rw [hinput] at hline
      rw [henv] at hs
      exact ⟨line, x, hline, hx, hs⟩

-- An INPUT accepts the decimal numbers, with blanks around them, that are not too great, and stores
-- the nearest double. An exponent of more than five digits counts by the first five. No other texts
-- are accepted, no words and no hexadecimal numbers among them, and what is stored is finite.
theorem input_accepts_decimals :
    (∀ line x, Double.readInput? line = some x ↔
      ∃ before n after, line = before ++ Numeral.text n ++ after ∧ Blanks before ∧ Blanks after ∧
        n.Valid ∧ x.isFinite = true ∧ x.negative = n.sign.negative ∧ x.IsNearest n.counted) ∧
    (∀ n : Numeral, n.writtenExponent.natAbs < 100000 → n.counted = n.written) ∧
    (∀ (line : Bytes) (b : UInt8), b ∈ line →
      65 ≤ b.toNat ∧ b.toNat ≤ 90 ∨ 97 ≤ b.toNat ∧ b.toNat ≤ 122 → b ≠ 69 ∧ b ≠ 101 →
        Double.readInput? line = none) ∧
    ∀ (m : Machine) keyword prompt name s s',
      m.step (.simple (.input keyword prompt name)) s = (s', none) →
        ∃ line x, s.input.readLine.1 = .line line ∧ Double.readInput? line = some x ∧
          x.isFinite = true ∧ s'.env = s.env.define name.text (.number x) := by
  refine ⟨fun _ _ => Double.readInput?_eq_some_iff, fun _ => Numeral.counted_eq_written,
    fun _ _ => Double.readInput?_letter, ?_⟩
  intro m keyword prompt name s s' h
  obtain ⟨line, x, hline, hx, hs⟩ := step_input_stores h
  obtain ⟨-, -, -, -, -, -, -, hfinite, -⟩ := Double.readInput?_eq_some_iff.mp hx
  exact ⟨line, x, hline, hx, hfinite, hs⟩

-- The line " +1_0E2" is the number 1000 with a blank in front, the line "inf" is none.
theorem input_accepts_decimals_thousand :
    Double.readInput? (Bytes.ofString " +1_0E2") = some (.ofInt 1000) ∧
    Double.readInput? (Bytes.ofString "inf") = none ∧
    ∃ line x, (Input.mk (Bytes.ofString "1\n") none).readLine.1 = .line line ∧
      Double.readInput? line = some x ∧ x.isFinite = true := by
  obtain ⟨hread, hwritten, hletter, hstep⟩ := input_accepts_decimals
  let n : Numeral := ⟨.plus, Bytes.ofString "1_0", none, some ⟨69, .absent, Bytes.ofString "2"⟩⟩
  let m : Machine := ⟨.ofBlock .done, fun _ => none, 0⟩
  have htext : Bytes.ofString " +1_0E2" = [32] ++ n.text ++ [] := by decide
  have hvalid : n.Valid := by
    refine ⟨.inr (.underscore rfl (.single rfl)), .inl rfl, .inl (List.cons_ne_nil _ _), ?_⟩
    rintro e ⟨⟩
    exact ⟨.inr rfl, .single rfl⟩
  have hcounted : n.counted = 1000 := by
    have hamount : n.significand = 10 := by
      show ((10 : Nat) : ℚ) + ((0 : Nat) : ℚ) / 10 ^ 0 = 10
      norm_num
    have hexponent : n.writtenExponent = 2 := rfl
    rw [hwritten n (by decide), Numeral.written, hamount, hexponent]
    norm_num
  have hsize : Double.size (.ofInt 1000) = 1000 := by
    have hunits : Double.units (.ofInt 1000) = 1000 * Double.one := by decide +kernel
    rw [Double.size, hunits, Nat.cast_mul, mul_div_cancel_right₀ _ Double.one_pos.ne']
    norm_num
  have hfinite : Double.isFinite (.ofInt 1000) := by decide +kernel
  have hnearest : Double.IsNearest (.ofInt 1000) n.counted := by
    rw [hcounted, ← hsize]
    exact Double.isNearest_size (by decide +kernel)
  have hspace : Blanks [32] := ⟨[' '], rfl, List.forall_mem_singleton.mpr rfl⟩
  have hnone : Blanks [] := ⟨[], rfl, by simp⟩
  refine ⟨(hread _ _).mpr ⟨[32], n, [], htext, hspace, hnone, hvalid, hfinite, by decide +kernel,
    hnearest⟩, hletter _ 105 (by decide) (by decide) (by decide), ?_⟩
  have hgoes : m.step (.simple (.input ⟨[], 1⟩ none ⟨Bytes.ofString "X", 1⟩))
      (.initial ⟨Bytes.ofString "1\n", none⟩) =
        ((m.step (.simple (.input ⟨[], 1⟩ none ⟨Bytes.ofString "X", 1⟩))
          (.initial ⟨Bytes.ofString "1\n", none⟩)).1, none) := by
    decide +kernel
  obtain ⟨line, x, hline, hx, hfinite, -⟩ := hstep m _ _ _ _ _ hgoes
  exact ⟨line, x, hline, hx, hfinite⟩

end Machine

namespace Numeral

-- The number 0.00...01e100000, with ten thousand places and an exponent of six digits.
def manyPlaces : Numeral :=
  ⟨.absent, [48], some (List.replicate 9999 48 ++ [49]),
    some ⟨101, .absent, [49, 48, 48, 48, 48, 48]⟩⟩

theorem isDigit_manyPlaces : ∀ b ∈ List.replicate 9999 (48 : UInt8) ++ [49], isDigit b = true := by
  intro b hb
  rcases List.mem_append.mp hb with hb | hb
  · exact isDigit_of_mem_replicate hb
  · rw [List.mem_singleton.mp hb]
    rfl

theorem valid_manyPlaces : manyPlaces.Valid := by
  have hfraction : Grouped (List.replicate 9999 48 ++ [49]) :=
    group_of_digits (List.append_ne_nil_of_right_ne_nil _ (List.cons_ne_nil _ _)) isDigit_manyPlaces
  have hexponent : Grouped [49, 48, 48, 48, 48, 48] :=
    group_of_digits (List.cons_ne_nil _ _) (List.all_eq_true.mp rfl)
  refine ⟨.inr (.single rfl), .inr hfraction, .inl (List.cons_ne_nil _ _), ?_⟩
  rintro e ⟨⟩
  exact ⟨.inl rfl, hexponent⟩

theorem significand_manyPlaces : manyPlaces.significand = 10 ^ (-10000 : Int) := by
  have hzeros : ∀ count, value (List.replicate count 48 ++ [49]) = 1 := by
    intro count
    rw [value_append_singleton, value_replicate_zero]
    rfl
  have hlength : ∀ count, (List.replicate count (48 : UInt8) ++ [49]).length = count + 1 := by
    simp
  have hfraction : ungroup manyPlaces.fractionDigits = List.replicate 9999 48 ++ [49] :=
    ungroup_of_digits isDigit_manyPlaces
  have hwhole : value (ungroup manyPlaces.whole) = 0 := rfl
  have hplaces : (10 : ℚ) ^ (10000 : Int) = 10 ^ (9999 + 1) := by
    rw [← zpow_natCast]
    rfl
  rw [significand, Decimal.amount, hfraction, hzeros, hlength, hwhole, zpow_neg, hplaces,
    Nat.cast_zero, zero_add, Nat.cast_one, one_div]

theorem counted_manyPlaces : manyPlaces.counted = 1 := by
  have hfive : firstFive 100000 = 10000 := by
    rw [firstFive, if_neg (by decide)]
    exact firstFive_of_lt (by decide)
  have hexponent : manyPlaces.countedExponent = 10000 := congrArg Nat.cast hfive
  rw [counted, significand_manyPlaces, hexponent, zpow_neg]
  exact inv_mul_cancel₀ (zpow_ne_zero _ (by norm_num))

theorem written_manyPlaces : 10 ^ (400 : Int) ≤ manyPlaces.written := by
  have hexponent : manyPlaces.writtenExponent = 100000 := rfl
  rw [written, significand_manyPlaces, hexponent, ← zpow_add₀ (by norm_num)]
  exact zpow_le_zpow_right₀ (by norm_num) (by norm_num)

-- It is accepted as 1.0, although it stands for a number that is not finite.
theorem not_as_written_manyPlaces :
    Double.readInput? manyPlaces.text = some (.ofInt 1) ∧
    ¬∃ before n after, manyPlaces.text = before ++ Numeral.text n ++ after ∧ Blanks before ∧
      Blanks after ∧ n.Valid ∧ Double.isFinite (.ofInt 1) = true ∧
      Double.negative (.ofInt 1) = n.sign.negative ∧
      Double.IsNearest (.ofInt 1) n.written := by
  have hfinite : Double.isFinite (.ofInt 1) = true := by decide +kernel
  have hvalid := valid_manyPlaces
  have hblanks : Blanks [] := ⟨[], rfl, by simp⟩
  constructor
  · rw [Double.readInput?_eq_some_iff]
    refine ⟨[], manyPlaces, [], (List.append_nil _).symm, hblanks, hblanks, hvalid, hfinite,
      by decide +kernel, ?_⟩
    have hunits : Double.units (.ofInt 1) = Double.one := by decide +kernel
    have hsize : Double.size (.ofInt 1) = 1 := by
      rw [Double.size, hunits]
      exact div_self Double.one_pos.ne'
    rw [counted_manyPlaces, ← hsize]
    exact Double.isNearest_size (by decide +kernel)
  · rintro ⟨before, n, after, htext, hb, ha, hn, -, -, hnearest⟩
    have htrim := Double.trim_numeral hn hb ha
    rw [← htext] at htrim
    have hself := Double.trim_numeral hvalid hblanks hblanks
    rw [List.nil_append, List.append_nil, htrim] at hself
    rw [Double.written_unique hn hvalid hself] at hnearest
    have hle := Decimal.infinite_of_le hnearest written_manyPlaces
    exact absurd (of_decide_eq_true hfinite) (Nat.not_lt.mpr hle)

end Numeral

end LineBasic
