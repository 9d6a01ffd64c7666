import LineBasic.Failure

namespace LineBasic

namespace Bytes

theorem splitOn_of_not_mem {separator : UInt8} {line : Bytes} (h : separator ∉ line) (rest : Bytes) :
    splitOn separator (line ++ separator :: rest) = line :: splitOn separator rest := by
  induction line with
  | nil => simp [splitOn]
  | cons b line ih =>
    have hb : b ≠ separator := fun he => h (he ▸ List.mem_cons_self)
    have hrest := ih fun hmem => h (List.mem_cons_of_mem _ hmem)
    simp only [List.cons_append, splitOn, hb, if_false, hrest]

-- Lines that hold no separator, with one after each, are split into these lines again.
theorem splitOn_flatMap {separator : UInt8} {lines : List Bytes}
    (h : ∀ line ∈ lines, separator ∉ line) :
    splitOn separator (lines.flatMap (· ++ [separator])) = lines ++ [[]] := by
  induction lines with
  | nil => rfl
  | cons line rest ih =>
    have hrest := ih fun other hmem => h other (List.mem_cons_of_mem _ hmem)
    rw [List.flatMap_cons, List.append_assoc, List.singleton_append,
      splitOn_of_not_mem (h line List.mem_cons_self), hrest, List.cons_append]

theorem newline_not_mem_ofNat (n : Nat) : (10 : UInt8) ∉ ofNat n := by
  intro hmem
  obtain ⟨c, hc, he⟩ := List.mem_map.mp hmem
  have hdigit : 48 ≤ c.toNat ∧ c.toNat ≤ 57 := by
    have := Nat.isDigit_of_mem_toDigits (by decide) (by decide) hc
    simpa [Char.isDigit, UInt32.le_iff_toNat_le] using this
  have hvalue : c.toNat % 256 = 10 := congrArg UInt8.toNat he
  omega

theorem newline_not_mem_ofInt (n : Int) : (10 : UInt8) ∉ ofInt n := by
  cases n with
  | ofNat n => exact newline_not_mem_ofNat n
  | negSucc n =>
    intro hmem
    rcases List.mem_cons.mp hmem with h | h
    · cases h
    · exact newline_not_mem_ofNat _ h

end Bytes

-- A failure is reported on one line if its detail stands on one.
theorem Failure.newline_not_mem_message {f : Failure} (h : (10 : UInt8) ∉ f.detail) :
    (10 : UInt8) ∉ f.message := by
  have htitle (phase : Phase) : (10 : UInt8) ∉ Bytes.ofString phase.title := by
    cases phase <;> decide +kernel
  have htext (problem : Problem) : (10 : UInt8) ∉ Bytes.ofString problem.text := by
    cases problem <;> decide +kernel
  have hon : (10 : UInt8) ∉ Bytes.ofString " on line " := by decide
  have hcolon : (10 : UInt8) ∉ Bytes.ofString ": " := by decide
  have hline := Bytes.newline_not_mem_ofInt f.line
  unfold message
  dsimp only
  split <;> simp [htitle, htext, hon, hcolon, hline, h]

end LineBasic
