import LineBasic.NodeFamily
import LineBasic.Proofs.CommandLine.Lines
import LineBasic.Proofs.Text.Trim
import Mathlib.Data.List.Forall2

namespace LineBasic

theorem Bytes.splitOn_eq (separator : UInt8) (text : Bytes) :
    Bytes.splitOn separator text = List.splitOn separator text := by
  induction text with
  | nil => rfl
  | cons b rest ih =>
    rw [Bytes.splitOn, List.splitOn_cons_eq_if_modifyHead, ih]
    by_cases hb : b = separator
    · simp [hb]
    · simp only [hb, if_false, beq_iff_eq]
      cases hpieces : List.splitOn separator rest with
      | nil => exact (List.splitOn_ne_nil separator rest hpieces).elim
      | cons piece pieces => rfl

theorem Bytes.splitOn_eq_singleton {separator : UInt8} {text : Bytes} (h : separator ∉ text) :
    Bytes.splitOn separator text = [text] := by
  rw [Bytes.splitOn_eq, List.splitOn_eq_singleton h]

namespace NodeFamily

-- The text of a definition before its first colon, all of it if there is none.
def Opens (definition before : Bytes) : Prop :=
  58 ∉ before ∧ (definition = before ∨ ∃ after, definition = before ++ 58 :: after)

structure Node where
  name : Bytes
  fields : List Bytes

-- What a definition says: the name stands before the first colon, and the fields stand after it with
-- commas between them. Other colons belong to the fields, and blanks around a part do not count.
inductive Says : Bytes → Node → Prop where
  | mk {before after : Bytes} (h : 58 ∉ before) :
      Says (before ++ 58 :: after)
        ⟨Text.trim before, (List.splitOn 44 (Text.trim after)).map Text.trim⟩

variable {definition before after : Bytes}

theorem not_colon (h : 58 ∉ before) : ∀ b ∈ before, (b != 58) = true := by
  intro b hb
  exact bne_iff_ne.mpr fun he => h (he ▸ hb)

-- The first part of a definition ends at its first colon, however many colons it has.
theorem headD_splitOn_opens (h : Opens definition before) :
    (Bytes.splitOn 58 definition).headD [] = before := by
  obtain ⟨hbefore, rfl | ⟨after, rfl⟩⟩ := h
  · rw [Bytes.splitOn_eq_singleton hbefore, List.headD_cons]
  · rw [Bytes.splitOn_of_not_mem hbefore, List.headD_cons]

-- Visitors and records have the name that a definition says, and records its fields.
theorem Says.read {node : Node} (h : Says definition node) :
    nameIn definition = node.name ∧ parts? definition = some (node.name, node.fields) := by
  obtain @⟨before, after, hbefore⟩ := h
  constructor
  · rw [nameIn, headD_splitOn_opens ⟨hbefore, .inr ⟨after, rfl⟩⟩]
  · rw [parts?, List.dropWhile_append_of_pos (not_colon hbefore),
      List.dropWhile_cons_of_neg (by simp), List.takeWhile_append_of_pos (not_colon hbefore),
      List.takeWhile_cons_of_neg (by simp), List.append_nil]
    dsimp only
    rw [Bytes.splitOn_eq]

end NodeFamily

end LineBasic
