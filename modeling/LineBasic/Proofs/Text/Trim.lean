import LineBasic.Proofs.Text.Glyph
import LineBasic.Text.CodeRange
import Mathlib.Data.List.TakeWhile

namespace LineBasic

namespace Glyph

def ofByte (b : UInt8) : Glyph :=
  .char (Char.ofNat b.toNat)

theorem encode_ofNat {b : UInt8} (h : b.toNat < 128) :
    String.utf8EncodeChar (Char.ofNat b.toNat) = [b] := by
  have hall : ∀ n < 128, String.utf8EncodeChar (Char.ofNat n) = [n.toUInt8] := by decide
  rw [hall _ h, Nat.toUInt8_eq, UInt8.ofNat_toNat]

-- A text in ASCII is read byte by byte.
theorem read_ascii_append {text : Bytes} (h : ∀ b ∈ text, b.toNat < 128) (rest : Bytes) :
    read (text ++ rest) = text.map ofByte ++ read rest := by
  induction text with
  | nil => rfl
  | cons b text ih =>
    have hencode := encode_ofNat (h b List.mem_cons_self)
    have hread := read_encode (Char.ofNat b.toNat) (text ++ rest)
    rw [hencode, ih fun c hc => h c (List.mem_cons_of_mem _ hc)] at hread
    exact hread

theorem read_ascii {text : Bytes} (h : ∀ b ∈ text, b.toNat < 128) :
    read text = text.map ofByte := by
  have hnil : read [] = [] := rfl
  have hread := read_ascii_append h []
  rwa [List.append_nil, hnil, List.append_nil] at hread

end Glyph

namespace Text

-- Any characters that do not count at the ends of a line.
def Blanks (text : Bytes) : Prop :=
  ∃ blanks : List Char, text = blanks.flatMap String.utf8EncodeChar ∧ ∀ c ∈ blanks, isBlank c

-- A byte of ASCII that shows on a page.
def Visible (b : UInt8) : Prop :=
  32 < b.toNat ∧ b.toNat < 127

theorem not_blank {b : UInt8} (h : Visible b) : Glyph.test isBlank (Glyph.ofByte b) = false := by
  have hall : ∀ n < 127, 32 < n → isBlank (Char.ofNat n) = false := by decide
  exact hall _ h.2 h.1

theorem blanks_write {glyphs : List Glyph} (h : ∀ g ∈ glyphs, Glyph.test isBlank g) :
    Blanks (Glyph.write glyphs) :=
  Glyph.write_of_test h

theorem Blanks.read_append {text : Bytes} (h : Blanks text) (rest : Bytes) :
    ∃ glyphs, Glyph.read (text ++ rest) = glyphs ++ Glyph.read rest ∧
      ∀ g ∈ glyphs, Glyph.test isBlank g = true := by
  obtain ⟨blanks, rfl, hblanks⟩ := h
  induction blanks with
  | nil => exact ⟨[], rfl, by simp⟩
  | cons c blanks ih =>
    obtain ⟨hc, hrest⟩ := List.forall_mem_cons.mp hblanks
    obtain ⟨glyphs, hread, hglyphs⟩ := ih hrest
    refine ⟨.char c :: glyphs, ?_, List.forall_mem_cons.mpr ⟨hc, hglyphs⟩⟩
    rw [List.flatMap_cons, List.append_assoc, Glyph.read_encode, hread, List.cons_append]

-- Blanks are in no class of visible bytes.
theorem Blanks.not_visible {text : Bytes} (h : Blanks text) {b : UInt8} (hb : b ∈ text) :
    ¬Visible b := by
  intro hv
  obtain ⟨blanks, rfl, hblanks⟩ := h
  obtain ⟨c, hc, hmem⟩ := List.mem_flatMap.mp hb
  have hascii : b.toNat < 128 := Nat.lt_succ_of_lt hv.2
  have hencode := Glyph.encode_eq_of_mem hmem hascii
  have hchar : c = Char.ofNat b.toNat :=
    Glyph.encode_injective (hencode.trans (Glyph.encode_ofNat hascii).symm)
  have hblank : isBlank (Char.ofNat b.toNat) = true := hchar ▸ hblanks c hc
  have hnot : isBlank (Char.ofNat b.toNat) = false := not_blank hv
  rw [hnot] at hblank
  cases hblank

-- What is trimmed off a text are blanks at its two ends.
theorem exists_trim (text : Bytes) :
    ∃ before after, text = before ++ trim text ++ after ∧ Blanks before ∧ Blanks after := by
  let blank := Glyph.test isBlank
  let glyphs := Glyph.read text
  let rest := (glyphs.dropWhile blank).reverse
  have hfront : glyphs = glyphs.takeWhile blank ++ rest.reverse := by
    rw [List.reverse_reverse, List.takeWhile_append_dropWhile]
  have hback : rest.reverse = (rest.dropWhile blank).reverse ++ (rest.takeWhile blank).reverse := by
    rw [← List.reverse_append, List.takeWhile_append_dropWhile]
  refine ⟨Glyph.write (glyphs.takeWhile blank), Glyph.write (rest.takeWhile blank).reverse, ?_,
    blanks_write (List.all_eq_true.mp List.all_takeWhile), blanks_write fun g hg => ?_⟩
  · show text = _ ++ Glyph.write (rest.dropWhile blank).reverse ++ _
    rw [List.append_assoc, ← Glyph.write_append, ← hback, ← Glyph.write_append, ← hfront,
      Glyph.write_read]
  · exact List.all_eq_true.mp List.all_takeWhile g (List.mem_reverse.mp hg)

theorem Blanks.append {left right : Bytes} (hl : Blanks left) (hr : Blanks right) :
    Blanks (left ++ right) := by
  obtain ⟨blanks, rfl, hb⟩ := hl
  obtain ⟨more, rfl, hm⟩ := hr
  exact ⟨blanks ++ more, List.flatMap_append.symm, List.forall_mem_append.mpr ⟨hb, hm⟩⟩

theorem dropWhile_eq_self {α : Type} {p : α → Bool} {l : List α} (h : ∀ a ∈ l, p a = false) :
    l.dropWhile p = l := by
  cases l with
  | nil => rfl
  | cons a l => rw [List.dropWhile_cons_of_neg (by simp [h a])]

-- Nothing else is.
theorem trim_eq {before core after : Bytes} (hb : Blanks before) (ha : Blanks after)
    (hcore : ∀ b ∈ core, Visible b) (hne : core ≠ []) : trim (before ++ core ++ after) = core := by
  obtain ⟨left, hleft, hlblank⟩ := hb.read_append (core ++ after)
  obtain ⟨right, hright, hrblank⟩ := ha.read_append []
  have hascii : ∀ b ∈ core, b.toNat < 128 := fun b h => Nat.lt_succ_of_lt (hcore b h).2
  have hvisible : ∀ g ∈ core.map Glyph.ofByte, Glyph.test isBlank g = false := by
    intro g hg
    obtain ⟨b, hb, rfl⟩ := List.mem_map.mp hg
    exact not_blank (hcore b hb)
  have hread : Glyph.read (before ++ core ++ after) = left ++ (core.map Glyph.ofByte ++ right) := by
    have hnil : Glyph.read [] = [] := rfl
    rw [List.append_nil, hnil, List.append_nil] at hright
    rw [List.append_assoc, hleft, Glyph.read_ascii_append hascii, hright]
  have hfront : (core.map Glyph.ofByte ++ right).dropWhile (Glyph.test isBlank) =
      core.map Glyph.ofByte ++ right := by
    obtain ⟨b, rest, rfl⟩ := List.exists_cons_of_ne_nil hne
    exact List.dropWhile_cons_of_neg (by simp [hvisible (Glyph.ofByte b) (by simp)])
  have hback : ((core.map Glyph.ofByte).reverse).dropWhile (Glyph.test isBlank) =
      (core.map Glyph.ofByte).reverse :=
    dropWhile_eq_self fun g hg => hvisible g (List.mem_reverse.mp hg)
  rw [trim, hread, List.dropWhile_append_of_pos hlblank, hfront, List.reverse_append,
    List.dropWhile_append_of_pos fun g hg => hrblank g (List.mem_reverse.mp hg), hback,
    List.reverse_reverse, ← Glyph.read_ascii hascii, Glyph.write_read]

end Text

end LineBasic
