import LineBasic.Proofs.Text.Glyph

namespace LineBasic

namespace Bytes

-- The byte at a position of a text belongs to an encoded character that stands there.
def Encoded (text : Bytes) (i : Nat) : Prop :=
  ∃ start c, start ≤ i ∧ i < start + (String.utf8EncodeChar c).length ∧
    String.utf8EncodeChar c <+: text.drop start

theorem any_front?_iff {text : Bytes} {i : Nat} :
    ((List.range (i + 1)).any fun start => (Glyph.front? (text.drop start)).any fun c =>
      decide (i < start + (String.utf8EncodeChar c).length)) = true ↔ Encoded text i := by
  simp only [List.any_eq_true, List.mem_range, Option.any_eq_true, decide_eq_true_eq]
  constructor
  · rintro ⟨start, hs, c, hc, hi⟩
    exact ⟨start, c, Nat.le_of_lt_succ hs, hi, Glyph.front?_eq_some.mp hc⟩
  · rintro ⟨start, c, hs, hi, hp⟩
    exact ⟨start, Nat.lt_succ_of_le hs, c, Glyph.front?_eq_some.mpr hp, hi⟩

instance (text : Bytes) (i : Nat) : Decidable (Encoded text i) :=
  decidable_of_iff _ any_front?_iff

-- A text with U+FFFD in the place of every byte that belongs to no encoded character.
def repaired (text : Bytes) : Bytes :=
  (text.mapIdx fun i b => if Encoded text i then [b] else [0xEF, 0xBF, 0xBD]).flatten

end Bytes

namespace Glyph

-- No encoding starts inside another one.
theorem not_prefix_drop {c d : Char} {rest : Bytes} {start : Nat} (hpos : 0 < start)
    (hlt : start < (String.utf8EncodeChar c).length) :
    ¬ String.utf8EncodeChar d <+: (String.utf8EncodeChar c ++ rest).drop start := by
  rintro ⟨after, hafter⟩
  obtain ⟨b, more, hc, -, hmore⟩ := encode_eq_cons c
  obtain ⟨b', more', hd, hlead, -⟩ := encode_eq_cons d
  obtain ⟨k, rfl⟩ := Nat.exists_eq_succ_of_ne_zero (Nat.ne_of_gt hpos)
  rw [hc, List.length_cons] at hlt
  have hk : k < more.length := Nat.lt_of_succ_lt_succ hlt
  rw [hc, hd, List.cons_append, List.cons_append, List.drop_succ_cons,
    List.drop_append_of_le_length (Nat.le_of_lt hk), List.drop_eq_getElem_cons hk] at hafter
  have hbyte : b' = more[k] := (List.cons.inj hafter).1
  have hcont := hmore _ (List.getElem_mem hk)
  rw [← hbyte] at hcont
  omega

end Glyph

namespace Bytes

theorem flatten_mapIdx_singleton (text : Bytes) : (text.mapIdx fun _ b => [b]).flatten = text := by
  induction text with
  | nil => rfl
  | cons b text ih =>
    rw [List.mapIdx_cons, List.flatten_cons]
    exact congrArg (b :: ·) ih

-- If no encoding goes over the end of the front of a text, the rest of it is judged for itself.
theorem encoded_append {head rest : Bytes}
    (h : ∀ start < head.length, ∀ c, String.utf8EncodeChar c <+: (head ++ rest).drop start →
      start + (String.utf8EncodeChar c).length ≤ head.length) (i : Nat) :
    Encoded (head ++ rest) (i + head.length) ↔ Encoded rest i := by
  constructor
  · rintro ⟨start, c, hs, hi, hp⟩
    have hstart : head.length ≤ start := by
      refine Nat.le_of_not_lt fun hlt => ?_
      have := h start hlt c hp
      omega
    obtain ⟨k, rfl⟩ := Nat.exists_eq_add_of_le hstart
    rw [List.drop_length_add_append] at hp
    exact ⟨k, c, by omega, by omega, hp⟩
  · rintro ⟨start, c, hs, hi, hp⟩
    refine ⟨head.length + start, c, by omega, by omega, ?_⟩
    rwa [List.drop_length_add_append]

theorem repaired_append {head rest : Bytes}
    (h : ∀ start < head.length, ∀ c, String.utf8EncodeChar c <+: (head ++ rest).drop start →
      start + (String.utf8EncodeChar c).length ≤ head.length) :
    repaired (head ++ rest) =
      (head.mapIdx fun i b =>
        if Encoded (head ++ rest) i then [b] else [0xEF, 0xBF, 0xBD]).flatten ++ repaired rest := by
  have hrest := encoded_append h
  simp only [repaired, List.mapIdx_append, List.flatten_append, hrest]

-- Every byte is judged by its place alone, and reading from the front finds the same characters.
theorem repaired_eq (text : Bytes) : repaired text = (Glyph.read text).flatMap Glyph.repaired := by
  induction text using Glyph.text_induction with
  | nil => rfl
  | char c rest ih =>
    have hinside : ∀ start < (String.utf8EncodeChar c).length, ∀ d,
        String.utf8EncodeChar d <+: (String.utf8EncodeChar c ++ rest).drop start →
          start + (String.utf8EncodeChar d).length ≤ (String.utf8EncodeChar c).length := by
      intro start hlt d hp
      cases start with
      | zero =>
        have hfront := Glyph.front?_eq_some.mpr hp
        rw [List.drop_zero, Glyph.front?_encode] at hfront
        cases hfront
        exact Nat.le_of_eq (Nat.zero_add _)
      | succ start => exact (Glyph.not_prefix_drop (Nat.succ_pos start) hlt hp).elim
    have hall : (String.utf8EncodeChar c).mapIdx (fun i b =>
        if Encoded (String.utf8EncodeChar c ++ rest) i then [b] else [0xEF, 0xBF, 0xBD]) =
        (String.utf8EncodeChar c).mapIdx fun _ b => [b] := by
      refine List.mapIdx_eq_mapIdx_iff.mpr fun i hi => if_pos ?_
      exact ⟨0, c, Nat.zero_le i, by rwa [Nat.zero_add], List.prefix_append _ _⟩
    rw [repaired_append hinside, hall, flatten_mapIdx_singleton, Glyph.read_encode,
      List.flatMap_cons, ih]
    rfl
  | stray b rest hb ih =>
    have hnone (c : Char) : ¬ String.utf8EncodeChar c <+: b :: rest := by
      intro hp
      rw [Glyph.front?_eq_some.mpr hp] at hb
      cases hb
    have hinside : ∀ start < [b].length, ∀ c,
        String.utf8EncodeChar c <+: ([b] ++ rest).drop start →
          start + (String.utf8EncodeChar c).length ≤ [b].length := by
      intro start hlt c hp
      obtain rfl : start = 0 := Nat.lt_one_iff.mp hlt
      exact (hnone c hp).elim
    have hfirst : ¬ Encoded ([b] ++ rest) 0 := by
      rintro ⟨start, c, hs, -, hp⟩
      obtain rfl : start = 0 := Nat.le_zero.mp hs
      exact hnone c hp
    rw [← List.singleton_append, repaired_append hinside, List.mapIdx_singleton, if_neg hfirst, ih]
    rw [List.singleton_append, Glyph.read_stray hb]
    rfl

-- Two bytes of a character that is cut off by another one, and a byte that starts none.
example : repaired [0xE2, 0x82, 0xC3, 0xA9, 0xFF] =
    [0xEF, 0xBF, 0xBD, 0xEF, 0xBF, 0xBD, 0xC3, 0xA9, 0xEF, 0xBF, 0xBD] := by
  decide +kernel

-- A text that is valid as a whole stays as it is.
theorem repaired_ofString (s : String) : repaired (ofString s) = ofString s := by
  rw [repaired_eq, ofString]
  induction s.toList with
  | nil => rfl
  | cons c chars ih =>
    rw [List.flatMap_cons, Glyph.read_encode, List.flatMap_cons, ih]
    rfl

end Bytes

end LineBasic
