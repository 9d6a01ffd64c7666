import LineBasic.Text.Glyph

namespace LineBasic.Glyph

theorem toNat_lt (c : Char) : c.toNat < 0x110000 := by
  rcases c.valid with h | h
  · have : c.toNat < 0xD800 := h
    omega
  · exact h.2

-- The bytes of an encoded character give its code point back, whatever comes after them. The cases
-- are those of the encoding, by the number of bytes.
theorem candidate_encode (c : Char) (rest : Bytes) :
    candidate (String.utf8EncodeChar c ++ rest) = c.toNat := by
  have hlt := toNat_lt c
  have hv : c.val.toNat = c.toNat := rfl
  simp only [String.utf8EncodeChar, hv]
  generalize c.toNat = n at hlt
  by_cases h1 : n ≤ 127
  · simp only [h1, if_true, candidate, List.cons_append, List.getD_cons_zero, UInt8.toNat_ofNat']
    rw [if_pos (by omega)]
    omega
  by_cases h2 : n ≤ 2047
  · simp only [h1, h2, if_true, if_false, candidate, List.cons_append, List.getD_cons_zero,
      List.getD_cons_succ, UInt8.toNat_ofNat']
    rw [if_neg (by omega), if_pos (by omega)]
    omega
  by_cases h3 : n ≤ 65535
  · simp only [h1, h2, h3, if_true, if_false, candidate, List.cons_append, List.getD_cons_zero,
      List.getD_cons_succ, UInt8.toNat_ofNat']
    rw [if_neg (by omega), if_neg (by omega), if_pos (by omega)]
    omega
  · simp only [h1, h2, h3, if_false, candidate, List.cons_append, List.getD_cons_zero,
      List.getD_cons_succ, UInt8.toNat_ofNat']
    rw [if_neg (by omega), if_neg (by omega), if_neg (by omega)]
    omega

-- A character is found at the front of a text exactly if its encoding stands there.
theorem front?_eq_some {text : Bytes} {c : Char} :
    front? text = some c ↔ String.utf8EncodeChar c <+: text := by
  unfold front?
  dsimp only
  constructor
  · intro h
    split at h
    · rename_i hprefix
      cases h
      exact List.isPrefixOf_iff_prefix.mp hprefix
    · cases h
  · rintro ⟨rest, rfl⟩
    have hc : Char.ofNat (candidate (String.utf8EncodeChar c ++ rest)) = c := by
      rw [candidate_encode, Char.ofNat_toNat]
    rw [hc, if_pos (List.isPrefixOf_iff_prefix.mpr (List.prefix_append _ _))]

theorem front?_encode (c : Char) (rest : Bytes) :
    front? (String.utf8EncodeChar c ++ rest) = some c :=
  front?_eq_some.mpr (List.prefix_append _ _)

theorem encode_injective {c d : Char} (h : String.utf8EncodeChar c = String.utf8EncodeChar d) :
    c = d := by
  have hc := front?_encode c []
  rw [h, front?_encode d []] at hc
  exact (Option.some.inj hc).symm

-- An encoding is a byte of ASCII or has a lead byte, and continuation bytes after it. The cases are
-- those of the encoding, by the number of bytes.
theorem encode_eq_cons (c : Char) :
    ∃ b more, String.utf8EncodeChar c = b :: more ∧
      (b.toNat < 128 ∧ more = [] ∨ 192 ≤ b.toNat) ∧ ∀ d ∈ more, 128 ≤ d.toNat ∧ d.toNat < 192 := by
  have hlt := toNat_lt c
  have hv : c.val.toNat = c.toNat := rfl
  simp only [String.utf8EncodeChar, hv]
  generalize c.toNat = n at hlt
  by_cases h1 : n ≤ 127
  · simp only [h1, if_true]
    refine ⟨_, _, rfl, .inl ⟨?_, rfl⟩, by simp⟩
    rw [UInt8.toNat_ofNat']
    omega
  by_cases h2 : n ≤ 2047
  · simp only [h1, h2, if_true, if_false]
    refine ⟨_, _, rfl, .inr ?_, ?_⟩
    · rw [UInt8.toNat_ofNat']
      omega
    · simp only [List.mem_cons, List.not_mem_nil, or_false]
      rintro d rfl
      rw [UInt8.toNat_ofNat']
      omega
  by_cases h3 : n ≤ 65535
  · simp only [h1, h2, h3, if_true, if_false]
    refine ⟨_, _, rfl, .inr ?_, ?_⟩
    · rw [UInt8.toNat_ofNat']
      omega
    · simp only [List.mem_cons, List.not_mem_nil, or_false]
      rintro d (rfl | rfl)
      all_goals
        rw [UInt8.toNat_ofNat']
        omega
  · simp only [h1, h2, h3, if_false]
    refine ⟨_, _, rfl, .inr ?_, ?_⟩
    · rw [UInt8.toNat_ofNat']
      omega
    · simp only [List.mem_cons, List.not_mem_nil, or_false]
      rintro d (rfl | rfl | rfl)
      all_goals
        rw [UInt8.toNat_ofNat']
        omega

theorem encode_ne_nil (c : Char) : String.utf8EncodeChar c ≠ [] := by
  obtain ⟨b, more, hc, -⟩ := encode_eq_cons c
  rw [hc]
  exact List.cons_ne_nil b more

-- A byte of ASCII is never a part of a longer encoding.
theorem encode_eq_of_mem {c : Char} {b : UInt8} (h : b ∈ String.utf8EncodeChar c)
    (hb : b.toNat < 128) : String.utf8EncodeChar c = [b] := by
  obtain ⟨lead, more, hc, hlead, hmore⟩ := encode_eq_cons c
  rw [hc] at h
  rcases List.mem_cons.mp h with rfl | h
  · rcases hlead with ⟨-, rfl⟩ | hhigh
    · exact hc
    · omega
  · have hcont := hmore b h
    omega

theorem newline_mem_encode {c : Char} : (10 : UInt8) ∈ String.utf8EncodeChar c ↔ c = '\n' := by
  constructor
  · intro h
    exact encode_injective (encode_eq_of_mem h (by decide))
  · rintro rfl
    decide

theorem readFrom_eq (skip : Nat) (text : Bytes) : readFrom skip text = read (text.drop skip) := by
  unfold read
  induction text generalizing skip with
  | nil => cases skip <;> rfl
  | cons b rest ih =>
    cases skip with
    | zero => rfl
    | succ skip => exact ih skip

theorem read_encode (c : Char) (rest : Bytes) :
    read (String.utf8EncodeChar c ++ rest) = .char c :: read rest := by
  have hfront := front?_encode c rest
  cases he : String.utf8EncodeChar c with
  | nil => exact (encode_ne_nil c he).elim
  | cons b bytes =>
    rw [he, List.cons_append] at hfront
    rw [List.cons_append, read, readFrom, hfront]
    dsimp only
    rw [readFrom_eq, he, List.length_cons, Nat.add_sub_cancel, List.drop_left]

theorem read_stray {b : UInt8} {rest : Bytes} (h : front? (b :: rest) = none) :
    read (b :: rest) = .stray b :: read rest := by
  rw [read, readFrom, h]
  rfl

-- A text is built of encoded characters and of bytes that start none.
theorem text_induction {motive : Bytes → Prop} (nil : motive [])
    (char : ∀ c rest, motive rest → motive (String.utf8EncodeChar c ++ rest))
    (stray : ∀ b rest, front? (b :: rest) = none → motive rest → motive (b :: rest))
    (text : Bytes) : motive text := by
  induction hn : text.length using Nat.strongRecOn generalizing text with
  | ind n ih =>
    cases text with
    | nil => exact nil
    | cons b rest =>
      cases hf : front? (b :: rest) with
      | none =>
        refine stray b rest hf (ih _ ?_ rest rfl)
        rw [← hn, List.length_cons]
        exact Nat.lt_succ_self _
      | some c =>
        obtain ⟨more, hmore⟩ := front?_eq_some.mp hf
        rw [← hmore]
        refine char c more (ih _ ?_ more rfl)
        rw [← hn, ← hmore, List.length_append]
        exact Nat.lt_add_of_pos_left (List.length_pos_iff.mpr (encode_ne_nil c))

theorem write_append (left right : List Glyph) : write (left ++ right) = write left ++ write right :=
  List.flatMap_append

theorem write_of_test {p : Char → Bool} {glyphs : List Glyph} (h : ∀ g ∈ glyphs, test p g) :
    ∃ chars : List Char, write glyphs = chars.flatMap String.utf8EncodeChar ∧
      ∀ c ∈ chars, p c := by
  induction glyphs with
  | nil => exact ⟨[], rfl, by simp⟩
  | cons g glyphs ih =>
    obtain ⟨chars, hwrite, hchars⟩ := ih fun g hg => h g (List.mem_cons_of_mem _ hg)
    cases g with
    | stray b => cases h (.stray b) List.mem_cons_self
    | char c =>
      have hc : p c := h (.char c) List.mem_cons_self
      exact ⟨c :: chars, congrArg (String.utf8EncodeChar c ++ ·) hwrite,
        List.forall_mem_cons.mpr ⟨hc, hchars⟩⟩

theorem write_read (text : Bytes) : write (read text) = text := by
  induction text using text_induction with
  | nil => rfl
  | char c rest ih =>
    rw [read_encode]
    exact congrArg (String.utf8EncodeChar c ++ ·) ih
  | stray b rest h ih =>
    rw [read_stray h]
    exact congrArg (b :: ·) ih

-- Where the glyphs of a text are divided, the text is divided as well, and both parts are read for
-- themselves.
theorem read_eq_append {text : Bytes} {left right : List Glyph} (h : read text = left ++ right) :
    ∃ before after, text = before ++ after ∧ read before = left ∧ read after = right := by
  induction text using text_induction generalizing left with
  | nil =>
    obtain ⟨rfl, rfl⟩ := List.append_eq_nil_iff.mp h.symm
    exact ⟨[], [], rfl, rfl, rfl⟩
  | char c rest ih =>
    cases left with
    | nil => exact ⟨[], _, rfl, rfl, h⟩
    | cons g left =>
      rw [read_encode] at h
      obtain ⟨rfl, hrest⟩ := List.cons.inj h
      obtain ⟨before, after, rfl, rfl, ha⟩ := ih hrest
      exact ⟨String.utf8EncodeChar c ++ before, after, (List.append_assoc _ _ _).symm,
        read_encode c before, ha⟩
  | stray b rest hb ih =>
    cases left with
    | nil => exact ⟨[], _, rfl, rfl, h⟩
    | cons g left =>
      rw [read_stray hb] at h
      obtain ⟨rfl, hrest⟩ := List.cons.inj h
      obtain ⟨before, after, rfl, rfl, ha⟩ := ih hrest
      -- a byte that starts no encoding in the whole text starts none in a part of it
      have hnone : front? (b :: before) = none := by
        cases hf : front? (b :: before) with
        | none => rfl
        | some c =>
          obtain ⟨more, hmore⟩ := front?_eq_some.mp hf
          rw [front?_eq_some.mpr ⟨more ++ after, by rw [← List.append_assoc, hmore]; rfl⟩] at hb
          cases hb
      exact ⟨b :: before, after, rfl, read_stray hnone, ha⟩

-- A byte of ASCII completes no encoding that is cut off before it.
theorem front?_append_ascii {a b : UInt8} {rest : Bytes} (ha : a.toNat < 128)
    (h : front? (b :: rest) = none) (more : Bytes) : front? (b :: (rest ++ a :: more)) = none := by
  cases hf : front? (b :: (rest ++ a :: more)) with
  | none => rfl
  | some c =>
    exfalso
    obtain ⟨after, hafter⟩ := front?_eq_some.mp hf
    rw [← List.cons_append] at hafter
    rcases List.append_eq_append_iff.mp hafter with ⟨left, hleft, -⟩ | ⟨right, hright, hnl⟩
    · rw [front?_eq_some.mpr ⟨left, hleft.symm⟩] at h
      cases h
    · -- the encoding would go on past the text, so the byte would be a part of it
      cases right with
      | nil =>
        rw [List.append_nil] at hright
        rw [front?_eq_some.mpr ⟨[], by rw [hright, List.append_nil]⟩] at h
        cases h
      | cons d right =>
        cases hnl
        have hmem : a ∈ String.utf8EncodeChar c := by
          rw [hright]
          simp
        have hone := encode_eq_of_mem hmem ha
        rw [hone] at hright
        simpa using congrArg List.length hright

-- Texts on both sides of a character of ASCII are read for themselves.
theorem read_append_ascii {a : UInt8} {c : Char} (hc : String.utf8EncodeChar c = [a])
    (ha : a.toNat < 128) (text more : Bytes) :
    read (text ++ a :: more) = read text ++ .char c :: read more := by
  induction text using text_induction with
  | nil =>
    have hread := read_encode c more
    rw [hc] at hread
    exact hread
  | char d rest ih =>
    rw [List.append_assoc, read_encode, read_encode, ih, List.cons_append]
  | stray b rest h ih =>
    rw [read_stray h, List.cons_append, read_stray (front?_append_ascii ha h more), ih,
      List.cons_append]

theorem read_append_newline (text more : Bytes) :
    read (text ++ 10 :: more) = read text ++ .char '\n' :: read more :=
  read_append_ascii rfl (by decide) text more

theorem read_append_space (text more : Bytes) :
    read (text ++ 32 :: more) = read text ++ .char ' ' :: read more :=
  read_append_ascii rfl (by decide) text more

theorem read_append_quote (text more : Bytes) :
    read (text ++ 34 :: more) = read text ++ .char '"' :: read more :=
  read_append_ascii rfl (by decide) text more

theorem read_append_backslash (text more : Bytes) :
    read (text ++ 92 :: more) = read text ++ .char '\\' :: read more :=
  read_append_ascii rfl (by decide) text more

theorem read_eq_append_quote {text : Bytes} {left right : List Glyph}
    (h : read text = left ++ .char '"' :: right) :
    ∃ before after, text = before ++ 34 :: after ∧ read before = left ∧ read after = right := by
  obtain ⟨before, tail, rfl, hbefore, htail⟩ := read_eq_append h
  obtain ⟨quote, after, rfl, hquote, hafter⟩ :=
    read_eq_append (show read tail = [.char '"'] ++ right from htail)
  obtain rfl : quote = [34] := by
    rw [← write_read quote, hquote]
    rfl
  exact ⟨before, after, rfl, hbefore, hafter⟩

-- Newlines are read as such, and nothing else is.
theorem count_newline_read (text : Bytes) : (read text).count (.char '\n') = text.count 10 := by
  induction text using text_induction with
  | nil => rfl
  | char c rest ih =>
    rw [read_encode, List.count_cons, List.count_append, ih]
    by_cases hc : c = '\n'
    · rw [hc, Nat.add_comm]
      rfl
    · have hnone : (String.utf8EncodeChar c).count 10 = 0 :=
        List.count_eq_zero.mpr fun hmem => hc (newline_mem_encode.mp hmem)
      rw [hnone]
      simp [hc]
  | stray b rest h ih =>
    have hb : b ≠ 10 := by
      rintro rfl
      have hfront : front? (10 :: rest) = some '\n' := front?_encode '\n' rest
      rw [hfront] at h
      cases h
    rw [read_stray h, List.count_cons, List.count_cons, ih]
    simp [hb]

end LineBasic.Glyph
