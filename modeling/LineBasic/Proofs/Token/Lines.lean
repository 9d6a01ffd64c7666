import LineBasic.Proofs.Token.Spelling

namespace LineBasic

namespace Cursor

def remaining (c : Cursor) : Bytes :=
  Glyph.write c.rest

def after (c : Cursor) : Nat → Cursor
  | 0 => c
  | n + 1 => after c.next.2 n

theorem after_succ (c : Cursor) (n : Nat) : c.after (n + 1) = (c.after n).next.2 := by
  induction n generalizing c with
  | zero => rfl
  | succ n ih => exact ih c.next.2

theorem next_cut {c : Cursor} {first : Glyph} {rest : List Glyph} {piece : Piece}
    (hgap : c.rest.dropWhile Piece.isGap = first :: rest)
    (hc : Piece.cut? first rest = some piece) :
    c.next = (.ok (piece.token c.line), ⟨piece.rest, c.line + Piece.newlines piece.raw⟩) := by
  simp [next, hgap, hc]

-- What one call of `next` does with a text that starts on a line: after a gap it comes to the end
-- of the text, to a token or to a quote that is never closed.
inductive Call (line : Nat) : Bytes → Except Failure Token × Cursor → Prop where
  | ended {gap : Bytes} (hg : Gap gap) :
      Call line gap (.ok ⟨⟨[], line⟩, .endOfInput⟩, ⟨[], line⟩)
  | cut {gap more : Bytes} {t : Token} (hg : Gap gap) (hkind : t.kind ≠ .endOfInput)
      (hline : t.line = line) :
      Call line (gap ++ t.raw ++ more) (.ok t, ⟨Glyph.read more, line + t.raw.count 10⟩)
  | broken {gap body : Bytes} (hg : Gap gap) (hu : Unclosed body) :
      Call line (gap ++ 34 :: body)
        (.error ⟨.unclosedString, line, []⟩, ⟨[], line + body.count 10⟩)

theorem call_next {c : Cursor} {text : Bytes} (h : c.rest = Glyph.read text) :
    Call c.line text c.next := by
  unfold next
  rw [h]
  split
  · rename_i hgap
    have hg : Gap text := by
      rw [← Glyph.write_read text]
      exact gap_write (List.dropWhile_eq_nil_iff.mp hgap)
    exact .ended hg
  · rename_i first rest hgap
    split
    · rename_i piece hc
      obtain ⟨gap, raw, more, rfl, hg, hraw, hmore, hspelled⟩ := Piece.text_of_cut hgap hc
      have hlines : Piece.newlines piece.raw = (piece.token c.line).raw.count 10 := by
        rw [hspelled, ← hraw, Scan.newlines_read]
      rw [hlines, ← hmore, ← hspelled c.line]
      exact .cut hg (Piece.cutFrom_of_cut? hc).kind_ne rfl
    · rename_i hc
      obtain ⟨rfl, -⟩ := Piece.cut?_eq_none_iff.mp hc
      obtain ⟨gap, body, rfl, hg, rfl, hu⟩ := Piece.text_of_broken hgap hc
      have hlines : Piece.newlines (.char '"' :: Glyph.read body) = body.count 10 := by
        rw [← Scan.newlines_read body]
        rfl
      rw [hlines]
      exact .broken hg hu

-- A place in a source, between the bytes that have been taken and those that are left. Its line is
-- the one that the newlines among the taken bytes lead to.
structure Stands (c : Cursor) (taken left : Bytes) : Prop where
  rest : c.rest = Glyph.read left
  line : c.line = 1 + taken.count 10

theorem stands_start (source : Bytes) : (start source).Stands [] source :=
  ⟨rfl, rfl⟩

theorem Stands.remaining {c : Cursor} {taken left : Bytes} (h : c.Stands taken left) :
    c.remaining = left := by
  rw [Cursor.remaining, h.rest, Glyph.write_read]

-- One call of `next` moves on over some of the bytes that are left.
theorem Stands.next {c : Cursor} {taken left : Bytes} (h : c.Stands taken left) :
    ∃ eaten more, left = eaten ++ more ∧ c.next.2.Stands (taken ++ eaten) more := by
  have hcall := call_next h.rest
  have hline := h.line
  generalize c.next = result at hcall ⊢
  cases hcall with
  | ended hg =>
    refine ⟨left, [], (List.append_nil _).symm, rfl, ?_⟩
    rw [List.count_append, hg.count_newline, Nat.add_zero]
    exact hline
  | @cut gap more t hg hkind =>
    refine ⟨gap ++ t.raw, more, rfl, rfl, ?_⟩
    rw [List.count_append, List.count_append, hg.count_newline, Nat.zero_add, ← Nat.add_assoc,
      ← hline]
  | @broken gap body hg hu =>
    refine ⟨gap ++ 34 :: body, [], (List.append_nil _).symm, rfl, ?_⟩
    rw [List.count_append, List.count_append, hg.count_newline, Nat.zero_add, ← Nat.add_assoc,
      ← hline]
    rfl

theorem Stands.after {c : Cursor} {taken left : Bytes} (h : c.Stands taken left) (n : Nat) :
    ∃ eaten more, left = eaten ++ more ∧ (c.after n).Stands (taken ++ eaten) more := by
  induction n generalizing c taken left with
  | zero => exact ⟨[], left, rfl, by rwa [List.append_nil]⟩
  | succ n ih =>
    obtain ⟨eaten, more, rfl, hnext⟩ := h.next
    obtain ⟨eaten', more', rfl, hafter⟩ := ih hnext
    refine ⟨eaten ++ eaten', more', (List.append_assoc _ _ _).symm, ?_⟩
    rwa [← List.append_assoc]

-- From a place a gap leads to the point between the two parts of a source.
def Leads (c : Cursor) (before rest : Bytes) (source : Bytes) : Prop :=
  source = before ++ rest ∧ ∃ gap, Gap gap ∧ c.remaining = gap ++ rest

-- A token starts after the gap and is on the line of its first byte. The end of input comes after
-- all bytes.
theorem Stands.token {c : Cursor} {taken left : Bytes} {t : Token} (h : c.Stands taken left)
    (hn : c.next.1 = .ok t) :
    ∃ before, c.Leads before (t.raw ++ c.next.2.remaining) (taken ++ left) ∧
      t.line = 1 + before.count 10 ∧ (t.kind = .endOfInput → before = taken ++ left) := by
  have hcall := call_next h.rest
  have hremaining := h.remaining
  have hline := h.line
  generalize c.next = result at hcall hn ⊢
  cases hcall with
  | ended hg =>
    cases hn
    refine ⟨taken ++ left, ⟨(List.append_nil _).symm, left, hg, ?_⟩, ?_, fun _ => rfl⟩
    · rw [hremaining]
      exact (List.append_nil _).symm
    · rw [List.count_append, hg.count_newline, Nat.add_zero]
      exact hline
  | @cut gap more t hg hkind ht =>
    cases hn
    have hrest : Cursor.remaining ⟨Glyph.read more, c.line + t.raw.count 10⟩ = more :=
      Glyph.write_read more
    refine ⟨taken ++ gap, ⟨?_, gap, hg, ?_⟩, ?_, fun he => (hkind he).elim⟩
    · rw [hrest, List.append_assoc, List.append_assoc]
    · rw [hrest, hremaining, List.append_assoc]
    · rw [List.count_append, hg.count_newline, Nat.add_zero, ht]
      exact hline
  | broken => cases hn

-- A quote that is never closed is reported on its own line.
theorem Stands.failure {c : Cursor} {taken left : Bytes} {failure : Failure}
    (h : c.Stands taken left) (hn : c.next.1 = .error failure) :
    ∃ before body, c.Leads before (34 :: body) (taken ++ left) ∧ Unclosed body ∧
      failure = ⟨.unclosedString, 1 + before.count 10, []⟩ := by
  have hcall := call_next h.rest
  have hremaining := h.remaining
  have hline := h.line
  generalize c.next = result at hcall hn
  cases hcall with
  | ended => cases hn
  | cut => cases hn
  | @broken gap body hg hu =>
    cases hn
    refine ⟨taken ++ gap, body, ⟨(List.append_assoc _ _ _).symm, gap, hg, hremaining⟩, hu, ?_⟩
    have hint : (c.line : Int) = 1 + taken.count 10 := by omega
    rw [List.count_append, hg.count_newline, Nat.add_zero, hint]

end Cursor

namespace Scan

-- A scan lists what the calls of `next` return, one after the other.
theorem next_of_listed {c : Cursor} {n : Nat} {t : Token} (h : (ofCursor c).listed[n]? = some t) :
    (c.after n).next.1 = .ok t := by
  induction c using reading generalizing n with
  | ended c hgap =>
    have hlisted : (ofCursor c).listed = [⟨⟨[], c.line⟩, .endOfInput⟩] := by
      rw [ofCursor_ended hgap]
      rfl
    rw [hlisted] at h
    obtain ⟨rfl, rfl⟩ : n = 0 ∧ ⟨⟨[], c.line⟩, .endOfInput⟩ = t := by
      cases n with
      | zero => exact ⟨rfl, Option.some.inj h⟩
      | succ n => cases h
    simp [Cursor.after, Cursor.next, hgap]
  | broken c first rest hgap hc =>
    rw [ofCursor_broken hgap hc] at h
    cases h
  | cut c first rest piece hgap hc ih =>
    have hnext := Cursor.next_cut hgap hc
    rw [listed_cut hgap hc] at h
    cases n with
    | zero =>
      rw [Cursor.after, hnext]
      exact congrArg Except.ok (Option.some.inj h)
    | succ n =>
      rw [Cursor.after, hnext]
      exact ih h

theorem next_of_failure {c : Cursor} {failure : Failure} (h : (ofCursor c).failure = some failure) :
    (c.after (ofCursor c).tokens.length).next.1 = .error failure := by
  induction c using reading with
  | ended c hgap =>
    rw [ofCursor_ended hgap] at h
    cases h
  | broken c first rest hgap hc =>
    rw [ofCursor_broken hgap hc] at h ⊢
    cases h
    simp [Cursor.after, Cursor.next, hgap, hc]
  | cut c first rest piece hgap hc ih =>
    have hnext := Cursor.next_cut hgap hc
    rw [ofCursor_cut hgap hc] at h ⊢
    rw [List.length_cons, Cursor.after, hnext]
    exact ih h

-- Line numbers are exact. Every token that a scan lists is on the line of its first byte, an
-- unclosed string on the line of its opening quote, and after each call of `next` the line is the
-- one that the newlines consumed so far lead to.
theorem lines_exact (source : Bytes) :
    let place := (Cursor.start source).after
    let scan := ofSource source
    (∀ n t, scan.listed[n]? = some t → (place n).next.1 = .ok t ∧
      ∃ before, (place n).Leads before (t.raw ++ (place (n + 1)).remaining) source ∧
        t.line = 1 + before.count 10 ∧ (t.kind = .endOfInput → before = source)) ∧
    (∀ failure, scan.failure = some failure →
      (place scan.tokens.length).next.1 = .error failure ∧
      ∃ before body, (place scan.tokens.length).Leads before (34 :: body) source ∧
        Unclosed body ∧ failure = ⟨.unclosedString, 1 + before.count 10, []⟩) ∧
    ∀ n, ∃ consumed, source = consumed ++ (place n).remaining ∧
      (place n).line = 1 + consumed.count 10 := by
  intro place scan
  have hstands (n : Nat) : ∃ taken left, source = taken ++ left ∧ (place n).Stands taken left := by
    obtain ⟨eaten, more, hsource, hplace⟩ := (Cursor.stands_start source).after n
    exact ⟨eaten, more, hsource, hplace⟩
  refine ⟨fun n t ht => ?_, fun failure hf => ?_, fun n => ?_⟩
  · obtain ⟨taken, left, hsource, hplace⟩ := hstands n
    have hnext : (place n).next.1 = .ok t := next_of_listed ht
    have hafter : place (n + 1) = (place n).next.2 := Cursor.after_succ _ n
    rw [hafter, hsource]
    exact ⟨hnext, hplace.token hnext⟩
  · obtain ⟨taken, left, hsource, hplace⟩ := hstands scan.tokens.length
    have hnext : (place scan.tokens.length).next.1 = .error failure := next_of_failure hf
    refine ⟨hnext, ?_⟩
    rw [hsource]
    exact hplace.failure hnext
  · obtain ⟨taken, left, hsource, hplace⟩ := hstands n
    exact ⟨taken, by rwa [hplace.remaining], hplace.line⟩

-- A source to try theorems about lines on: a string of three lines, where a newline stands right
-- after a backslash, and on the line after it a string that is never closed.
def foldedSource : Bytes :=
  Bytes.ofString "A = \"x\n\\\n\\\"\"\nB \"y\n"

theorem lines_exact_foldedSource :
    let place := (Cursor.start foldedSource).after
    let scan := ofSource foldedSource
    scan.listed[3]? = some (lineEnd 3) ∧ scan.failure = some ⟨.unclosedString, 4, []⟩ ∧
      (∃ before, foldedSource = before ++ ((lineEnd 3).raw ++ (place 4).remaining) ∧
        before.count 10 = 2) ∧
      (∃ before body, foldedSource = before ++ 34 :: body ∧ before.count 10 = 3) ∧
      ∃ consumed, foldedSource = consumed ++ (place 6).remaining ∧ consumed.count 10 = 4 := by
  intro place scan
  obtain ⟨htokens, hfailures, hplaces⟩ := lines_exact foldedSource
  have htoken : scan.listed[3]? = some (lineEnd 3) := by decide +kernel
  have hfailure : scan.failure = some ⟨.unclosedString, 4, []⟩ := by decide +kernel
  refine ⟨htoken, hfailure, ?_, ?_, ?_⟩
  · obtain ⟨-, before, ⟨hsource, -⟩, hline, -⟩ := htokens 3 _ htoken
    have hcount : 3 = 1 + before.count 10 := hline
    exact ⟨before, hsource, by omega⟩
  · obtain ⟨-, before, body, ⟨hsource, -⟩, -, hbroken⟩ := hfailures _ hfailure
    have hcount : (4 : Int) = 1 + before.count 10 := congrArg Failure.line hbroken
    exact ⟨before, body, hsource, by omega⟩
  · obtain ⟨consumed, hsource, hline⟩ := hplaces 6
    have hlast : (place 6).line = 5 := by decide +kernel
    have hcount : 5 = 1 + consumed.count 10 := hlast.symm.trans hline
    exact ⟨consumed, hsource, by omega⟩

end Scan

end LineBasic
