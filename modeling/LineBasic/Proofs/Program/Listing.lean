import LineBasic.Proofs.CommandLine.Lines
import LineBasic.Proofs.Program.Nesting
import LineBasic.Proofs.Token.Scan

namespace LineBasic

namespace Bytes

variable {b : UInt8} {n : Nat}

theorem mem_join {separator : Bytes} {pieces : List Bytes} (h : b ∈ join separator pieces) :
    b ∈ separator ∨ ∃ piece ∈ pieces, b ∈ piece := by
  induction pieces with
  | nil => cases h
  | cons piece rest ih =>
    cases rest with
    | nil => exact .inr ⟨piece, List.mem_cons_self, h⟩
    | cons next more =>
      simp only [join, List.mem_append] at h
      rcases h with (h | h) | h
      · exact .inr ⟨piece, List.mem_cons_self, h⟩
      · exact .inl h
      · rcases ih h with h | ⟨other, hmem, h⟩
        · exact .inl h
        · exact .inr ⟨other, List.mem_cons_of_mem _ hmem, h⟩

theorem newline_not_mem_padded (width n : Nat) : (10 : UInt8) ∉ padded width n := by
  simp [padded, newline_not_mem_ofNat]

theorem newline_not_mem_hex (width n : Nat) : (10 : UInt8) ∉ hex width n := by
  have hdigit : ∀ d < 16, hexDigit d ≠ 10 := by decide
  induction width with
  | zero => exact List.not_mem_nil
  | succ width ih =>
    have hne := (hdigit _ (Nat.mod_lt (n / Nat.pow 16 width) (by decide))).symm
    simpa [hex, ih] using hne

end Bytes

theorem Double.newline_not_mem_print (x : Double) : (10 : UInt8) ∉ x.print := by
  have hsign : (10 : UInt8) ∉ if x.negative then [45] else [] := by split <;> decide
  have hdigits (n : Nat) := Bytes.newline_not_mem_ofNat n
  have htake (n k : Nat) : (10 : UInt8) ∉ (Bytes.ofNat n).take k :=
    fun h => hdigits n (List.mem_of_mem_take h)
  have hdrop (n k : Nat) : (10 : UInt8) ∉ (Bytes.ofNat n).drop k :=
    fun h => hdigits n (List.mem_of_mem_drop h)
  have hpositional (d : Decimal) : (10 : UInt8) ∉ positional d := by
    unfold positional
    dsimp only
    split
    · simp [hdigits]
    · split <;> simp [hdigits, htake, hdrop]
  have hscientific (d : Decimal) : (10 : UInt8) ∉ scientific d := by
    unfold scientific
    dsimp only
    have htail : (10 : UInt8) ∉ (Bytes.ofNat d.digits).tail :=
      fun h => hdigits _ (List.mem_of_mem_tail h)
    split <;> simp [htake, htail, Bytes.newline_not_mem_ofInt]
  have hwords : (10 : UInt8) ∉ Bytes.ofString "NaN" ∧ (10 : UInt8) ∉ Bytes.ofString "Infinity" ∧
      (10 : UInt8) ∉ Bytes.ofString "0.0" := by decide
  unfold print
  dsimp only
  split
  · exact hwords.1
  · split
    · exact List.not_mem_append hsign hwords.2.1
    · split
      · exact List.not_mem_append hsign hwords.2.2
      · split
        · exact List.not_mem_append hsign (hpositional _)
        · exact List.not_mem_append hsign (hscientific _)

theorem Text.newline_not_mem_quoted (text : Bytes) : (10 : UInt8) ∉ quoted text := by
  have hglyph (g : Glyph) : (10 : UInt8) ∉ quotedGlyph g := by
    cases g with
    | stray b => simp [quotedGlyph, Bytes.newline_not_mem_hex]
    | char c =>
      unfold quotedGlyph
      dsimp only
      split
      · rename_i letter hletter
        have hne : letter ≠ 10 := by
          rintro rfl
          unfold escapeLetter? at hletter
          split at hletter <;> cases hletter
        simpa using hne.symm
      · rename_i hnone
        split
        · intro h
          obtain rfl := Glyph.newline_mem_encode.mp h
          cases hnone
        · split
          · simp [Bytes.newline_not_mem_hex]
          · split <;> simp [Bytes.newline_not_mem_hex]
  simp [quoted, hglyph]

def Token.Kind.shown : Token.Kind → Bool
  | .variable => true
  | .label => true
  | .command _ => true
  | .operator _ => true
  | _ => false

-- What a listing shows of a token stands on one line.
def Token.Legible (t : Token) : Prop :=
  t.kind.shown → (10 : UInt8) ∉ t.text

theorem Piece.newline_not_mem_lexeme {first : Glyph} {rest : List Glyph} {piece : Piece}
    (h : cut? first rest = some piece) (hk : piece.kind.shown) :
    (10 : UInt8) ∉ Glyph.write piece.lexeme := by
  have hparts {name : List Glyph} (hname : ∀ g ∈ name, isWordPart g) :
      (10 : UInt8) ∉ Glyph.write name := by
    intro hmem
    obtain ⟨g, hg, hb⟩ := List.mem_flatMap.mp hmem
    exact newline_not_mem_bytes (hname g hg) hb
  cases cut?_eq_some_iff.mp h with
  | quotation => cases hk
  | @pair c d op hp =>
    have hall : ∀ pair ∈ pairs, (10 : UInt8) ∉ Glyph.write [.char pair.1, .char pair.2.1] := by
      decide
    exact hall _ hp
  | less => exact show (10 : UInt8) ∉ Glyph.write [.char '<'] by decide
  | greater => exact show (10 : UInt8) ∉ Glyph.write [.char '>'] by decide
  | @single c kind hkind =>
    intro hmem
    have hc : (10 : UInt8) ∈ String.utf8EncodeChar c := by
      simpa [plain, Glyph.write, Glyph.bytes] using hmem
    obtain rfl := Glyph.newline_mem_encode.mp hc
    cases hkind
    cases hk
  | number =>
    unfold number at hk
    dsimp only at hk
    split at hk <;> cases hk
  | word =>
    have hall : ∀ g ∈ (first :: rest).takeWhile isWordPart, isWordPart g :=
      List.all_eq_true.mp List.all_takeWhile
    unfold word
    dsimp only
    split
    · exact hparts hall
    · split <;> exact hparts hall
  | unknown => cases hk

theorem Scan.legible {c : Cursor} {t : Token} (h : t ∈ (ofCursor c).tokens) : t.Legible := by
  induction c using reading with
  | ended c hgap =>
    rw [ofCursor_ended hgap] at h
    cases h
  | broken c first rest hgap hc =>
    rw [ofCursor_broken hgap hc] at h
    cases h
  | cut c first rest piece hgap hc ih =>
    rw [ofCursor_cut hgap hc] at h
    rcases List.mem_cons.mp h with rfl | h
    · exact Piece.newline_not_mem_lexeme hc
    · exact ih h

theorem Expr.newline_not_mem_describe {e : Expr} (h : ∀ t ∈ e.tokens, t.Legible) :
    (10 : UInt8) ∉ e.describe := by
  induction e with
  | number value word => exact value.newline_not_mem_print
  | string value word => exact Text.newline_not_mem_quoted value
  | «variable» name => exact h ⟨name, .variable⟩ (by simp [tokens]) rfl
  | grouping opening inner closing ih => exact ih fun t ht => h t (by simp [tokens, ht])
  | binary left op sign right ihl ihr =>
    have hleft := ihl fun t ht => h t (by simp [tokens, ht])
    have hright := ihr fun t ht => h t (by simp [tokens, ht])
    have hsign := h ⟨sign, .operator op⟩ (by simp [tokens]) rfl
    simpa [describe, hleft, hright] using hsign

namespace Instr

theorem newline_not_mem_form {name : String} {arguments : List Bytes}
    (hn : (10 : UInt8) ∉ Bytes.ofString name) (h : ∀ a ∈ arguments, (10 : UInt8) ∉ a) :
    (10 : UInt8) ∉ form name arguments := by
  intro hmem
  simp only [form, List.mem_append, List.mem_singleton] at hmem
  rcases hmem with (hmem | hmem) | hmem
  · cases hmem
  · rcases Bytes.mem_join hmem with hmem | ⟨piece, hp, hmem⟩
    · cases List.mem_singleton.mp hmem
    · rcases List.mem_cons.mp hp with rfl | hp
      · exact hn hmem
      · exact h piece hp hmem
  · cases hmem

theorem newline_not_mem_mark {role : String} (hr : (10 : UInt8) ∉ Bytes.ofString role)
    (position : Nat) : (10 : UInt8) ∉ mark role position := by
  simp [mark, hr, Bytes.newline_not_mem_padded]

end Instr

namespace Block

theorem PrintList.legible {es : List Expr} {ts : List Token} (h : PrintList es ts)
    (hts : ∀ t ∈ ts, t.Legible) : ∀ e ∈ es, (10 : UInt8) ∉ e.describe := by
  induction h with
  | empty => exact fun e he => nomatch he
  | last _ =>
    intro e he
    cases List.mem_singleton.mp he
    exact Expr.newline_not_mem_describe hts
  | more _ _ _ ih =>
    intro e he
    rcases List.mem_cons.mp he with rfl | he
    · exact Expr.newline_not_mem_describe fun t ht => hts t (by simp [ht])
    · exact ih (fun t ht => hts t (by simp [ht])) e he

theorem shown_of_isName {token : Token} (h : isName token) : token.kind.shown := by
  obtain ⟨word, kind⟩ := token
  cases kind <;> first | rfl | cases h

theorem Derives.newline_not_mem_describe {stmt : Stmt} {ts after : List Token}
    (h : Derives stmt ts after) (hts : ∀ t ∈ ts, t.Legible) :
    (10 : UInt8) ∉ Instr.describeStmt stmt := by
  have hform : ∀ name ∈ ["set", "print", "input", "goto", "gosub", "return", "label", "end"],
      (10 : UInt8) ∉ Bytes.ofString name := by decide
  have hname (word : Word) (kind : Token.Kind) (ht : (⟨word, kind⟩ : Token) ∈ ts)
      (hk : kind.shown) : (10 : UInt8) ∉ word.text := hts _ ht hk
  cases h with
  | @label name =>
    have htext := hname name .label (by simp) rfl
    exact Instr.newline_not_mem_form (hform _ (by simp)) (by simpa using htext)
  | @assign name sign value _ _ =>
    have htext := hname name .variable (by simp) rfl
    have hvalue := value.newline_not_mem_describe fun t ht => hts t (by simp [ht])
    exact Instr.newline_not_mem_form (hform _ (by simp)) (by simp [htext, hvalue])
  | print hl _ =>
    have hlist := hl.legible fun t ht => hts t (by simp [ht])
    exact Instr.newline_not_mem_form (hform _ (by simp)) (by simpa using hlist)
  | @input keyword name _ =>
    have htext := hname name .variable (by simp) rfl
    exact Instr.newline_not_mem_form (hform _ (by simp)) (by simpa using htext)
  | @prompt keyword word name text _ =>
    have htext := hname name .variable (by simp) rfl
    have hprompt := Text.newline_not_mem_quoted text
    exact Instr.newline_not_mem_form (hform _ (by simp)) (by simp [htext, hprompt])
  | @separatedPrompt keyword word name text separator _ _ =>
    have htext := hname name .variable (by simp) rfl
    have hprompt := Text.newline_not_mem_quoted text
    exact Instr.newline_not_mem_form (hform _ (by simp)) (by simp [htext, hprompt])
  | @goto keyword name _ hn =>
    have htext := hts name (by simp) (shown_of_isName hn)
    exact Instr.newline_not_mem_form (hform _ (by simp)) (by simpa using htext)
  | @gosub keyword name _ hn =>
    have htext := hts name (by simp) (shown_of_isName hn)
    exact Instr.newline_not_mem_form (hform _ (by simp)) (by simpa using htext)
  | ret => exact Instr.newline_not_mem_form (hform _ (by simp)) (by simp)
  | stop => exact Instr.newline_not_mem_form (hform _ (by simp)) (by simp)

end Block

-- What a listing shows of a statement stands on one line, whatever positions it names.
def Head.Legible : Head → Prop
  | .simple stmt => (10 : UInt8) ∉ Instr.describeStmt stmt
  | .branch _ condition => (10 : UInt8) ∉ condition.describe
  | .loop _ name first last =>
    (10 : UInt8) ∉ name.text ∧ (10 : UInt8) ∉ first.describe ∧ (10 : UInt8) ∉ last.describe
  | _ => True

theorem Instr.newline_not_mem_describe {instr : Instr} (h : instr.head.Legible) :
    (10 : UInt8) ∉ instr.describe := by
  have hform : ∀ name ∈ ["if", "else", "endif", "for", "exit", "next"],
      (10 : UInt8) ∉ Bytes.ofString name := by decide
  have hmark (role : String) (hrole : role ∈ ["if", "else", "endif", "for", "exit", "next"])
      (position : Nat) := newline_not_mem_mark (hform role hrole) position
  cases instr with
  | simple stmt => exact h
  | branch keyword condition elseBranch endif =>
    have hc : (10 : UInt8) ∉ condition.describe := h
    rw [describe]
    split
    · exact newline_not_mem_form (hform _ (by simp)) (by simp [hc, hmark])
    · exact newline_not_mem_form (hform _ (by simp)) (by simp [hc, hmark])
  | otherwise keyword endif => exact newline_not_mem_form (hform _ (by simp)) (by simp [hmark])
  | loop keyword name first last exit =>
    obtain ⟨hn, hf, hl⟩ := h
    exact newline_not_mem_form (hform _ (by simp)) (by simp [hn, hf, hl, hmark])
  | next keyword header => exact newline_not_mem_form (hform _ (by simp)) (by simp [hmark])

theorem Block.Body.legible {block : Block} {ts after : List Token} (h : Body block ts after)
    (hts : ∀ t ∈ ts, t.Legible) {head : Head} (hmem : head ∈ block.heads) : head.Legible := by
  induction h with
  | done => cases hmem
  | separator _ _ ih => exact ih (fun t ht => hts t (by simp [ht])) hmem
  | simple hs _ ih =>
    rcases List.mem_cons.mp hmem with rfl | hmem
    · exact hs.newline_not_mem_describe fun t ht => hts t (by simp [ht])
    · exact ih (fun t ht => hts t (by simp [ht])) hmem
  | branch _ _ _ ihb ihr =>
    simp only [heads, List.cons_append, List.mem_cons, List.mem_append] at hmem
    rcases hmem with rfl | hmem | hmem
    · exact Expr.newline_not_mem_describe fun t ht => hts t (by simp [ht])
    · exact ihb (fun t ht => hts t (by simp [ht])) hmem
    · exact ihr (fun t ht => hts t (by simp [ht])) hmem
  | choice _ _ _ _ ihb iha ihr =>
    simp only [heads, List.cons_append, List.append_assoc, List.mem_cons, List.mem_append] at hmem
    rcases hmem with rfl | hmem | rfl | hmem | hmem
    · exact Expr.newline_not_mem_describe fun t ht => hts t (by simp [ht])
    · exact ihb (fun t ht => hts t (by simp [ht])) hmem
    · trivial
    · exact iha (fun t ht => hts t (by simp [ht])) hmem
    · exact ihr (fun t ht => hts t (by simp [ht])) hmem
  | @loop keyword name _ _ _ _ _ _ _ _ _ _ _ _ _ _ _ _ ihb ihr =>
    simp only [heads, List.cons_append, List.mem_cons, List.mem_append] at hmem
    rcases hmem with rfl | hmem | rfl | hmem
    · refine ⟨hts ⟨name, .variable⟩ (by simp) rfl, ?_, ?_⟩
      · exact Expr.newline_not_mem_describe fun t ht => hts t (by simp [ht])
      · exact Expr.newline_not_mem_describe fun t ht => hts t (by simp [ht])
    · exact ihb (fun t ht => hts t (by simp [ht])) hmem
    · trivial
    · exact ihr (fun t ht => hts t (by simp [ht])) hmem

namespace Program

def listingRow (position level : Nat) (instr : Instr) : Bytes :=
  Bytes.padded 4 position ++ [32, 32] ++ List.replicate (2 * level) 32 ++ instr.describe

def listingRows (block : Block) : List Bytes :=
  (((block.flatten 0).zip (block.depths 0)).zipIdx).map fun ((instr, level), position) =>
    listingRow position level instr

theorem listing_ofBlock (block : Block) :
    (ofBlock block).listing = (listingRows block).flatMap (· ++ [10]) := by
  rw [listing, code_ofBlock, levels_ofBlock, List.zip_map_right, List.zipIdx_map, List.flatMap_map,
    listingRows, List.flatMap_map]
  rfl

theorem getElem?_listingRows {block : Block} {i : Nat} {instr : Instr}
    (h : (ofBlock block).code[i]? = some instr) :
    (listingRows block)[i]? = some (listingRow i (block.nesting i) instr) := by
  rw [← Array.getElem?_toList, code_ofBlock] at h
  have hi : i < (block.depths 0).length := by
    have hlt := (List.getElem?_eq_some_iff.mp h).1
    rw [Block.length_flatten] at hlt
    rwa [Block.length_depths]
  have hlevel := block.counts_depths 0 0 i _ (List.getElem?_eq_getElem hi)
  rw [Nat.zero_add, Nat.zero_add] at hlevel
  have hpair : ((block.flatten 0).zip (block.depths 0))[i]? = some (instr, block.nesting i) := by
    rw [List.getElem?_zip_eq_some, List.getElem?_eq_getElem hi]
    exact ⟨h, congrArg some hlevel⟩
  simp [listingRows, hpair]

theorem fits_ofBlock {block : Block} {i : Nat} {instr : Instr}
    (h : (ofBlock block).code[i]? = some instr) :
    i < (ofBlock block).size ∧ (ofBlock block).Fits (ofBlock block).size i instr := by
  have hclosed := block.closed_of_placedAt 0 block.placedAt_ofBlock
  have hi : i < (ofBlock block).size := (Array.getElem?_eq_some_iff.mp h).choose
  rw [Nat.zero_add, ← size_ofBlock] at hclosed
  exact ⟨hi, hclosed.fits i instr (Nat.zero_le i) hi h⟩

-- A change of level falls on a position of the program or on the place after its last one.
theorem levelChanges_lt {block : Block} {i : Nat} {instr : Instr}
    (h : (ofBlock block).code[i]? = some instr) :
    ∀ change ∈ instr.levelChanges i, change.1 < (ofBlock block).levelSteps.size := by
  obtain ⟨hi, hfits⟩ := fits_ofBlock h
  rw [size_levelSteps]
  cases instr with
  | simple stmt =>
    intro change hmem
    cases hmem
  | branch keyword condition elseBranch endif =>
    have hend : endif ≤ (ofBlock block).size := hfits.2.2.1
    simp only [Instr.levelChanges, List.mem_cons, List.not_mem_nil, or_false]
    rintro change (rfl | rfl)
    · exact Nat.succ_lt_succ hi
    · exact Nat.lt_succ_of_le hend
  | otherwise keyword endif =>
    simp only [Instr.levelChanges, List.mem_cons, List.not_mem_nil, or_false]
    rintro change (rfl | rfl)
    · exact Nat.lt_succ_of_lt hi
    · exact Nat.succ_lt_succ hi
  | loop keyword name first last exit =>
    have hexit : exit ≤ (ofBlock block).size := hfits.2.1
    simp only [Instr.levelChanges, List.mem_cons, List.not_mem_nil, or_false]
    rintro change (rfl | rfl)
    · exact Nat.succ_lt_succ hi
    · dsimp only
      omega
  | next keyword header =>
    intro change hmem
    cases hmem

-- The listing of a source that parses has a line for each position, in order, indented by the
-- number of bodies around the statement. Every change of level falls on a step of its own, and the
-- place before the exit of a FOR exists.
theorem listing_nested {source : Bytes} {p : Program} (h : parse source = .ok p) :
    ∃ block, Block.parse (Scan.ofSource source) = .ok block ∧ p = ofBlock block ∧
      (∀ (i : Nat) (instr : Instr), p.code[i]? = some instr →
        ∀ change ∈ instr.levelChanges i, change.1 < p.levelSteps.size) ∧
      (∀ (i : Nat) (keyword name : Word) (first last : Expr) (exit : Nat),
        p.code[i]? = some (.loop keyword name first last exit) → 0 < exit) ∧
      (∀ level ∈ p.levels, 0 ≤ level) ∧ p.levels = (block.depths 0).map Int.ofNat ∧
      (∀ i < p.size, (block.depths 0)[i]? = some (block.nesting i)) ∧
      ∃ rows, Bytes.splitOn 10 p.listing = rows ++ [[]] ∧ rows.length = p.size ∧
        ∀ (i : Nat) (instr : Instr), p.code[i]? = some instr →
          rows[i]? = some (listingRow i (block.nesting i) instr) := by
  obtain ⟨block, hparse, rfl⟩ := parse_eq_ok.mp h
  obtain ⟨-, hbody, -⟩ := Block.parse_sound hparse
  have hsize := size_ofBlock block
  refine ⟨block, hparse, rfl, fun i instr hat => levelChanges_lt hat, ?_, ?_, levels_ofBlock block,
    ?_, listingRows block, ?_, ?_, fun i instr hat => getElem?_listingRows hat⟩
  · intro i keyword name first last exit hat
    have hexit : i + 1 < exit := (fits_ofBlock hat).2.1
    omega
  · intro level hmem
    rw [levels_ofBlock] at hmem
    obtain ⟨depth, -, rfl⟩ := List.mem_map.mp hmem
    exact Int.natCast_nonneg depth
  · intro i hi
    have hlt : i < (block.depths 0).length := by rw [Block.length_depths]; omega
    have hlevel := block.counts_depths 0 0 i _ (List.getElem?_eq_getElem hlt)
    rw [Nat.zero_add, Nat.zero_add] at hlevel
    rw [List.getElem?_eq_getElem hlt, hlevel]
    rfl
  · have hrows : ∀ row ∈ listingRows block, (10 : UInt8) ∉ row := by
      intro row hmem
      obtain ⟨⟨⟨instr, level⟩, position⟩, hrow, rfl⟩ := List.mem_map.mp hmem
      have hinstr : instr ∈ block.flatten 0 :=
        (List.of_mem_zip (List.fst_mem_of_mem_zipIdx hrow)).1
      have hhead : instr.head ∈ block.heads := by
        rw [← block.map_head_flatten 0]
        exact List.mem_map_of_mem hinstr
      have hlegible := hbody.legible (fun t ht => Scan.legible ht) hhead
      simp [listingRow, Bytes.newline_not_mem_padded, Instr.newline_not_mem_describe hlegible]
    rw [listing_ofBlock]
    exact Bytes.splitOn_flatMap hrows
  · simp [listingRows, Block.length_flatten, Block.length_depths, hsize]

theorem listing_nested_countingSource :
    parse countingSource = .ok (.ofBlock counting) ∧
      (ofBlock counting).levels = [0, 1, 2, 1, 2, 0] ∧
      ∃ rows, Bytes.splitOn 10 (ofBlock counting).listing = rows ++ [[]] ∧ rows.length = 6 ∧
        rows[2]? = some (Bytes.ofString "0002      (end)") := by
  have h := parse_eq_ok.mpr ⟨_, parse_countingSource, rfl⟩
  obtain ⟨block, hparse, -, -, -, -, -, -, rows, hsplit, hlength, hrows⟩ := listing_nested h
  cases parse_countingSource.symm.trans hparse
  have hrow := hrows 2 (.simple (.stop (.ofString "END" 1))) (by decide)
  exact ⟨h, by decide +kernel, rows, hsplit, hlength, hrow.trans (by decide +kernel)⟩

end Program

end LineBasic
