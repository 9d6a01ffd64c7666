import LineBasic.Input
import LineBasic.Proofs.Digits
import Mathlib.Data.List.DropRight

namespace LineBasic.Input

variable {i j : Input} {line rest text data : Bytes} {lines pieces : List Bytes} {stop : Reading}

theorem chomp_eq (line : Bytes) : chomp line = line.rdropWhile (· == 13) :=
  rfl

theorem eq_chomp_append (line : Bytes) : ∃ count, line = chomp line ++ List.replicate count 13 := by
  have hreturns : ∀ b ∈ line.rtakeWhile (· == 13), b = 13 := fun b hb =>
    by simpa using List.mem_rtakeWhile_imp hb
  refine ⟨(line.rtakeWhile (· == 13)).length, ?_⟩
  rw [← List.eq_replicate_iff.mpr ⟨rfl, hreturns⟩, chomp_eq, List.rdropWhile_append_rtakeWhile]

theorem getLast?_chomp_ne (line : Bytes) : (chomp line).getLast? ≠ some 13 := by
  intro h
  have hne : chomp line ≠ [] := fun he => by simp [he] at h
  rw [List.getLast?_eq_some_getLast hne] at h
  exact List.rdropWhile_last_not (· == 13) line hne (beq_of_eq (Option.some.inj h))

theorem chomp_of_getLast?_ne (h : line.getLast? ≠ some 13) : chomp line = line := by
  rw [chomp_eq, List.rdropWhile_eq_self_iff]
  intro hne hreturn
  rw [List.getLast?_eq_some_getLast hne] at h
  exact h (congrArg some (by simpa using hreturn))

theorem chomp_append_return (line : Bytes) : chomp (line ++ [13]) = chomp line :=
  List.rdropWhile_concat_pos _ line 13 rfl

theorem not_newline (h : 10 ∉ line) : ∀ b ∈ line, (b != 10) = true := by
  intro b hb
  simpa using fun he : b = 10 => h (he ▸ hb)

theorem readLine_piece (h : 10 ∉ line) (rest : Bytes) (fault : Option Bytes) :
    readLine ⟨line ++ 10 :: rest, fault⟩ = (.line (chomp line), ⟨rest, fault⟩) := by
  have htail : ∀ b ∈ (10 :: rest).head?, (b != 10) = false := by simp
  obtain ⟨htake, hdrop⟩ := Digits.span_append (not_newline h) htail
  simp only [readLine, htake, hdrop]

-- What stands after the last newline is a line if the stream ends there, unless it is empty.
theorem readLine_rest (h : 10 ∉ rest) :
    readLine ⟨rest, none⟩ = (if rest = [] then .ended else .line (chomp rest), ⟨[], none⟩) := by
  have htail : ∀ b ∈ ([] : Bytes).head?, (b != 10) = false := by simp
  obtain ⟨htake, hdrop⟩ := Digits.span_append (not_newline h) htail
  rw [List.append_nil] at htake hdrop
  simp only [readLine, htake, hdrop, List.isEmpty_iff]

-- If the stream fails there, it is lost.
theorem readLine_lost (h : 10 ∉ rest) (message : Bytes) :
    readLine ⟨rest, some message⟩ = (.failed message, ⟨[], some message⟩) := by
  have hdrop : rest.dropWhile (· != 10) = [] := List.dropWhile_eq_nil_iff.mpr (not_newline h)
  simp only [readLine, hdrop]

def after (i : Input) : Nat → Input
  | 0 => i
  | n + 1 => i.readLine.2.after n

-- The calls of `readLine` give some lines, one after the other, and from then on always the same
-- reason for which there are no more.
def Gives (i : Input) (lines : List Bytes) (stop : Reading) : Prop :=
  ∀ n, (i.after n).readLine.1 = lines[n]?.elim stop .line

theorem gives_nil (hi : i.readLine = (stop, j)) (hj : j.readLine = (stop, j)) :
    i.Gives [] stop := by
  have hstay : ∀ n, j.after n = j := by
    intro n
    induction n with
    | zero => rfl
    | succ n ih => rw [after, hj, ih]
  intro n
  cases n with
  | zero => rw [after, hi]; rfl
  | succ n => rw [after, hi, hstay, hj]; rfl

theorem Gives.cons (h : j.Gives lines stop) (hi : i.readLine = (.line line, j)) :
    i.Gives (line :: lines) stop := by
  intro n
  cases n with
  | zero => rw [after, hi]; rfl
  | succ n =>
    rw [after, hi]
    exact h n

theorem Gives.tail (h : i.Gives (line :: lines) stop) :
    ∃ j, i.readLine = (.line line, j) ∧ j.Gives lines stop :=
  ⟨i.readLine.2, Prod.ext (h 0) rfl, fun n => h (n + 1)⟩

-- A stream is cut at its newlines into pieces that they end and the rest after the last one.
structure Cut (data : Bytes) (pieces : List Bytes) (rest : Bytes) : Prop where
  data : data = pieces.flatMap (· ++ [10]) ++ rest
  pieces : ∀ piece ∈ pieces, 10 ∉ piece
  rest : 10 ∉ rest

theorem exists_cut (data : Bytes) : ∃ pieces rest, Cut data pieces rest := by
  induction data with
  | nil => exact ⟨[], [], rfl, by simp, by simp⟩
  | cons b data ih =>
    obtain ⟨pieces, rest, rfl, hpieces, hrest⟩ := ih
    by_cases hb : b = 10
    · subst hb
      exact ⟨[] :: pieces, rest, rfl, by simpa using hpieces, hrest⟩
    · have hb : ¬10 = b := fun he => hb he.symm
      cases pieces with
      | nil => exact ⟨[], b :: rest, rfl, by simp, by simp [hb, hrest]⟩
      | cons piece pieces =>
        rw [List.forall_mem_cons] at hpieces
        exact ⟨(b :: piece) :: pieces, rest, rfl, by simpa [hb] using hpieces, hrest⟩

-- The pieces come first, whatever the rest gives.
theorem gives_pieces {fault : Option Bytes} (hp : ∀ piece ∈ pieces, 10 ∉ piece)
    (h : Gives ⟨rest, fault⟩ lines stop) :
    Gives ⟨pieces.flatMap (· ++ [10]) ++ rest, fault⟩ (pieces.map chomp ++ lines) stop := by
  induction pieces with
  | nil => exact h
  | cons piece pieces ih =>
    rw [List.forall_mem_cons] at hp
    refine (ih hp.2).cons ?_
    rw [List.flatMap_cons, List.append_assoc, List.append_assoc]
    exact readLine_piece hp.1 _ fault

theorem gives_of_cut (h : Cut data pieces rest) :
    Gives ⟨data, none⟩ ((if rest = [] then pieces else pieces ++ [rest]).map chomp) .ended := by
  rw [h.data]
  have hnone : Gives ⟨[], none⟩ [] .ended := gives_nil (j := ⟨[], none⟩) rfl rfl
  have hrest := readLine_rest h.rest
  by_cases hempty : rest = []
  · rw [if_pos hempty, hempty]
    simpa using gives_pieces h.pieces hnone
  · rw [if_neg hempty] at hrest ⊢
    rw [List.map_append]
    exact gives_pieces h.pieces (hnone.cons hrest)

theorem gives_of_cut_fault (h : Cut data pieces rest) (message : Bytes) :
    Gives ⟨data, some message⟩ (pieces.map chomp) (.failed message) := by
  rw [h.data]
  have hrest : Gives ⟨rest, some message⟩ [] (.failed message) :=
    gives_nil (readLine_lost h.rest message) rfl
  simpa using gives_pieces h.pieces hrest

-- Lines written to a stream, with a newline after each, before which a carriage return may stand.
-- There need be none after a last line that is not empty.
inductive Written : List Bytes → Bytes → Prop where
  | nothing : Written [] []
  | last {line : Bytes} (hne : line ≠ []) : Written [line] line
  | newline {line text : Bytes} {lines : List Bytes} (h : Written lines text) :
      Written (line :: lines) (line ++ 10 :: text)
  | returned {line text : Bytes} {lines : List Bytes} (h : Written lines text) :
      Written (line :: lines) (line ++ 13 :: 10 :: text)

-- What is written as a line is read as one.
def Plain (line : Bytes) : Prop :=
  10 ∉ line ∧ line.getLast? ≠ some 13

theorem gives_of_written (h : Written lines text) (hp : ∀ line ∈ lines, Plain line) :
    Gives ⟨text, none⟩ lines .ended := by
  induction h with
  | nothing => exact gives_nil (j := ⟨[], none⟩) rfl rfl
  | @last line hne =>
    obtain ⟨hline, hreturn⟩ := hp line List.mem_cons_self
    have hread := readLine_rest hline
    rw [if_neg hne, chomp_of_getLast?_ne hreturn] at hread
    exact (gives_nil (j := ⟨[], none⟩) rfl rfl).cons hread
  | @newline line text lines _ ih =>
    obtain ⟨hline, hreturn⟩ := hp line List.mem_cons_self
    refine (ih fun l hl => hp l (List.mem_cons_of_mem _ hl)).cons ?_
    rw [readLine_piece hline, chomp_of_getLast?_ne hreturn]
  | @returned line text lines _ ih =>
    obtain ⟨hline, hreturn⟩ := hp line List.mem_cons_self
    refine (ih fun l hl => hp l (List.mem_cons_of_mem _ hl)).cons ?_
    -- the piece is the line with the carriage return
    have hpiece : 10 ∉ line ++ [13] := by simpa using hline
    have hread := readLine_piece hpiece text none
    rwa [List.append_assoc, List.singleton_append, chomp_append_return,
      chomp_of_getLast?_ne hreturn] at hread

-- A line takes a byte at least.
theorem length_lt_of_readLine (h : i.readLine = (.line line, j)) :
    j.data.length < i.data.length := by
  have hsplit := List.takeWhile_append_dropWhile (p := (· != 10)) (l := i.data)
  unfold readLine at h
  dsimp only at h
  split at h
  · rename_i b rest hdrop
    cases h
    rw [hdrop] at hsplit
    have hlength := congrArg List.length hsplit
    rw [List.length_append, List.length_cons] at hlength
    show rest.length < _
    omega
  · -- no newline: all the data is the line
    rename_i hdrop
    rw [hdrop, List.append_nil] at hsplit
    rw [hsplit] at h
    split at h
    · cases h
    · split at h
      · cases h
      · rename_i hne
        cases h
        exact List.length_pos_iff.mpr (by simpa using hne)

theorem Gives.length_le (h : i.Gives lines stop) : lines.length ≤ i.data.length := by
  induction lines generalizing i with
  | nil => exact Nat.zero_le _
  | cons line lines ih =>
    obtain ⟨j, hi, hj⟩ := h.tail
    exact Nat.lt_of_le_of_lt (ih hj) (length_lt_of_readLine hi)

theorem readUpTo_of_gives (h : i.Gives lines stop) (hs : ∀ line, stop ≠ .line line) {fuel : Nat}
    (hf : lines.length < fuel) : readUpTo fuel i = (lines, stop) := by
  induction lines generalizing i fuel with
  | nil =>
    obtain ⟨fuel, rfl⟩ := Nat.exists_eq_add_of_lt hf
    have hstop : i.readLine.1 = stop := h 0
    unfold readUpTo
    split
    · rename_i text j hi
      rw [hi] at hstop
      exact (hs text hstop.symm).elim
    · rename_i hi
      rw [hi] at hstop
      exact congrArg (Prod.mk []) hstop
  | cons line lines ih =>
    cases fuel with
    | zero => cases hf
    | succ fuel =>
      obtain ⟨j, hi, hj⟩ := h.tail
      rw [readUpTo, hi]
      simp only [ih hj (Nat.lt_of_succ_lt_succ hf)]

-- The fuel of `readAll` lasts to the end.
theorem readAll_of_gives (h : i.Gives lines stop) (hs : ∀ line, stop ≠ .line line) :
    i.readAll = (lines, stop) :=
  readUpTo_of_gives h hs (Nat.lt_succ_of_le h.length_le)

-- Input is read line by line. A stream is cut at its newlines; the pieces are given in order, with
-- the rest after them if it is not empty and the stream ends there, each without the carriage
-- returns at its end; then every call gives the end. If the stream fails after its data, the
-- pieces are given in the same way, the rest is lost, and then there is the failure. So lines
-- without newlines and without carriage returns at their ends are read as they were written.
theorem lines_read :
    (∀ data, ∃ pieces rest, Cut data pieces rest ∧
      (let lines := (if rest = [] then pieces else pieces ++ [rest]).map chomp
       Gives ⟨data, none⟩ lines .ended ∧ readAll ⟨data, none⟩ = (lines, .ended)) ∧
      ∀ message, Gives ⟨data, some message⟩ (pieces.map chomp) (.failed message) ∧
        readAll ⟨data, some message⟩ = (pieces.map chomp, .failed message)) ∧
    (∀ line, (chomp line).getLast? ≠ some 13 ∧
      ∃ count, line = chomp line ++ List.replicate count 13) ∧
    ∀ lines text, Written lines text → (∀ line ∈ lines, Plain line) →
      Gives ⟨text, none⟩ lines .ended ∧ readAll ⟨text, none⟩ = (lines, .ended) := by
  have hended : ∀ line, Reading.ended ≠ .line line := fun line h => by cases h
  have hfailed (message : Bytes) : ∀ line, Reading.failed message ≠ .line line :=
    fun line h => by cases h
  refine ⟨fun data => ?_, fun line => ⟨getLast?_chomp_ne line, eq_chomp_append line⟩, ?_⟩
  · obtain ⟨pieces, rest, hcut⟩ := exists_cut data
    have hlines := gives_of_cut hcut
    refine ⟨pieces, rest, hcut, ⟨hlines, readAll_of_gives hlines hended⟩, fun message => ?_⟩
    have hpieces := gives_of_cut_fault hcut message
    exact ⟨hpieces, readAll_of_gives hpieces (hfailed message)⟩
  · intro lines text hw hp
    have hlines := gives_of_written hw hp
    exact ⟨hlines, readAll_of_gives hlines hended⟩

-- A line with a carriage return in it, an empty one, and a last one without a newline.
theorem lines_read_mixedEnds :
    let lines : List Bytes := [Bytes.ofString "a\rb", [], Bytes.ofString "c"]
    let text : Bytes := Bytes.ofString "a\rb\r\n\nc"
    Written lines text ∧ (∀ line ∈ lines, Plain line) ∧ Gives ⟨text, none⟩ lines .ended ∧
      readAll ⟨text, none⟩ = (lines, .ended) := by
  intro lines text
  have hw : Written lines text := .returned (.newline (.last (by decide)))
  have hp : ∀ line ∈ lines, Plain line := by
    simp only [lines, Plain]
    decide
  exact ⟨hw, hp, lines_read.2.2 lines text hw hp⟩

end LineBasic.Input
