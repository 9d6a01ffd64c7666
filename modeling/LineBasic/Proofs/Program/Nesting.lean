import LineBasic.Program.Listing
import LineBasic.Proofs.Program.WellFormed

namespace LineBasic

-- How many stretches of positions have a position in them. Each one is given by its first position
-- and the one after its last.
def enclosing (stretches : List (Nat × Nat)) (i : Nat) : Nat :=
  stretches.countP fun stretch => decide (stretch.1 ≤ i) && decide (i < stretch.2)

theorem enclosing_append (left right : List (Nat × Nat)) (i : Nat) :
    enclosing (left ++ right) i = enclosing left i + enclosing right i :=
  List.countP_append

theorem enclosing_cons {low high : Nat} (h : low ≤ high) (rest : List (Nat × Nat)) (i : Nat) :
    (enclosing ((low, high) :: rest) i : Int) =
      enclosing rest i + (if low ≤ i then 1 else 0) - if high ≤ i then 1 else 0 := by
  simp only [enclosing, List.countP_cons, Bool.and_eq_true, decide_eq_true_eq]
  split <;> omega

-- Stretches that lie between two positions have no position in them outside.
def Between (low high : Nat) (stretches : List (Nat × Nat)) : Prop :=
  ∀ stretch ∈ stretches, low ≤ stretch.1 ∧ stretch.2 ≤ high

theorem Between.enclosing_eq_zero {low high i : Nat} {stretches : List (Nat × Nat)}
    (h : Between low high stretches) (hi : i < low ∨ high ≤ i) : enclosing stretches i = 0 := by
  refine List.countP_eq_zero.mpr fun stretch hmem => ?_
  have := h stretch hmem
  simp only [Bool.and_eq_true, decide_eq_true_eq]
  omega

theorem Between.mono {low high low' high' : Nat} {stretches : List (Nat × Nat)}
    (h : Between low high stretches) (hl : low' ≤ low) (hh : high ≤ high') :
    Between low' high' stretches := by
  intro stretch hmem
  have := h stretch hmem
  omega

theorem Between.append {low high : Nat} {left right : List (Nat × Nat)}
    (hl : Between low high left) (hr : Between low high right) :
    Between low high (left ++ right) := by
  intro stretch hmem
  rcases List.mem_append.mp hmem with h | h
  · exact hl stretch h
  · exact hr stretch h

theorem Between.cons {low high first last : Nat} {rest : List (Nat × Nat)} (hl : low ≤ first)
    (hh : last ≤ high) (h : Between low high rest) : Between low high ((first, last) :: rest) := by
  intro stretch hmem
  rcases List.mem_cons.mp hmem with rfl | hmem
  · exact ⟨hl, hh⟩
  · exact h stretch hmem

namespace Program

-- The sum of the changes at a position and before it.
def reached : List (Nat × Int) → Nat → Int
  | [], _ => 0
  | (position, change) :: rest, i => (if position ≤ i then change else 0) + reached rest i

theorem reached_append (left right : List (Nat × Int)) (i : Nat) :
    reached (left ++ right) i = reached left i + reached right i := by
  induction left with
  | nil => simp [reached]
  | cons first left ih =>
    simp only [List.cons_append, reached, ih]
    omega

theorem length_sums (total : Int) (steps : List Int) :
    (sums total steps).length = steps.length := by
  induction steps generalizing total with
  | nil => rfl
  | cons step rest ih => simp [sums, ih]

theorem sums_add (total change : Int) (steps : List Int) :
    sums (total + change) steps = (sums total steps).map (· + change) := by
  induction steps generalizing total with
  | nil => rfl
  | cons step rest ih =>
    have hcomm : total + change + step = total + step + change := by omega
    simp only [sums, List.map_cons, hcomm, ih]

theorem sums_zero (n : Nat) : sums 0 (List.replicate n 0) = List.replicate n 0 := by
  induction n with
  | zero => rfl
  | succ n ih => simpa [List.replicate_succ, sums] using ih

-- A change of one step changes the sums from there on.
theorem getElem?_sums_modify (total change : Int) (steps : List Int) (position i : Nat) :
    (sums total (steps.modify position (· + change)))[i]? =
      (sums total steps)[i]?.map (· + if position ≤ i then change else 0) := by
  induction steps generalizing total position i with
  | nil => simp [sums]
  | cons step rest ih =>
    cases position with
    | zero =>
      have hall : sums total ((step :: rest).modify 0 (· + change)) =
          (sums total (step :: rest)).map (· + change) := by
        simp only [List.modify_zero_cons, sums, List.map_cons, ← Int.add_assoc, sums_add]
      rw [hall, List.getElem?_map, if_pos (Nat.zero_le i)]
    | succ position =>
      cases i with
      | zero => simp [sums]
      | succ i => simpa [sums] using ih (total + step) position i

theorem getElem?_sums_foldl (changes : List (Nat × Int)) (steps : Array Int) (i : Nat) :
    (sums 0 (changes.foldl (fun steps (position, change) => steps.modify position (· + change))
      steps).toList)[i]? = (sums 0 steps.toList)[i]?.map (· + reached changes i) := by
  induction changes generalizing steps with
  | nil => simp [reached]
  | cons first rest ih =>
    obtain ⟨position, change⟩ := first
    rw [List.foldl_cons, ih, Array.toList_modify, getElem?_sums_modify, Option.map_map]
    congr 1
    funext level
    simp only [Function.comp_apply, reached]
    omega

def changesFrom (instrs : List Instr) (base : Nat) : List (Nat × Int) :=
  (instrs.zipIdx base).flatMap fun (instr, position) => instr.levelChanges position

theorem changesFrom_cons (instr : Instr) (rest : List Instr) (base : Nat) :
    changesFrom (instr :: rest) base = instr.levelChanges base ++ changesFrom rest (base + 1) := by
  simp [changesFrom, List.zipIdx_cons]

theorem changesFrom_append (left right : List Instr) (base : Nat) :
    changesFrom (left ++ right) base =
      changesFrom left base ++ changesFrom right (base + left.length) := by
  simp [changesFrom, List.zipIdx_append]

theorem size_levelSteps (p : Program) : p.levelSteps.size = p.size + 1 := by
  have hfold (changes : List (Nat × Int)) (steps : Array Int) :
      (changes.foldl (fun steps (position, change) => steps.modify position (· + change))
        steps).size = steps.size := by
    induction changes generalizing steps with
    | nil => rfl
    | cons first rest ih =>
      rw [List.foldl_cons, ih]
      exact Array.size_modify
  rw [levelSteps, hfold, Array.size_replicate]

-- The level of a position is the sum of the changes up to it.
theorem getElem?_levels {p : Program} {i : Nat} (h : i < p.size) :
    p.levels[i]? = some (reached (changesFrom p.code.toList 0) i) := by
  rw [levels, List.getElem?_take_of_lt h, levelSteps, getElem?_sums_foldl, Array.toList_replicate,
    sums_zero, List.getElem?_replicate_of_lt (by omega), Option.map_some, Int.zero_add]
  rfl

theorem length_levels (p : Program) : p.levels.length = p.size := by
  simp [levels, length_sums, size_levelSteps]

end Program

namespace Block

-- The bodies of the IFs and FORs of a block whose first position is `base`. ELSE and NEXT lie
-- outside the bodies that they end.
def bodies : Block → Nat → List (Nat × Nat)
  | .done, _ => []
  | .simple _ rest, base => rest.bodies (base + 1)
  | .branch _ _ body rest, base =>
    let endif := base + 1 + body.size
    (base + 1, endif) :: body.bodies (base + 1) ++ rest.bodies endif
  | .choice _ _ body _ alternative rest, base =>
    let otherwise := base + 1 + body.size
    let endif := otherwise + 1 + alternative.size
    (base + 1, otherwise) :: body.bodies (base + 1) ++
      (otherwise + 1, endif) :: alternative.bodies (otherwise + 1) ++ rest.bodies endif
  | .loop _ _ _ _ body _ rest, base =>
    let next := base + 1 + body.size
    (base + 1, next) :: body.bodies (base + 1) ++ rest.bodies (next + 1)

def nesting (block : Block) (i : Nat) : Nat :=
  enclosing (block.bodies 0) i

theorem between_bodies (block : Block) (base : Nat) :
    Between (base + 1) (base + block.size) (block.bodies base) := by
  induction block generalizing base with
  | done => exact fun _ h => nomatch h
  | simple stmt rest ih => exact (ih _).mono (by omega) (by simp only [size]; omega)
  | branch keyword condition body rest ihb ihr =>
    simp only [bodies, size, List.cons_append]
    refine .cons (Nat.le_refl _) (by omega) (.append ?_ ?_)
    · exact (ihb _).mono (by omega) (by omega)
    · exact (ihr _).mono (by omega) (by omega)
  | choice keyword condition body otherwise alternative rest ihb iha ihr =>
    simp only [bodies, size, List.cons_append, List.append_assoc]
    refine .cons (Nat.le_refl _) (by omega)
      (.append ?_ (.cons (by omega) (by omega) (.append ?_ ?_)))
    · exact (ihb _).mono (by omega) (by omega)
    · exact (iha _).mono (by omega) (by omega)
    · exact (ihr _).mono (by omega) (by omega)
  | loop keyword name first last body next rest ihb ihr =>
    simp only [bodies, size, List.cons_append]
    refine .cons (Nat.le_refl _) (by omega) (.append ?_ ?_)
    · exact (ihb _).mono (by omega) (by omega)
    · exact (ihr _).mono (by omega) (by omega)

open Program in
-- Every body adds one level at its start and takes it back at its end.
theorem reached_changesFrom (block : Block) (base i : Nat) :
    reached (changesFrom (block.flatten base) base) i = enclosing (block.bodies base) i := by
  induction block generalizing base with
  | done => rfl
  | simple stmt rest ih =>
    rw [flatten, changesFrom_cons, bodies, ← ih]
    rfl
  | branch keyword condition body rest ihb ihr =>
    simp only [flatten, bodies, List.cons_append, changesFrom_cons, changesFrom_append,
      length_flatten, Instr.levelChanges, reached_append, reached, ihb, ihr]
    rw [enclosing_cons (by omega), enclosing_append]
    omega
  | choice keyword condition body otherwise alternative rest ihb iha ihr =>
    simp only [flatten, bodies, List.cons_append, List.append_assoc, changesFrom_cons,
      changesFrom_append, length_flatten, Instr.levelChanges, reached_append, reached, ihb, iha,
      ihr]
    rw [enclosing_cons (by omega), enclosing_append, Int.natCast_add, enclosing_cons (by omega),
      enclosing_append]
    omega
  | loop keyword name first last body next rest ihb ihr =>
    simp only [flatten, bodies, List.cons_append, changesFrom_cons, changesFrom_append,
      length_flatten, Instr.levelChanges, reached_append, reached, ihb, ihr, Nat.add_sub_cancel]
    rw [enclosing_cons (by omega), enclosing_append]
    omega

end Block

namespace Block

-- How many bodies of IFs and FORs enclose each statement of a block that lies in `depth` of them,
-- in source order. An ELSE stands beside its IF and a NEXT beside its FOR.
def depths : Block → Nat → List Nat
  | .done, _ => []
  | .simple _ rest, depth => depth :: rest.depths depth
  | .branch _ _ body rest, depth => depth :: body.depths (depth + 1) ++ rest.depths depth
  | .choice _ _ body _ alternative rest, depth =>
    depth :: body.depths (depth + 1) ++ depth :: alternative.depths (depth + 1) ++ rest.depths depth
  | .loop _ _ _ _ body _ rest, depth =>
    depth :: body.depths (depth + 1) ++ depth :: rest.depths depth

theorem length_depths (block : Block) (depth : Nat) : (block.depths depth).length = block.size := by
  induction block generalizing depth with
  | done => rfl
  | simple stmt rest ih =>
    simp only [depths, size, List.length_cons, ih]
    omega
  | branch keyword condition body rest ihb ihr =>
    simp only [depths, size, List.length_append, List.length_cons, ihb, ihr]
    omega
  | choice keyword condition body otherwise alternative rest ihb iha ihr =>
    simp only [depths, size, List.length_append, List.length_cons, ihb, iha, ihr]
    omega
  | loop keyword name first last body next rest ihb ihr =>
    simp only [depths, size, List.length_append, List.length_cons, ihb, ihr]
    omega

-- Levels of positions from `low` on count the stretches around each of them on top of `depth`.
def Counts (stretches : List (Nat × Nat)) (low depth : Nat) (levels : List Nat) : Prop :=
  ∀ k level, levels[k]? = some level → level = depth + enclosing stretches (low + k)

variable {stretches left right : List (Nat × Nat)} {low depth : Nat} {levels more : List Nat}

theorem Counts.cons {high : Nat} (h : Counts stretches (low + 1) depth levels)
    (hs : Between (low + 1) high stretches) : Counts stretches low depth (depth :: levels) := by
  intro k level hat
  cases k with
  | zero =>
    cases hat
    rw [hs.enclosing_eq_zero (by omega)]
    rfl
  | succ k =>
    have hlevel := h k level hat
    rwa [Nat.add_assoc, Nat.add_comm 1] at hlevel

theorem Counts.deeper {high : Nat} (h : Counts stretches low (depth + 1) levels)
    (hh : high = low + levels.length) : Counts ((low, high) :: stretches) low depth levels := by
  intro k level hat
  have hlevel := h k level hat
  have hk : k < levels.length := (List.getElem?_eq_some_iff.mp hat).1
  have hle : low ≤ high := by omega
  have hcount := enclosing_cons hle stretches (low + k)
  rw [if_pos (by omega), if_neg (by omega)] at hcount
  omega

theorem Counts.append {middle high : Nat} (hl : Counts left low depth levels)
    (hr : Counts right middle depth more) (hm : middle = low + levels.length)
    (hbl : Between low middle left) (hbr : Between middle high right) :
    Counts (left ++ right) low depth (levels ++ more) := by
  intro k level hat
  rw [enclosing_append]
  by_cases hk : k < levels.length
  · rw [List.getElem?_append_left hk] at hat
    rw [hbr.enclosing_eq_zero (by omega)]
    exact hl k level hat
  · rw [List.getElem?_append_right (by omega)] at hat
    have hlevel := hr _ level hat
    have hplace : middle + (k - levels.length) = low + k := by omega
    rw [hplace] at hlevel
    rw [hbl.enclosing_eq_zero (by omega)]
    omega

-- The statements of a body lie one deeper than what comes before it.
theorem Counts.body {block : Block} {base : Nat}
    (h : Counts (block.bodies base) base (depth + 1) (block.depths (depth + 1))) :
    Counts ((base, base + block.size) :: block.bodies base) base depth
      (block.depths (depth + 1)) :=
  h.deeper (by rw [length_depths])

theorem between_body (block : Block) (base : Nat) :
    Between base (base + block.size) ((base, base + block.size) :: block.bodies base) :=
  .cons (Nat.le_refl _) (Nat.le_refl _)
    ((block.between_bodies base).mono (by omega) (Nat.le_refl _))

theorem counts_depths (block : Block) (base depth : Nat) :
    Counts (block.bodies base) base depth (block.depths depth) := by
  induction block generalizing base depth with
  | done => exact fun k level hat => nomatch hat
  | simple stmt rest ih =>
    exact (ih (base + 1) depth).cons ((rest.between_bodies _).mono (by omega) (Nat.le_refl _))
  | branch keyword condition body rest ihb ihr =>
    have hrest := (rest.between_bodies (base + 1 + body.size)).mono (Nat.le_succ _) (Nat.le_refl _)
    have hall := (ihb (base + 1) (depth + 1)).body.append (ihr _ depth) (by rw [length_depths])
      (body.between_body _) hrest
    exact hall.cons ((branch keyword condition body rest).between_bodies base)
  | choice keyword condition body otherwise alternative rest ihb iha ihr =>
    have helse :=
      (iha (base + 1 + body.size + 1) (depth + 1)).body.cons (alternative.between_body _)
    have hno := (alternative.between_body (base + 1 + body.size + 1)).mono (Nat.le_succ _)
      (Nat.le_refl _)
    have hboth := (ihb (base + 1) (depth + 1)).body.append helse (by rw [length_depths])
      (body.between_body _) hno
    have hrest := (rest.between_bodies (base + 1 + body.size + 1 + alternative.size)).mono
      (Nat.le_succ _) (Nat.le_refl _)
    have hwhole := (body.between_body (base + 1)).mono (Nat.le_refl _)
      (show _ ≤ base + 1 + body.size + 1 + alternative.size by omega)
    have hall := hboth.append (ihr _ depth)
      (by simp only [List.length_append, List.length_cons, length_depths]; omega)
      (hwhole.append (hno.mono (by omega) (Nat.le_refl _))) hrest
    exact hall.cons
      ((choice keyword condition body otherwise alternative rest).between_bodies base)
  | loop keyword name first last body next rest ihb ihr =>
    have hrest := rest.between_bodies (base + 1 + body.size + 1)
    have hnext := (ihr _ depth).cons (hrest.mono (Nat.le_succ _) (Nat.le_refl _))
    have hall := (ihb (base + 1) (depth + 1)).body.append hnext (by rw [length_depths])
      (body.between_body _) (hrest.mono (by omega) (Nat.le_refl _))
    exact hall.cons ((loop keyword name first last body next rest).between_bodies base)

end Block

namespace Program

theorem levels_ofBlock (block : Block) :
    (ofBlock block).levels = (block.depths 0).map Int.ofNat := by
  apply List.ext_getElem?
  intro i
  by_cases hi : i < (ofBlock block).size
  · have hsize := size_ofBlock block
    obtain ⟨level, hlevel⟩ : ∃ level, (block.depths 0)[i]? = some level :=
      ⟨_, List.getElem?_eq_getElem (by rw [Block.length_depths]; omega)⟩
    have hcount := block.counts_depths 0 0 i level hlevel
    rw [Nat.zero_add, Nat.zero_add] at hcount
    rw [getElem?_levels hi, code_ofBlock, Block.reached_changesFrom, List.getElem?_map, hlevel,
      hcount]
    rfl
  · have hsize := size_ofBlock block
    rw [List.getElem?_eq_none (by rw [length_levels]; omega),
      List.getElem?_eq_none (by rw [List.length_map, Block.length_depths]; omega)]

end Program

end LineBasic
