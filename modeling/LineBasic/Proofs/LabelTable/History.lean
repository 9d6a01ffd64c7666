import LineBasic.Proofs.LabelTable
import Mathlib.Data.Finset.Card

namespace LineBasic.LabelTable

-- The names of labels grow from one to the next, in the order of their bytes.
def InOrder (labels : List Label) : Prop :=
  labels.Pairwise fun label other => label.name < other.name

theorem mem_place {label other : Label} {entries : List Label} :
    other ∈ place label entries ↔ other = label ∨ other ∈ entries := by
  induction entries with
  | nil => simp [place]
  | cons first rest ih =>
    unfold place
    split
    · exact List.mem_cons
    · rw [List.mem_cons, List.mem_cons, ih]
      exact or_left_comm

theorem inOrder_place {label : Label} {entries : List Label} (h : InOrder entries)
    (hn : ∀ other ∈ entries, other.name ≠ label.name) : InOrder (place label entries) := by
  induction entries with
  | nil => exact List.pairwise_singleton _ _
  | cons first rest ih =>
    obtain ⟨hfirst, hrest⟩ := List.pairwise_cons.mp h
    unfold place
    split
    · rename_i hlt
      refine List.pairwise_cons.mpr ⟨fun other hother => ?_, h⟩
      obtain rfl | hother := List.mem_cons.mp hother
      · exact hlt
      · exact List.lt_trans hlt (hfirst other hother)
    · rename_i hle
      have hgt : first.name < label.name :=
        Std.lt_of_le_of_ne (List.not_lt.mp hle) (hn first List.mem_cons_self)
      refine List.pairwise_cons.mpr
        ⟨fun other hother => ?_, ih hrest fun o ho => hn o (List.mem_cons_of_mem _ ho)⟩
      obtain rfl | hother := mem_place.mp hother
      · exact hgt
      · exact hfirst other hother

theorem inOrder_declare {t : LabelTable} (h : InOrder t.entries) (label : Label) :
    InOrder (t.declare label).2.entries := by
  unfold declare
  split
  · exact h
  · rename_i hnone
    exact inOrder_place h (lookup?_eq_none.mp hnone)

-- However labels are declared, the table keeps them in order.
theorem inOrder_declareAll {t : LabelTable} (h : InOrder t.entries) (calls : List Label) :
    InOrder (t.declareAll calls).entries := by
  induction calls generalizing t with
  | nil => exact h
  | cons label rest ih => exact ih (inOrder_declare h label)

theorem InOrder.nodup {labels : List Label} (h : InOrder labels) :
    (labels.map Label.name).Nodup := by
  refine List.pairwise_map.mpr (h.imp fun hlt he => ?_)
  rw [he] at hlt
  exact List.lt_irrefl _ hlt

theorem mem_of_lookup? {t : LabelTable} {name : Bytes} {label : Label}
    (h : t.lookup? name = some label) : label ∈ t.entries ∧ label.name = name :=
  ⟨List.mem_of_find?_eq_some h, by simpa using List.find?_some h⟩

-- With the names in order there is one entry for each name, and it is the one that is found.
theorem mem_entries_iff {t : LabelTable} (h : InOrder t.entries) {label : Label} :
    label ∈ t.entries ↔ t.lookup? label.name = some label := by
  refine ⟨fun hmem => ?_, fun hfound => (mem_of_lookup? hfound).1⟩
  cases hfound : t.lookup? label.name with
  | none => exact (lookup?_eq_none.mp hfound label hmem rfl).elim
  | some other =>
    obtain ⟨hother, hname⟩ := mem_of_lookup? hfound
    rw [List.inj_on_of_nodup_map h.nodup hother hmem hname]

-- A declaration that is the first of its name in a sequence of declarations.
def First (calls : List Label) (label : Label) : Prop :=
  ∃ before after, calls = before ++ label :: after ∧ label.name ∉ before.map Label.name

theorem find?_eq_some_iff_first {calls : List Label} {name : Bytes} {label : Label} :
    calls.find? (·.name == name) = some label ↔ First calls label ∧ label.name = name := by
  rw [List.find?_eq_some_iff_append]
  constructor
  · rintro ⟨hname, before, after, rfl, hbefore⟩
    have hname : label.name = name := by simpa using hname
    refine ⟨⟨before, after, rfl, ?_⟩, hname⟩
    simpa [hname] using hbefore
  · rintro ⟨⟨before, after, rfl, hnew⟩, rfl⟩
    refine ⟨by simp, before, after, rfl, ?_⟩
    simpa using hnew

theorem lookup?_eq_some_iff_first {calls : List Label} {name : Bytes} {label : Label} :
    (empty.declareAll calls).lookup? name = some label ↔ First calls label ∧ label.name = name := by
  rw [lookup?_declareAll]
  exact find?_eq_some_iff_first

theorem lookup?_eq_none_iff_new {calls : List Label} {name : Bytes} :
    (empty.declareAll calls).lookup? name = none ↔ name ∉ calls.map Label.name := by
  rw [lookup?_declareAll]
  show calls.find? (·.name == name) = none ↔ _
  simp

theorem declare_eq_true_iff {t : LabelTable} {label : Label} :
    (t.declare label).1 = true ↔ t.lookup? label.name = none := by
  unfold declare
  split
  · rename_i hold
    simp [hold]
  · rename_i hnone
    simp [hnone]

theorem size_eq_card (calls : List Label) :
    (empty.declareAll calls).size = (calls.map Label.name).toFinset.card := by
  have horder := inOrder_declareAll (t := empty) List.Pairwise.nil calls
  -- the same names are not found among the declarations and in the table
  have hnames : (calls.map Label.name).toFinset =
      ((empty.declareAll calls).entries.map Label.name).toFinset := by
    ext name
    rw [List.mem_toFinset, List.mem_toFinset, ← not_iff_not, ← lookup?_eq_none_iff_new,
      lookup?_eq_none]
    simp
  rw [hnames, List.toFinset_card_of_nodup horder.nodup, List.length_map]
  rfl

variable {σ : Type} (visitor : σ → Label → σ × Bool)

-- The state of a visitor that has been shown some labels.
def shown (start : σ) (labels : List Label) : σ :=
  labels.foldl (fun state label => (visitor state label).1) start

-- A visitor has been shown some labels, and others it is not shown any more: none but the last one
-- was enough for it, and that one was if others are left.
structure Visits (start : σ) (seen unseen : List Label) : Prop where
  last : ∀ before label after, seen = before ++ label :: after →
    (visitor (shown visitor start before) label).2 = false → after = []
  enough : unseen ≠ [] → ∃ before label, seen = before ++ [label] ∧
    (visitor (shown visitor start before) label).2 = false

theorem visit_eq (start : σ) (labels : List Label) :
    ∃ seen unseen, labels = seen ++ unseen ∧ Visits visitor start seen unseen ∧
      visit visitor start labels = shown visitor start seen := by
  induction labels generalizing start with
  | nil =>
    refine ⟨[], [], rfl, ⟨fun before label after h => ?_, fun h => (h rfl).elim⟩, rfl⟩
    simp at h
  | cons label rest ih =>
    cases hv : visitor start label with
    | mk state more =>
      cases more with
      | false =>
        -- one label is enough, so all others are left
        refine ⟨[label], rest, rfl, ⟨fun before other after h _ => ?_, fun _ => ?_⟩, ?_⟩
        · obtain ⟨-, hlast⟩ | ⟨-, hlast⟩ := List.append_eq_singleton_iff.mp h.symm
          · exact (List.cons.inj hlast).2
          · cases hlast
        · exact ⟨[], label, rfl, by rw [shown, List.foldl_nil, hv]⟩
        · simp [visit, shown, hv]
      | true =>
        -- what the rest is shown, it is shown from the state that this label leads to
        obtain ⟨seen, unseen, rfl, hvisits, hvisit⟩ := ih state
        have hshown (labels : List Label) :
            shown visitor start (label :: labels) = shown visitor state labels := by
          simp [shown, hv]
        refine ⟨label :: seen, unseen, rfl, ⟨fun before other after h hfalse => ?_, fun hne => ?_⟩, ?_⟩
        · cases before with
          | nil =>
            obtain ⟨rfl, rfl⟩ := List.cons.inj h
            simp [shown, hv] at hfalse
          | cons first before =>
            obtain ⟨rfl, hseen⟩ := List.cons.inj h
            rw [hshown] at hfalse
            exact hvisits.last before other after hseen hfalse
        · obtain ⟨before, other, rfl, hfalse⟩ := hvisits.enough hne
          exact ⟨label :: before, other, rfl, by rwa [hshown]⟩
        · simp [visit, hv, hvisit, hshown]

-- A table is filled from nothing by any declarations. A declaration succeeds if and only if its
-- name is new; the first declaration of a name is the one that is found and the only one that
-- becomes an entry; there are as many entries as names; and a visitor is shown the entries in the
-- order of their names, each once, up to the first one that is enough for it.
theorem declarations_kept (calls : List Label) :
    let table := empty.declareAll calls
    (∀ label, (table.declare label).1 = true ↔ label.name ∉ calls.map Label.name) ∧
    (∀ name label, table.lookup? name = some label ↔ First calls label ∧ label.name = name) ∧
    (∀ name, table.lookup? name = none ↔ name ∉ calls.map Label.name) ∧
    table.size = (calls.map Label.name).toFinset.card ∧
    InOrder table.entries ∧ (∀ label, label ∈ table.entries ↔ First calls label) ∧
    ∀ (σ : Type) (visitor : σ → Label → σ × Bool) (start : σ),
      ∃ seen unseen, table.entries = seen ++ unseen ∧ Visits visitor start seen unseen ∧
        table.each visitor start = shown visitor start seen := by
  intro table
  have horder : InOrder table.entries := inOrder_declareAll List.Pairwise.nil calls
  refine ⟨fun label => ?_, fun name label => lookup?_eq_some_iff_first,
    fun name => lookup?_eq_none_iff_new, size_eq_card calls, horder, fun label => ?_,
    fun σ visitor start => visit_eq visitor start table.entries⟩
  · rw [declare_eq_true_iff]
    exact lookup?_eq_none_iff_new
  · rw [mem_entries_iff horder, lookup?_eq_some_iff_first]
    exact and_iff_left rfl

-- A visitor that wants three names is shown them in order, not as they were declared, and is not
-- shown P. The second L is not there.
example :
    let calls : List Label := [⟨Bytes.ofString "P", 0, 1⟩, ⟨Bytes.ofString "A", 2, 2⟩,
      ⟨Bytes.ofString "L", 4, 3⟩, ⟨Bytes.ofString "E", 6, 4⟩, ⟨Bytes.ofString "L", 40, 9⟩]
    (empty.declareAll calls).each (fun seen label => (seen ++ [label], seen.length < 2)) [] =
      [⟨Bytes.ofString "A", 2, 2⟩, ⟨Bytes.ofString "E", 6, 4⟩, ⟨Bytes.ofString "L", 4, 3⟩] := by
  decide

end LineBasic.LabelTable
