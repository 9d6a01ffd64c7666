import LineBasic.LabelTable

namespace LineBasic.LabelTable

theorem lookup?_eq_none {t : LabelTable} {name : Bytes} :
    t.lookup? name = none ↔ ∀ label ∈ t.entries, label.name ≠ name := by
  simp [lookup?]

-- A label that is placed among others is found under its own name, the others under theirs.
theorem find?_place {label : Label} {entries : List Label} {name : Bytes}
    (h : ∀ other ∈ entries, other.name ≠ label.name) :
    (place label entries).find? (·.name == name) =
      if label.name = name then some label else entries.find? (·.name == name) := by
  induction entries with
  | nil => by_cases hn : label.name = name <;> simp [place, hn]
  | cons other rest ih =>
    have hother : other.name ≠ label.name := h other (by simp)
    have hrest := ih fun l hl => h l (List.mem_cons_of_mem _ hl)
    unfold place
    split
    · by_cases hn : label.name = name <;> simp [hn]
    · by_cases ho : other.name = name
      · have hn : label.name ≠ name := fun hl => hother (ho.trans hl.symm)
        simp [ho, hn]
      · simp [ho, hrest]

theorem length_place (label : Label) (entries : List Label) :
    (place label entries).length = entries.length + 1 := by
  induction entries with
  | nil => rfl
  | cons other rest ih =>
    unfold place
    split
    · rfl
    · simp [ih]

-- The first declaration of a name counts.
theorem lookup?_declare (t : LabelTable) (label : Label) (name : Bytes) :
    (t.declare label).2.lookup? name =
      (t.lookup? name).or (if label.name = name then some label else none) := by
  unfold declare
  split
  · rename_i old hold
    by_cases hn : label.name = name
    · rw [hn] at hold
      simp [hold]
    · simp [hn]
  · rename_i hnone
    have hplace := @find?_place _ _ name (lookup?_eq_none.mp hnone)
    by_cases hn : label.name = name
    · rw [hn] at hnone
      simp only [hnone, hn, Option.none_or, if_true]
      simpa [lookup?, hn] using hplace
    · simpa [lookup?, hn] using hplace

theorem size_declare {t : LabelTable} {label : Label} (h : t.lookup? label.name = none) :
    (t.declare label).2.size = t.size + 1 := by
  simp [declare, h, size, length_place]

def declareAll (t : LabelTable) (labels : List Label) : LabelTable :=
  labels.foldl (fun t label => (t.declare label).2) t

theorem lookup?_declareAll (t : LabelTable) (labels : List Label) (name : Bytes) :
    (t.declareAll labels).lookup? name =
      (t.lookup? name).or (labels.find? (·.name == name)) := by
  induction labels generalizing t with
  | nil => simp [declareAll]
  | cons label rest ih =>
    have h := ih (t.declare label).2
    rw [lookup?_declare, Option.or_assoc] at h
    refine h.trans ?_
    by_cases hn : label.name = name <;> simp [hn]

theorem size_declareAll {t : LabelTable} {labels : List Label}
    (hd : (labels.map Label.name).Nodup) (hn : ∀ label ∈ labels, t.lookup? label.name = none) :
    (t.declareAll labels).size = t.size + labels.length := by
  induction labels generalizing t with
  | nil => rfl
  | cons label rest ih =>
    rw [List.map_cons, List.nodup_cons] at hd
    have hfirst := size_declare (hn label (by simp))
    have hrest : ∀ other ∈ rest, (t.declare label).2.lookup? other.name = none := by
      intro other hother
      have hne : label.name ≠ other.name := fun he =>
        hd.1 (List.mem_map.mpr ⟨other, hother, he.symm⟩)
      rw [lookup?_declare, hn other (List.mem_cons_of_mem _ hother), if_neg hne]
      rfl
    have := ih hd.2 hrest
    rw [hfirst] at this
    refine this.trans ?_
    rw [List.length_cons]
    omega

theorem lookup?_declareAll_empty {labels : List Label} (hd : (labels.map Label.name).Nodup)
    {name : Bytes} {label : Label} :
    (empty.declareAll labels).lookup? name = some label ↔ label ∈ labels ∧ label.name = name := by
  rw [lookup?_declareAll]
  have hempty : empty.lookup? name = none := rfl
  rw [hempty, Option.none_or]
  constructor
  · intro h
    exact ⟨List.mem_of_find?_eq_some h, by simpa using List.find?_some h⟩
  · rintro ⟨hmem, rfl⟩
    induction labels with
    | nil => cases hmem
    | cons first rest ih =>
      rw [List.map_cons, List.nodup_cons] at hd
      rcases List.mem_cons.mp hmem with rfl | hmem
      · simp
      · have hne : first.name ≠ label.name := fun he =>
          hd.1 (he ▸ List.mem_map.mpr ⟨label, hmem, rfl⟩)
        simp [hne, ih hd.2 hmem]

end LineBasic.LabelTable
