import LineBasic.Env

namespace LineBasic.Table

variable {α β : Type}

theorem mem_insert [DecidableEq α] {t : Table α β} {key : α} {value : β} {entry : α × β}
    (h : entry ∈ t.insert key value) : entry = (key, value) ∨ entry ∈ t := by
  induction t with
  | nil => exact .inl (List.mem_singleton.mp h)
  | cons first rest ih =>
    obtain ⟨k, v⟩ := first
    unfold insert at h
    split at h
    · obtain he | he := List.mem_cons.mp h
      · exact .inl he
      · exact .inr (List.mem_cons_of_mem _ he)
    · obtain he | he := List.mem_cons.mp h
      · exact .inr (he ▸ List.mem_cons_self)
      · exact (ih he).imp_right (List.mem_cons_of_mem _)

theorem mem_of_get? [BEq α] [LawfulBEq α] {t : Table α β} {key : α} {value : β}
    (h : t.get? key = some value) : (key, value) ∈ t := by
  induction t with
  | nil => cases h
  | cons entry rest ih =>
    obtain ⟨k, v⟩ := entry
    unfold get? at ih h
    rw [List.lookup_cons] at h
    split at h
    · rename_i hk
      cases h
      rw [eq_of_beq hk]
      exact List.mem_cons_self
    · exact List.mem_cons_of_mem _ (ih h)

variable [DecidableEq α] [BEq α] [LawfulBEq α]

theorem get?_insert_self (t : Table α β) (key : α) (value : β) :
    (t.insert key value).get? key = some value := by
  induction t with
  | nil => simp [insert, get?]
  | cons entry rest ih =>
    obtain ⟨k, v⟩ := entry
    unfold insert
    split
    · simp [get?]
    · rename_i hne
      have hbeq : (key == k) = false := by simpa using fun h : key = k => hne h.symm
      simpa [get?, List.lookup_cons, hbeq] using ih

theorem get?_insert_of_ne (t : Table α β) {key other : α} (value : β) (h : other ≠ key) :
    (t.insert key value).get? other = t.get? other := by
  have hbeq : (other == key) = false := by simpa using h
  induction t with
  | nil => simp [insert, get?, List.lookup_cons, hbeq]
  | cons entry rest ih =>
    obtain ⟨k, v⟩ := entry
    unfold insert
    split
    · rename_i hk
      simp [get?, List.lookup_cons, hk, hbeq]
    · unfold get? at ih ⊢
      simp only [List.lookup_cons, ih]

theorem get?_erase_self (t : Table α β) (key : α) : (t.erase key).get? key = none := by
  cases h : (t.erase key).get? key with
  | none => rfl
  | some value =>
    have hkept := (List.mem_filter.mp (mem_of_get? h)).2
    simp at hkept

theorem get?_erase_of_ne (t : Table α β) {key other : α} (h : other ≠ key) :
    (t.erase key).get? other = t.get? other := by
  induction t with
  | nil => rfl
  | cons entry rest ih =>
    obtain ⟨k, v⟩ := entry
    unfold erase get? at ih ⊢
    rw [List.filter_cons]
    split
    · rw [List.lookup_cons, List.lookup_cons, ih]
    · rename_i hk
      have hk : k = key := by simpa using hk
      have hbeq : (other == k) = false := by simpa [hk] using h
      rw [ih, List.lookup_cons, hbeq]

end LineBasic.Table
