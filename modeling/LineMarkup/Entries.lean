/-!
# Entries

Named entries in the order in which their names first came: the shape of object values, of
locals and of attribute lists.

## Main Definitions

* `Entries.get?` — the entry of a name
* `Entries.insert` — a new name goes to the end, a known one keeps its place and takes the value
* `Entries.ofList` — the entries that inserting pairs one by one leaves

## Main Statements

* `Entries.get?_insert` — inserting changes the entry of one name only
* `Entries.nodup_insert` — inserting leaves names distinct
* `Entries.get?_eq_some_of_mem` — with distinct names, an entry is the one that its name finds
-/

namespace LineMarkup

/-- Named entries in order. -/
abbrev Entries (α : Type) := List (String × α)

namespace Entries

variable {α : Type}

/-- The entry of a name. -/
def get? : Entries α → String → Option α
  | [], _ => none
  | (k, v) :: rest, name => if k = name then some v else get? rest name

/-- Put an entry: a new name goes to the end, a known one keeps its place and takes the value. -/
def insert : Entries α → String → α → Entries α
  | [], name, value => [(name, value)]
  | (k, v) :: rest, name, value =>
    if k = name then (k, value) :: rest else (k, v) :: insert rest name value

/-- Insert pairs one by one, in order. -/
def ofList (pairs : List (String × α)) : Entries α :=
  pairs.foldl (fun es p => es.insert p.1 p.2) []

@[simp] theorem get?_nil (name : String) : get? ([] : Entries α) name = none := rfl

@[simp] theorem get?_insert_self (es : Entries α) (name : String) (value : α) :
    (es.insert name value).get? name = some value := by
  induction es with
  | nil => simp [insert, get?]
  | cons e rest ih =>
    obtain ⟨k, v⟩ := e
    by_cases h : k = name <;> simp [insert, get?, h, ih]

theorem get?_insert_of_ne (es : Entries α) {name other : String} (value : α)
    (h : name ≠ other) : (es.insert name value).get? other = es.get? other := by
  induction es with
  | nil => simp [insert, get?, h]
  | cons e rest ih =>
    obtain ⟨k, v⟩ := e
    by_cases hk : k = name
    · subst hk
      simp [insert, get?, h]
    · have hi : insert ((k, v) :: rest) name value = (k, v) :: insert rest name value := by
        simp [insert, hk]
      rw [hi]
      by_cases ho : k = other <;> simp [get?, ho, ih]

/-- Inserting changes the entry of one name only. -/
theorem get?_insert (es : Entries α) (name other : String) (value : α) :
    (es.insert name value).get? other =
      if name = other then some value else es.get? other := by
  by_cases h : name = other
  · subst h
    simp
  · rw [get?_insert_of_ne es value h, if_neg h]

/-- With distinct names, an entry is the one that its name finds. -/
theorem get?_eq_some_of_mem {es : Entries α} {name : String} {value : α}
    (hdistinct : (es.map Prod.fst).Nodup) (hmem : (name, value) ∈ es) :
    es.get? name = some value := by
  induction es with
  | nil => simp at hmem
  | cons e rest ih =>
      obtain ⟨k, v⟩ := e
      rw [List.map_cons, List.nodup_cons] at hdistinct
      obtain ⟨hfirst, hrest⟩ := hdistinct
      rw [Entries.get?]
      rcases List.mem_cons.mp hmem with heq | hmem
      · cases heq
        rw [if_pos rfl]
      · have hne : k ≠ name := by
          rintro rfl
          exact hfirst (List.mem_map.mpr ⟨(k, value), hmem, rfl⟩)
        rw [if_neg hne]
        exact ih hrest hmem

/-- What inserting leaves is there before, or what is inserted. -/
theorem mem_insert {es : Entries α} {name : String} {value : α} {e : String × α}
    (h : e ∈ es.insert name value) : e ∈ es ∨ e = (name, value) := by
  induction es with
  | nil => exact .inr (List.mem_singleton.mp h)
  | cons e' rest ih =>
      obtain ⟨k, v⟩ := e'
      rw [insert] at h
      split at h
      · rename_i hk
        rcases List.mem_cons.mp h with rfl | h
        · exact .inr (by rw [hk])
        · exact .inl (List.mem_cons_of_mem _ h)
      · rcases List.mem_cons.mp h with rfl | h
        · exact .inl List.mem_cons_self
        · rcases ih h with h | h
          · exact .inl (List.mem_cons_of_mem _ h)
          · exact .inr h

/-- Inserting leaves names distinct. -/
theorem nodup_insert {es : Entries α} (h : (es.map Prod.fst).Nodup) (name : String) (value : α) :
    ((es.insert name value).map Prod.fst).Nodup := by
  induction es with
  | nil => simp [insert]
  | cons e rest ih =>
      obtain ⟨k, v⟩ := e
      rw [List.map_cons, List.nodup_cons] at h
      rw [insert]
      split
      · rwa [List.map_cons, List.nodup_cons]
      · rename_i hne
        rw [List.map_cons, List.nodup_cons]
        refine ⟨fun hmem => ?_, ih h.2⟩
        obtain ⟨e, he, hk⟩ := List.mem_map.mp hmem
        rcases mem_insert he with he | rfl
        · exact h.1 (List.mem_map.mpr ⟨e, he, hk⟩)
        · exact hne hk.symm

end Entries

end LineMarkup
