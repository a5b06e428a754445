import LineMarkup.Entries

/-!
# Attributes

Entries of different names, in the order in which they came.  A list of attributes knows the names
that stand before it, and an attribute is put in front only with a proof that its name does not come
behind it, so there is no list in which a name comes twice.

## Main Definitions

* `Attributes` — entries whose names differ from each other and from those before them
* `Attributes.entries` — the plain entries
* `Attributes.insert` — a new name goes to the end, a known one keeps its place and takes the value

## Main Statements

* `Attributes.nodup_names` — the names are different
* `Attributes.entries_injective` — attributes are known from their entries
* `Attributes.get?_of_mem` — an attribute is the one that its name finds
-/

namespace LineMarkup

/-- Entries whose names differ from each other and from those in `before`. -/
inductive Attributes (α : Type) : List String → Type where
  | nil {before : List String} : Attributes α before
  | cons {before : List String} (name : String) (value : α) (rest : Attributes α (name :: before))
      (fresh : name ∉ before := by decide) : Attributes α before

namespace Attributes

variable {α : Type} {before : List String}

/-- The plain entries. -/
def entries {before : List String} : Attributes α before → Entries α
  | nil => []
  | cons name value rest _ => (name, value) :: rest.entries

/-- Put an attribute whose name does not stand before. -/
def put {before : List String} (name : String) (value : α) (fresh : name ∉ before) :
    Attributes α before → Attributes α before
  | nil => cons name value nil fresh
  | cons k v rest hk =>
    if h : k = name then
      cons k value rest hk
    else
      cons k v (rest.put name value (List.not_mem_cons_of_ne_of_not_mem (Ne.symm h) fresh)) hk

/-- Put an attribute: a new name goes to the end, a known one keeps its place and takes the value. -/
def insert (as : Attributes α []) (name : String) (value : α) : Attributes α [] :=
  as.put name value List.not_mem_nil

/-- The attribute of a name. -/
def get? (as : Attributes α before) (name : String) : Option α :=
  as.entries.get? name

@[simp] theorem entries_nil : (nil : Attributes α before).entries = [] := rfl

@[simp] theorem entries_cons (name : String) (value : α) (rest : Attributes α (name :: before))
    (fresh : name ∉ before) : (cons name value rest fresh).entries = (name, value) :: rest.entries :=
  rfl

theorem get?_cons (k : String) (v : α) (rest : Attributes α (k :: before)) (fresh : k ∉ before)
    (name : String) :
    (cons k v rest fresh).get? name = if k = name then some v else rest.get? name :=
  rfl

/-- Putting an attribute is inserting its entry. -/
theorem entries_put (as : Attributes α before) (name : String) (value : α) (fresh : name ∉ before) :
    (as.put name value fresh).entries = as.entries.insert name value := by
  induction as with
  | nil => rfl
  | cons k v rest hk ih =>
      rw [put, entries_cons, Entries.insert]
      split
      · rfl
      · rw [entries_cons, ih]

/-- Inserting an attribute is inserting its entry. -/
@[simp] theorem entries_insert (as : Attributes α []) (name : String) (value : α) :
    (as.insert name value).entries = as.entries.insert name value :=
  entries_put as name value List.not_mem_nil

/-- No name stands before and in the list. -/
theorem notMem_names_of_mem {as : Attributes α before} {name : String} (h : name ∈ before) :
    name ∉ as.entries.map Prod.fst := by
  induction as with
  | nil => exact List.not_mem_nil
  | cons k v rest hk ih =>
      rw [entries_cons, List.map_cons, List.mem_cons, not_or]
      refine ⟨?_, ih (List.mem_cons_of_mem k h)⟩
      rintro rfl
      exact hk h

/-- **The names of attributes are different.** -/
theorem nodup_names (as : Attributes α before) : (as.entries.map Prod.fst).Nodup := by
  induction as with
  | nil => exact List.nodup_nil
  | cons k v rest hk ih =>
      rw [entries_cons, List.map_cons, List.nodup_cons]
      exact ⟨notMem_names_of_mem List.mem_cons_self, ih⟩

/-- Attributes are known from their entries. -/
theorem entries_injective :
    Function.Injective (entries : Attributes α before → Entries α) := by
  intro as as' h
  induction as with
  | nil =>
      cases as' with
      | nil => rfl
      | cons k v rest hk => cases h
  | cons k v rest hk ih =>
      cases as' with
      | nil => cases h
      | cons k' v' rest' hk' =>
          rw [entries_cons, entries_cons, List.cons.injEq, Prod.mk.injEq] at h
          obtain ⟨⟨rfl, rfl⟩, hrest⟩ := h
          rw [ih hrest]

/-- An attribute is the one that its name finds. -/
theorem get?_of_mem {as : Attributes α before} {name : String} {value : α}
    (h : (name, value) ∈ as.entries) : as.get? name = some value :=
  Entries.get?_eq_some_of_mem as.nodup_names h

end Attributes

end LineMarkup
