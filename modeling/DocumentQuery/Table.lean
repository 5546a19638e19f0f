/-!
# Tables

A finite map from names to values, kept as an association list in ascending order of the names.
Documents, instance fields, collections and model descriptions are all tables, and each of them is
shown in the order of its names, so the order is part of the representation.

## Main definitions

* `Table` — the type of tables
* `Table.insert` — binds one name
* `Table.ofList` — a table from bindings in any order, the last binding of a name winning
-/

namespace DocumentQuery

universe u

/-- A finite map from names, listed in ascending order of the names. -/
abbrev Table (α : Type u) := List (String × α)

namespace Table

variable {α : Type u}

/-- Binds a name, replacing an earlier binding of it and keeping the names in ascending order. -/
def insert (name : String) (value : α) : Table α → Table α
  | [] => [(name, value)]
  | (k, v) :: rest =>
    if name = k then (name, value) :: rest
    else if name < k then (name, value) :: (k, v) :: rest
    else (k, v) :: insert name value rest

/-- Collects bindings given in any order; the last binding of a name wins. -/
def ofList (bindings : List (String × α)) : Table α :=
  bindings.foldl (fun table binding => insert binding.1 binding.2 table) []

/-- The bound names in ascending order. -/
def names (table : Table α) : List String :=
  table.map Prod.fst

/-- Whether a name is bound. -/
def contains (table : Table α) (name : String) : Bool :=
  (table.lookup name).isSome

@[simp] theorem lookup_insert_self (name : String) (value : α) (table : Table α) :
    (insert name value table).lookup name = some value := by
  induction table with
  | nil => simp [insert]
  | cons binding rest ih =>
    obtain ⟨k, v⟩ := binding
    by_cases h : name = k
    · simp [insert, h]
    · have hk : (name == k) = false := by simpa using h
      by_cases h' : name < k
      · simp [insert, h, h']
      · simp [insert, h, h', List.lookup_cons, hk, ih]

theorem lookup_insert_of_ne {name other : String} (h : other ≠ name) (value : α) (table : Table α) :
    (insert name value table).lookup other = table.lookup other := by
  have hn : (other == name) = false := by simpa using h
  induction table with
  | nil => simp [insert, List.lookup_cons, hn]
  | cons binding rest ih =>
    obtain ⟨k, v⟩ := binding
    by_cases hk : name = k
    · subst hk
      simp [insert, List.lookup_cons, hn]
    · by_cases h' : name < k
      · simp [insert, hk, h', List.lookup_cons, hn]
      · simp only [insert, hk, h', if_false, List.lookup_cons]
        split <;> simp_all

end Table

end DocumentQuery
