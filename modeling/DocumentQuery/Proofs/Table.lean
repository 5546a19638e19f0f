import DocumentQuery.Proofs.Lists
import DocumentQuery.Table
import Mathlib.Data.List.Induction
import Mathlib.Data.Option.Basic
import Mathlib.Data.String.Basic

/-!
# Tables in ascending order

Insertions keep the names of a table in ascending order (`Table.Ascending.insert`), so a name is bound at
most once and the bindings can be read off the values that are found under the names: tables in which
corresponding values are found correspond binding by binding (`Table.Ascending.forall₂`).

Which names a table of bindings has is up to the names of the bindings (`Table.names_ofList_congr`).

Members of objects, fields of instances and documents of collections are all kept as tables. That a name is
bound once follows from the order, so no other invariant is carried along.
-/

namespace DocumentQuery

namespace Table

variable {α : Type}

/-- Tables list their names in strictly ascending order. -/
def Ascending (table : Table α) : Prop :=
  table.Pairwise fun a b => a.1 < b.1

/-- A name that was bound is found with its value, and all others as before. -/
theorem lookup_insert (name other : String) (value : α) (table : Table α) :
    (insert name value table).lookup other = if other = name then some value else table.lookup other := by
  split
  next he => rw [he, lookup_insert_self]
  next hne => exact lookup_insert_of_ne hne value table

/-- The bindings of a table with one more are this one and those from before. -/
theorem mem_insert {name : String} {value : α} {table : Table α} {binding : String × α}
    (h : binding ∈ insert name value table) : binding = (name, value) ∨ binding ∈ table := by
  induction table with
  | nil => exact Or.inl (List.mem_singleton.mp h)
  | cons first rest ih =>
    obtain ⟨k, v⟩ := first
    simp only [insert] at h
    split at h
    · rcases List.mem_cons.mp h with rfl | h
      · exact Or.inl rfl
      · exact Or.inr (List.mem_cons_of_mem _ h)
    · split at h
      · rcases List.mem_cons.mp h with rfl | h
        · exact Or.inl rfl
        · exact Or.inr h
      · rcases List.mem_cons.mp h with rfl | h
        · exact Or.inr List.mem_cons_self
        · exact (ih h).imp_right (List.mem_cons_of_mem _)

/-- Binding a name keeps the names ascending. -/
theorem Ascending.insert {table : Table α} (h : table.Ascending) (name : String) (value : α) :
    (Table.insert name value table).Ascending := by
  induction table with
  | nil => exact List.pairwise_singleton _ _
  | cons first rest ih =>
    obtain ⟨k, v⟩ := first
    obtain ⟨hfirst, hrest⟩ := List.pairwise_cons.mp h
    simp only [Table.insert]
    split
    next he =>
      subst he
      exact List.pairwise_cons.mpr ⟨hfirst, hrest⟩
    next hne =>
      split
      next hlt =>
        refine List.pairwise_cons.mpr ⟨fun b hb => ?_, h⟩
        rcases List.mem_cons.mp hb with rfl | hb
        · exact hlt
        · exact hlt.trans (hfirst b hb)
      next hnlt =>
        refine List.pairwise_cons.mpr ⟨fun b hb => ?_, ih hrest⟩
        rcases mem_insert hb with rfl | hb
        · exact lt_of_le_of_ne (not_lt.mp hnlt) (Ne.symm hne)
        · exact hfirst b hb

/-- A binding of an ascending table is found under its name. -/
theorem Ascending.lookup_of_mem {table : Table α} (h : table.Ascending) {name : String} {value : α}
    (hmem : (name, value) ∈ table) : table.lookup name = some value := by
  induction table with
  | nil => cases hmem
  | cons first rest ih =>
    obtain ⟨hfirst, hrest⟩ := List.pairwise_cons.mp h
    rcases List.mem_cons.mp hmem with rfl | hmem
    · exact List.lookup_cons_self
    · have hne : (name == first.1) = false := beq_false_of_ne (hfirst _ hmem).ne'
      rw [List.lookup_cons, hne]
      exact ih hrest hmem

/-- At most one binding has a name, the one that is looked up. -/
theorem Ascending.filter_name {table : Table α} (h : table.Ascending) (name : String) :
    table.filter (·.1 == name) = ((table.lookup name).map (name, ·)).toList := by
  induction table with
  | nil => rfl
  | cons first rest ih =>
    obtain ⟨hfirst, hrest⟩ := List.pairwise_cons.mp h
    by_cases hname : first.1 = name
    · subst hname
      have hnone : rest.filter (·.1 == first.1) = [] :=
        List.filter_eq_nil_iff.mpr fun b hb => by simpa using (hfirst b hb).ne'
      rw [List.filter_cons_of_pos (by simp), hnone, List.lookup_cons_self]
      rfl
    · rw [List.filter_cons_of_neg (by simpa using hname), ih hrest, List.lookup_cons,
        beq_false_of_ne (Ne.symm hname)]

/-- The first name of a table comes before every name that is bound. -/
theorem Ascending.le_of_lookup {first : String × α} {rest : Table α}
    (h : Ascending (first :: rest)) {name : String} {value : α}
    (hlookup : List.lookup name (first :: rest) = some value) : first.1 ≤ name := by
  rcases List.mem_cons.mp (mem_of_lookup hlookup) with rfl | hmem
  · exact le_refl _
  · exact ((List.pairwise_cons.mp h).1 _ hmem).le

/-- The first name is not bound once more. -/
theorem Ascending.lookup_rest {first : String × α} {rest : Table α} (h : Ascending (first :: rest)) :
    rest.lookup first.1 = none := by
  refine Option.eq_none_iff_forall_ne_some.mpr fun value hlookup => ?_
  exact ((List.pairwise_cons.mp h).1 _ (mem_of_lookup hlookup)).ne rfl

/-- Tables in which corresponding values are found under every name correspond binding by binding. -/
theorem Ascending.forall₂ {R : α → α → Prop} {table table' : Table α} (h : table.Ascending)
    (h' : table'.Ascending) (hlookup : ∀ name, Option.Rel R (table.lookup name) (table'.lookup name)) :
    List.Forall₂ (fun f f' => f.1 = f'.1 ∧ R f.2 f'.2) table table' := by
  induction table generalizing table' with
  | nil =>
    cases table' with
    | nil => exact .nil
    | cons first' rest' =>
      have hnone := hlookup first'.1
      rw [List.lookup_cons_self] at hnone
      cases hnone
  | cons first rest ih =>
    obtain ⟨name, value⟩ := first
    have hfirst := hlookup name
    rw [List.lookup_cons_self] at hfirst
    cases table' with
    | nil => cases hfirst
    | cons first' rest' =>
      obtain ⟨name', value'⟩ := first'
      -- each first name is bound in the other table as well
      have hfirst' := hlookup name'
      rw [List.lookup_cons_self] at hfirst'
      have hname : name = name' := by
        refine le_antisymm ?_ ?_
        · generalize hfound : List.lookup name' ((name, value) :: rest) = found at hfirst'
          cases hfirst'
          exact h.le_of_lookup hfound
        · generalize hfound : List.lookup name ((name', value') :: rest') = found at hfirst
          cases hfirst
          exact h'.le_of_lookup hfound
      subst hname
      rw [List.lookup_cons_self] at hfirst
      refine .cons ⟨rfl, Option.rel_some_some.mp hfirst⟩
        (ih (List.pairwise_cons.mp h).2 (List.pairwise_cons.mp h').2 fun other => ?_)
      by_cases hother : other = name
      · subst hother
        rw [h.lookup_rest, h'.lookup_rest]
        exact .none
      · have hrest := hlookup other
        rwa [List.lookup_cons, List.lookup_cons, beq_false_of_ne hother] at hrest

/-! ## Tables of bindings in any order -/

variable {β : Type}

/-- Binding a name and changing the values can be exchanged. -/
theorem map_insert (f : α → β) (name : String) (value : α) (table : Table α) :
    (insert name value table).map (Prod.map id f) = insert name (f value) (table.map (Prod.map id f)) := by
  induction table with
  | nil => rfl
  | cons binding rest ih =>
    obtain ⟨k, v⟩ := binding
    simp only [insert, List.map_cons, Prod.map_apply, id_eq]
    split
    · rfl
    · split
      · rfl
      · rw [List.map_cons, ih]
        rfl

/-- Which names are bound, and which binding of a name wins, does not depend on the values. -/
theorem map_ofList (f : α → β) (bindings : List (String × α)) :
    (ofList bindings).map (Prod.map id f) = ofList (bindings.map (Prod.map id f)) := by
  have hfold : ∀ table : Table α,
      (bindings.foldl (fun table binding => insert binding.1 binding.2 table) table).map (Prod.map id f) =
        (bindings.map (Prod.map id f)).foldl (fun table binding => insert binding.1 binding.2 table)
          (table.map (Prod.map id f)) := by
    induction bindings with
    | nil => exact fun _ => rfl
    | cons binding bindings ih =>
      intro table
      rw [List.foldl_cons, ih, map_insert]
      rfl
  exact hfold []

/-- Bindings of the same names become tables of the same names. -/
theorem names_ofList_congr {bindings : List (String × α)} {bindings' : List (String × β)}
    (h : bindings.map Prod.fst = bindings'.map Prod.fst) :
    (ofList bindings).names = (ofList bindings').names := by
  have hnames {γ : Type} (bindings : List (String × γ)) :
      (ofList bindings).names = (ofList ((bindings.map Prod.fst).map (·, ()))).names := by
    have hunit := congrArg (List.map Prod.fst) (map_ofList (fun _ : γ => ()) bindings)
    rw [List.map_map] at hunit
    rw [List.map_map]
    exact hunit
  rw [hnames, h, ← hnames]

/-- The bindings of a table are among those it was made of. -/
theorem mem_ofList {bindings : List (String × α)} {binding : String × α} (h : binding ∈ ofList bindings) :
    binding ∈ bindings := by
  induction bindings using List.reverseRecOn with
  | nil => exact h
  | append_singleton bindings last ih =>
    rw [ofList, List.foldl_append] at h
    rcases mem_insert h with rfl | h
    · exact List.mem_append_right _ (List.mem_singleton_self _)
    · exact List.mem_append_left _ (ih h)

end Table

end DocumentQuery
