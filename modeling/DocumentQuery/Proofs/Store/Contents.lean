import DocumentQuery.Bound.Basic
import DocumentQuery.Proofs.Lists
import DocumentQuery.Proofs.Ordering.Documents
import DocumentQuery.Proofs.Table
import DocumentQuery.Schema.Model
import DocumentQuery.Store.Memory
import Mathlib.Data.String.Basic

/-!
# The contents of a store

A store lists the documents of a collection in ascending order of their identities. Every insertion
keeps it that way (`Store.WellFormed.insert`), so every store that is filled by insertions has the
property. The paths of the documents are then ascending as well: the documents of a collection are at
distinct paths and in the order that a query without an ordering asks for.

The order by identities is the order by paths inside one collection, because all paths begin alike. It is also
what makes a lookup find the one document there is.
-/

namespace DocumentQuery

/-! ## Paths -/

namespace Text

/-- The segments on both sides of a separator. -/
theorem splitChars_append (separator : Char) (xs ys : List Char) :
    splitChars separator (xs ++ separator :: ys) =
      splitChars separator xs ++ splitChars separator ys := by
  induction xs with
  | nil => simp [splitChars]
  | cons c xs ih =>
    by_cases hc : c = separator
    · simp [splitChars, hc, ih]
    · simp only [List.cons_append, splitChars, hc, if_false, ih]
      cases hs : splitChars separator xs with
      | nil => exact absurd hs (splitChars_ne_nil separator xs)
      | cons segment segments => rfl

/-- A text without the separator is one segment. -/
theorem splitChars_of_not_mem {separator : Char} {xs : List Char} (h : separator ∉ xs) :
    splitChars separator xs = [xs] := by
  induction xs with
  | nil => rfl
  | cons c xs ih =>
    have hc : c ≠ separator := fun he => h (he ▸ List.mem_cons_self)
    simp [splitChars, hc, ih fun hm => h (List.mem_cons_of_mem c hm)]

end Text

namespace Document

/-- A document is identified by what it is stored under, if that is a single segment. -/
theorem id_pathOf (collection : String) {id : String} (data : Json) (h : '/' ∉ id.toList) :
    Document.id ⟨pathOf collection id, data⟩ = id := by
  have hsegments : Text.segments '/' (pathOf collection id) =
      Text.segments '/' collection ++ [id] := by
    have hchars : (pathOf collection id).toList = collection.toList ++ '/' :: id.toList := by
      simp [pathOf, String.toList_append]
    rw [Text.segments, hchars, Text.splitChars_append, Text.splitChars_of_not_mem h, List.map_append]
    simp [Text.segments]
  rw [Document.id, hsegments]
  simp

/-- Paths inside one collection are ordered like the identities. -/
theorem pathOf_lt {a b : String} (collection : String) (h : a < b) :
    pathOf collection a < pathOf collection b := by
  show (pathOf collection a).toList < (pathOf collection b).toList
  simp only [pathOf, String.toList_append]
  exact List.append_left_lt h

end Document

namespace Store

/-- Stores that list every collection in ascending order of the identities. In particular no identity is
listed twice. -/
def WellFormed (s : Store) : Prop :=
  ∀ collection documents, s.collections.lookup collection = some documents → documents.Ascending

/-- An empty store is well formed. -/
theorem wellFormed_empty (nativeOr : Bool) : (empty nativeOr).WellFormed := by
  intro collection documents h
  simp [empty] at h

/-- Putting a document into a collection keeps a store well-formed. -/
theorem WellFormed.insert {s : Store} (h : s.WellFormed) (collection id : String)
    (document : Json) : (s.insert collection id document).WellFormed := by
  intro other documents hl
  simp only [Store.insert] at hl
  by_cases he : other = collection
  · subst he
    rw [Table.lookup_insert_self] at hl
    cases hl
    refine Table.Ascending.insert ?_ id document
    cases hs : s.collections.lookup other with
    | none => exact List.Pairwise.nil
    | some existing => exact h other existing hs
  · rw [Table.lookup_insert_of_ne he] at hl
    exact h other documents hl

/-- Putting several documents into a collection keeps a store well formed. -/
theorem WellFormed.insertAll {s : Store} (h : s.WellFormed) (collection : String)
    (documents : Table Json) : (s.insertAll collection documents).WellFormed := by
  unfold Store.insertAll
  induction documents generalizing s with
  | nil => exact h
  | cons document documents ih => exact ih (h.insert collection document.1 document.2)

variable {s : Store} (h : s.WellFormed) (collection : String)

include h in
/-- The documents of a collection are listed in ascending order of their paths. -/
theorem WellFormed.documents_ascending :
    (s.documents collection).Pairwise fun a b => a.path < b.path := by
  unfold documents
  rw [List.pairwise_map]
  cases hs : s.collections.lookup collection with
  | none => exact List.Pairwise.nil
  | some documents =>
    exact (h collection documents hs).imp fun hlt => Document.pathOf_lt collection hlt

include h in
/-- The documents of a collection are at distinct paths. -/
theorem WellFormed.distinctPaths : Document.DistinctPaths (s.documents collection) :=
  (h.documents_ascending collection).imp fun hlt => hlt.ne

include h in
/-- The documents of a collection are in the order of a query without an ordering. -/
theorem WellFormed.documents_sorted : Document.Sorted [] (s.documents collection) := by
  refine (h.documents_ascending collection).imp fun {a b} hlt => ?_
  have hc : compare a.path b.path = .lt := if_pos hlt
  simp [Document.notAfter, Document.order, Document.orderByFields, Document.orderByPath, hc]

/-- Documents that are in order as they are stored are only cut. -/
theorem answer_of_sorted {s : Store} {q : StoreQuery}
    (hs : Document.Sorted q.orderBy ((s.documents q.collectionPath).filter q.admits)) :
    s.answer q = q.cut ((s.documents q.collectionPath).filter q.admits) := by
  rw [answer, Document.sort_of_sorted hs]

include h in
/-- A query without restrictions is answered with all documents of the collection. -/
theorem WellFormed.evaluate_all :
    s.evaluate ⟨collection, none, [], none, none⟩ = .ok (s.documents collection) := by
  have hadmits : (s.documents collection).filter (StoreQuery.admits ⟨collection, none, [], none, none⟩) =
      s.documents collection := List.filter_eq_self.mpr fun _ _ => rfl
  have hrejection : s.rejection? ⟨collection, none, [], none, none⟩ = none := by simp [rejection?]
  have hanswer : s.answer ⟨collection, none, [], none, none⟩ = s.documents collection := by
    rw [answer, hadmits, Document.sort_of_sorted (h.documents_sorted collection)]
    rfl
  simp only [evaluate, hrejection, hanswer]

/-- The collections of a store can be counted one by one. -/
theorem length_documents_le {n : Nat} (hn : ∀ entry ∈ s.collections, entry.2.length ≤ n) :
    (s.documents collection).length ≤ n := by
  unfold documents
  rw [List.length_map]
  cases hlookup : s.collections.lookup collection with
  | none => exact Nat.zero_le n
  | some documents => exact hn _ (mem_of_lookup hlookup)

/-- Three notes, on which the statements about selections are instantiated. -/
def notes (nativeOr : Bool) : Store :=
  (empty nativeOr).insertAll "notes"
    [("a", .obj [("rank", .int 1), ("tag", .str "x")]),
      ("b", .obj [("rank", .int 2), ("tag", .str "y")]),
      ("c", .obj [("rank", .int 3), ("tag", .str "y")])]

/-- The notes are in a well-formed store. -/
theorem notes_wellFormed (nativeOr : Bool) : (notes nativeOr).WellFormed :=
  (wellFormed_empty nativeOr).insertAll _ _

end Store

/-- The model of the notes: each has an identity, a rank and a tag. -/
def Model.notes : Model :=
  empty.withType
    ⟨"Note", .entity "notes" "Id",
      [.named "Id" (.scalar .string), (Property.named "Rank" (.scalar .int)).inField "rank",
        (Property.named "Tag" (.scalar .string)).inField "tag"], [], []⟩

/-- The query for all notes. -/
def BoundQuery.notes : BoundQuery where
  collection := "notes"
  entityType := "Note"
  keyProperty := "Id"
  access := .collection []
  orderBy := []
  limit := none
  limitToLast := none
  skip := none
  aggregation := none
  cardinality := .sequence
  projection := .entity
  includes := []

end DocumentQuery
