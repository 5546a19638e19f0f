import DocumentQuery.Proofs.Ordering.Documents
import DocumentQuery.Proofs.Plan.Window
import DocumentQuery.Proofs.Store.Calls
import DocumentQuery.Proofs.Store.Contents

/-!
# Selections that the store answers

`Selection.ofDocuments` says what a selection means: filter the documents, order them, keep the window.
The store does the same work in another arrangement. It filters by conditions and ordered fields at once,
orders, and cuts to what the window needs; the window is then applied to the rest. Both come to the
same list (`fetch_query_gives_ofDocuments`), for every combination of counts.

The list `selected` is the common middle of the two: the documents that match, in order, before any cut.

Without an ordering the documents of a collection are in the order of their paths, which is what sorting by no
field does as well. With one, the arrangement that a selection starts from does not matter, so a selection in
memory may be given the documents in any order.
-/

namespace DocumentQuery

namespace Selection

/-- Whether a selection is for a document, wherever the window cuts: it meets the conditions and has every
ordered field. -/
def admits (sel : Selection) (d : Document) : Bool :=
  (Condition.foldAll sel.conditions).all (·.accepts d) && d.hasOrderFields sel.orderBy

/-- The selected documents of a collection in order, before the window. -/
def selected (s : Store) (collection : String) (sel : Selection) : List Document :=
  Document.sort sel.orderBy ((s.documents collection).filter sel.admits)

variable {s : Store} {collection : String} {sel : Selection}

/-- The selected documents are in order. -/
theorem selected_sorted : Document.Sorted sel.orderBy (sel.selected s collection) :=
  Document.sort_sorted _ _

/-- They are the documents of the collection that the selection is for. -/
theorem mem_selected {d : Document} :
    d ∈ sel.selected s collection ↔ d ∈ s.documents collection ∧ sel.admits d = true := by
  rw [selected, Document.mem_sort, List.mem_filter]

/-- They are at distinct paths. -/
theorem selected_distinctPaths (h : s.WellFormed) :
    Document.DistinctPaths (sel.selected s collection) :=
  ((h.distinctPaths collection).filter _).perm (Document.sort_perm _ _).symm

/-- They are no more than the documents of the collection. -/
theorem length_selected_le : (sel.selected s collection).length ≤ (s.documents collection).length := by
  rw [selected, (Document.sort_perm _ _).length_eq]
  exact List.length_filter_le _ _

/-- With an ordering, the selected ones among given documents are those it is for, in order. -/
theorem ofDocuments_of_ordered (ho : sel.orderBy ≠ []) (documents : List Document) :
    sel.ofDocuments documents =
      sel.window.apply (Document.sort sel.orderBy (documents.filter sel.admits)) := by
  have hempty : sel.orderBy.isEmpty = false := List.isEmpty_eq_false_iff.mpr ho
  have hfilter : sel.admits = fun d => d.hasOrderFields sel.orderBy &&
      (Condition.foldAll sel.conditions).all (·.accepts d) :=
    funext fun d => Bool.and_comm _ _
  simp only [ofDocuments, hempty, hfilter, List.filter_filter, Bool.false_eq_true, if_false]

/-- The meaning of a selection over a collection is the window of the selected documents. -/
theorem ofDocuments_documents (h : s.WellFormed) :
    sel.ofDocuments (s.documents collection) = sel.window.apply (sel.selected s collection) := by
  by_cases ho : sel.orderBy = []
  · -- documents in the order of their paths are sorted already
    have hadmits : sel.admits = fun d => (Condition.foldAll sel.conditions).all (·.accepts d) := by
      funext d
      simp only [admits, Document.hasOrderFields, ho, List.all_nil, Bool.and_true]
    have hsorted : Document.Sorted [] ((s.documents collection).filter sel.admits) :=
      List.Pairwise.filter _ (h.documents_sorted collection)
    rw [selected, ho, Document.sort_of_sorted hsorted, hadmits]
    simp only [ofDocuments, ho, List.isEmpty_nil, if_true]
  · exact ofDocuments_of_ordered ho _

/-- With an ordering, a selection does not depend on how the documents are arranged. -/
theorem ofDocuments_perm (ho : sel.orderBy ≠ []) {as bs : List Document}
    (hd : Document.DistinctPaths as) (p : as.Perm bs) : sel.ofDocuments as = sel.ofDocuments bs := by
  rw [ofDocuments_of_ordered ho, ofDocuments_of_ordered ho,
    Document.sort_eq_of_perm (hd.filter _) (p.filter _)]

/-- Of the last two notes with a rank, all but the first. -/
def lastNote : Selection where
  conditions := [.compare ⟨⟨"rank", "Rank", .scalar .int, false, none⟩, .greaterThan, .int 0⟩]
  orderBy := [⟨"rank", .ascending⟩]
  window := ⟨1, some 1, some 2, false⟩

end Selection

namespace Source

variable {s : Store} {collection : String} {sel : Selection}

/-! ## The answer of the store -/

/-- The store sends what the window needs of the selected documents. -/
theorem answer_queryFor (s : Store) (collection : String) (sel : Selection) :
    s.answer (queryFor collection sel (Condition.foldAll sel.conditions)) =
      sel.window.sent (sel.selected s collection) :=
  Window.cut_queryFor _ _ _ _

/-- A store rejects no query for a selection whose tail is ordered, if it knows the disjunctions. -/
theorem evaluate_queryFor {filter : Option StoreFilter}
    (hor : s.nativeOr = true ∨ filter.any StoreFilter.hasOr = false)
    (htail : sel.window.limitToLast.isSome → sel.orderBy ≠ []) :
    s.evaluate (queryFor collection sel filter) = .ok (s.answer (queryFor collection sel filter)) := by
  have hrejection : s.rejection? (queryFor collection sel filter) = none := by
    have hdisjunction : ¬((!s.nativeOr && filter.any StoreFilter.hasOr) = true) := by
      rcases hor with h | h <;> simp [h]
    have hunordered : ¬((sel.window.limitToLast.isSome && sel.orderBy.isEmpty) = true) := by
      intro h
      obtain ⟨hlast, hempty⟩ := Bool.and_eq_true_iff.mp h
      exact htail hlast (List.isEmpty_iff.mp hempty)
    exact (if_neg hdisjunction).trans (if_neg hunordered)
  simp only [Store.evaluate, hrejection]

/-- A selection that keeps to the limits is one query for a store with disjunctions. -/
theorem ofSelection_native {limits : QueryLimits}
    (hsize : Condition.disjunctsAll sel.conditions ≤ limits.maxDisjunctions) :
    ofSelection limits true collection sel =
      .ok (.query (queryFor collection sel (Condition.foldAll sel.conditions))) := by
  have hcheck : Condition.checkSize limits.maxDisjunctions sel.conditions = .ok () :=
    if_neg (Nat.not_lt.mpr hsize)
  simp only [ofSelection, hcheck, Bool.or_true, if_true]
  rfl

/-- The query for a selection and the window together bring what the selection means. -/
theorem answer_query (h : s.WellFormed) (hcount : (s.documents collection).length ≤ Number.maxCount) :
    sel.window.apply (s.answer (queryFor collection sel (Condition.foldAll sel.conditions))) =
      sel.ofDocuments (s.documents collection) := by
  rw [answer_queryFor, Selection.ofDocuments_documents h]
  exact Window.apply_sent (Nat.le_trans Selection.length_selected_le hcount)

/-- On a store with disjunctions, the calls for a selection and the window bring exactly the documents that
the selection means over the whole collection, in the order of the paths; with an ordering, over the
collection in any arrangement. The collection holds no more documents than a count can tell.

That the store knows disjunctions is needed for one query only to be sent; the size of the conditions is what
the check before asks for, and a tail needs an order to be the tail of. -/
theorem fetch_query_gives_ofDocuments {limits : QueryLimits} (parallel : Bool) (h : s.WellFormed)
    (hnative : s.nativeOr = true) (hcount : (s.documents collection).length ≤ Number.maxCount)
    (hsize : Condition.disjunctsAll sel.conditions ≤ limits.maxDisjunctions)
    (htail : sel.window.limitToLast.isSome → sel.orderBy ≠ []) :
    ∃ q, ofSelection limits s.nativeOr collection sel = .ok (.query q) ∧
      Connected.Gives s ((Source.query q).fetch parallel sel.orderBy sel.window)
        (.ok (sel.ofDocuments (s.documents collection))) ∧
      (sel.orderBy ≠ [] → ∀ documents : List Document, documents.Perm (s.documents collection) →
        Connected.Gives s ((Source.query q).fetch parallel sel.orderBy sel.window)
          (.ok (sel.ofDocuments documents))) := by
  have hgives : Connected.Gives s
      ((Source.query (queryFor collection sel (Condition.foldAll sel.conditions))).fetch
        parallel sel.orderBy sel.window) (.ok (sel.ofDocuments (s.documents collection))) := by
    have hfetch := fetch_gives (s := s) parallel sel.orderBy sel.window
      (.query (queryFor collection sel (Condition.foldAll sel.conditions)))
    rw [answer, evaluate_queryFor (.inl hnative) htail] at hfetch
    rw [← answer_query h hcount]
    exact hfetch
  refine ⟨_, hnative ▸ ofSelection_native hsize, hgives, fun ho documents p => ?_⟩
  rw [Selection.ofDocuments_perm ho ((h.distinctPaths collection).perm p.symm) p]
  exact hgives

/-- A tail with a skip and a limit brings the last of the notes. -/
theorem fetch_query_gives_lastNote :
    ∃ q, ofSelection .standard true "notes" Selection.lastNote = .ok (.query q) ∧
      Connected.Gives (Store.notes true)
        ((Source.query q).fetch true Selection.lastNote.orderBy Selection.lastNote.window)
        (.ok [⟨"notes/c", .obj [("rank", .int 3), ("tag", .str "y")]⟩]) := by
  obtain ⟨q, hq, hgives, -⟩ := @fetch_query_gives_ofDocuments (Store.notes true) "notes"
    Selection.lastNote .standard true (Store.notes_wellFormed true) (by decide) (by decide) (by decide)
    (by decide)
  refine ⟨q, hq, ?_⟩
  have hsort : Document.sort Selection.lastNote.orderBy
      (((Store.notes true).documents "notes").filter Selection.lastNote.admits) =
      ((Store.notes true).documents "notes").filter Selection.lastNote.admits :=
    Document.sort_of_sorted (by decide)
  rw [Selection.ofDocuments_documents (Store.notes_wellFormed true), Selection.selected, hsort]
    at hgives
  exact hgives

end Source

end DocumentQuery
