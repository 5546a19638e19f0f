import DocumentQuery.Proofs.Plan.Emulation

/-!
# Documents of one element

A query for one element narrows its window, so that no more is sent than the element needs: one document
for the first, two for a single one, and for the last one a tail of one document, or the whole page, whose
last document is taken at the end. Whatever the query skips and limits already, the narrowed window leaves
the head, the first two or the last of what the window itself keeps (`Window.apply_narrow`), also after
the store has cut the list by it (`Window.apply_narrow_sent`).

A limit or a tail of no document stays one, and a window for the last element only becomes a tail where
nothing is skipped or limited: otherwise the last document of the list need not be on the page.

What an element needs is said by `Cardinality.keeps`, in terms of the page alone. That fewer documents than
the page has are asked for is therefore a matter of windows, and the meaning of a query for one element can be
read off the page.
-/

namespace DocumentQuery

namespace Document

/-- The last documents of the last ones. -/
theorem takeLast_takeLast (a b : Nat) (ds : List Document) :
    takeLast a (takeLast b ds) = takeLast (min b a) ds := by
  unfold takeLast
  rw [List.drop_drop, List.length_drop]
  congr 1
  omega

end Document

/-- What a query for elements leaves of the documents it keeps: the first, the first two or the last. Two are
kept for a single element, so that a second one is noticed. -/
def Cardinality.keeps : Cardinality → List Document → List Document
  | .sequence, documents => documents
  | .first _, documents => documents.take 1
  | .single _, documents => documents.take 2
  | .last _, documents => Document.takeLast 1 documents

namespace Cardinality

/-- The element a query for one asks for, if there are as many documents as it allows for. A query for all
elements asks for none in particular. -/
def element? : Cardinality → List Document → Option Document
  | .sequence, _ => none
  | .first _, documents => documents.head?
  | .single _, [d] => some d
  | .single _, _ => none
  | .last _, documents => documents.getLast?

variable {c : Cardinality} {ds : List Document} {d : Document}

/-- What is left for an element is this element alone. -/
theorem keeps_of_element? (h : c.element? ds = some d) : c.keeps ds = [d] := by
  cases c with
  | sequence => exact nomatch h
  | first _ =>
    obtain ⟨rest, rfl⟩ := List.head?_eq_some_iff.mp h
    rfl
  | single _ =>
    match ds, h with
    | [d], rfl => rfl
  | last _ =>
    obtain ⟨front, rfl⟩ := List.getLast?_eq_some_iff.mp h
    exact Document.takeLast_append front [d] (Nat.le_refl 1)

/-- Several documents are left only where a second one is noticed. -/
theorem length_keeps_le_one (hone : c ≠ .sequence)
    (h : ¬ ((∃ orDefault, c = .single orDefault) ∧ 2 ≤ ds.length)) : (c.keeps ds).length ≤ 1 := by
  cases c with
  | sequence => exact absurd rfl hone
  | first _ => exact List.length_take_le 1 ds
  | single orDefault =>
    have hfew : ¬ 2 ≤ ds.length := fun hmany => h ⟨⟨orDefault, rfl⟩, hmany⟩
    exact Nat.le_trans (List.length_take_le' 2 ds) (by omega)
  | last _ => exact Document.length_takeLast_le

end Cardinality

namespace Window

variable {w : Window}

/-- A window that keeps at most `n` documents keeps the first `n` of what it kept before. -/
theorem apply_limitedTo (hlast : w.lastOnly = false) (n : Nat) (ds : List Document) :
    (w.limitedTo n).apply ds = (w.apply ds).take n := by
  unfold limitedTo apply
  cases w.limit with
  | none => simp [hlast, applyLimit]
  | some limit => simp [hlast, applyLimit, List.take_take, Nat.min_comm]

/-- A narrowed window leaves the elements that are asked for of what the window keeps, whatever it skips,
limits or takes from the end. -/
theorem apply_narrow (hlast : w.lastOnly = false) (c : Cardinality) (ds : List Document) :
    (w.narrow c).apply ds = c.keeps (w.apply ds) := by
  cases c with
  | sequence => rfl
  | first _ => exact apply_limitedTo hlast 1 ds
  | single _ => exact apply_limitedTo hlast 2 ds
  | last _ =>
    obtain ⟨skip, limit, limitToLast, lastOnly⟩ := w
    cases hlast
    by_cases hwhole : (limit.isNone && skip == 0) = true
    · obtain ⟨hlimit, hskip⟩ := Bool.and_eq_true_iff.mp hwhole
      cases Option.isNone_iff_eq_none.mp hlimit
      cases eq_of_beq hskip
      -- the window is a tail of the whole list, and becomes a shorter one
      cases limitToLast with
      | none => rfl
      | some n => exact (Document.takeLast_takeLast 1 n ds).symm
    · simp only [narrow, if_neg hwhole]
      rfl

/-- The store sends enough for the elements that are asked for. -/
theorem apply_narrow_sent (skip limit limitToLast : Option Nat) (c : Cardinality) {ds : List Document}
    (h : ds.length ≤ Number.maxCount) :
    ((ofCounts skip limit limitToLast).narrow c).apply
        (((ofCounts skip limit limitToLast).narrow c).sent ds) =
      c.keeps ((ofCounts skip limit limitToLast).apply ds) :=
  (apply_sent h).trans (apply_narrow rfl c ds)

end Window

/-! ## What a query keeps -/

namespace BoundQuery

variable {s : Store} {limits : QueryLimits} {q : BoundQuery}

/-- The documents a query is for, in order, before its window. For a lookup this is one document at most, and
it is not asked whether it has the ordered fields. -/
def listed (s : Store) (q : BoundQuery) : List Document :=
  match q.access with
  | .document id => (s.find? q.collection id).toList
  | .collection _ => q.selection.selected s q.collection

/-- The documents that are on the page of a query, before it is narrowed to the elements it asks for. -/
def page (s : Store) (q : BoundQuery) : List Document :=
  (Window.ofCounts q.skip q.limit q.limitToLast).apply (q.listed s)

/-- A query brings the elements it asks for of its page. -/
theorem documents_eq_keeps (h : s.WellFormed) :
    q.documents s q.selection = q.cardinality.keeps (q.page s) := by
  have hlisted : q.documents s q.selection = q.selection.window.apply (q.listed s) := by
    unfold listed
    cases haccess : q.access with
    | document id => exact documents_of_document haccess _
    | collection conditions =>
      exact (documents_of_collection haccess _).trans (Selection.ofDocuments_documents h)
  rw [hlisted]
  exact Window.apply_narrow rfl q.cardinality (q.listed s)

/-- The result of a planned query without a reduction is the documents it brings: of its page, the elements it
asks for. -/
theorem outcome_of_plan {plan : ExecutionPlan} (hagg : q.aggregation = none)
    (hplan : q.plan limits s.nativeOr = .ok plan) (h : Answerable s q q.selection) :
    q.outcome limits s = .ok (.documents (q.cardinality.keeps (q.page s))) := by
  obtain ⟨hcheck, sel, reduction, source, hreduction, hsource, -⟩ := plan_eq_ok.mp hplan
  cases (reduction_of_documents hagg).symm.trans hreduction
  obtain ⟨answered, hanswer, happly⟩ := Except.map_eq_ok.mp (answer_source h hsource)
  refine (outcome_of_documents hagg).mpr ⟨hcheck, source, answered, hsource, hanswer, ?_⟩
  rw [happly, documents_eq_keeps h.wellFormed]

end BoundQuery

end DocumentQuery
