import DocumentQuery.Bound.Binding
import DocumentQuery.Compile.Pipeline
import DocumentQuery.Expression.Build
import DocumentQuery.Proofs.Plan.Disjunction

/-!
# Queries on stores with and without disjunctions

What a query brings is said by `BoundQuery.documents`: the document at an identity, or what its selection
means over the collection. The calls of the query bring exactly that (`BoundQuery.answer_source`), so
running a query without a reduction on a store with disjunctions and on one without them has the same
result (`BoundQuery.fetch_of_native`).

The one exception is a query with a disjunction that asks for the front of a tail: the tail of a union is
not decided by the fronts of the tails of its parts (`fetch_front_of_tail_differs`).

What is compared are the results of whole fetches, calls included, and not the answers to single queries. A
query with a reduction is left out here; counts and extrema are reduced to queries without one elsewhere.
-/

namespace DocumentQuery

namespace BoundQuery

variable {s : Store} {limits : QueryLimits} {settings : Settings} {q : BoundQuery} {sel : Selection}

/-! ## What a query brings -/

/-- The documents of a query for a selection: the one at an identity, cut to the window, or what the selection
means over the collection. This is the specification that both ways are measured by. -/
def documents (s : Store) (q : BoundQuery) (sel : Selection) : List Document :=
  match q.access with
  | .document id => sel.window.apply (s.find? q.collection id).toList
  | .collection _ => sel.ofDocuments (s.documents q.collection)

/-- A lookup is for the document at its identity. -/
theorem documents_of_document {id : String} (h : q.access = .document id) (sel : Selection) :
    q.documents s sel = sel.window.apply (s.find? q.collection id).toList := by
  simp only [documents, h]

/-- A query of a collection is for what its selection means. -/
theorem documents_of_collection {conditions : List Condition}
    (h : q.access = .collection conditions) (sel : Selection) :
    q.documents s sel = sel.ofDocuments (s.documents q.collection) := by
  simp only [documents, h]

/-- Whether the calls of a query for a selection bring its documents. A lookup does so always. -/
structure Answerable (s : Store) (q : BoundQuery) (sel : Selection) : Prop where
  /-- The identities of a collection are in order and different. -/
  wellFormed : s.WellFormed
  /-- There are no more documents than a count can tell. -/
  count : (s.documents q.collection).length ≤ Number.maxCount
  /-- Only an ordered list has a tail. -/
  ordered : q.access.isLookup = false → sel.window.limitToLast.isSome → sel.orderBy ≠ []
  /-- Without the help of the store, the window is applied to the parts of a disjunction. -/
  splits : s.nativeOr = false → Condition.anyHasOr sel.conditions = true → sel.window.Splits

/-- The calls of a query bring its documents, after the window is applied to what they bring. The conditions
are collected in `BoundQuery.Answerable`, and each of them is needed by one kind of source only. -/
theorem answer_source {source : Source} (h : Answerable s q sel)
    (hsource : q.source limits s.nativeOr sel = .ok source) :
    (source.answer s sel.orderBy).map sel.window.apply = .ok (q.documents s sel) := by
  unfold BoundQuery.source at hsource
  cases haccess : q.access with
  | document id =>
    rw [haccess] at hsource
    cases hsource
    rw [documents_of_document haccess]
    rfl
  | collection conditions =>
    rw [haccess] at hsource
    rw [documents_of_collection haccess]
    have hlookup : q.access.isLookup = false := by rw [haccess]; rfl
    exact Source.answer_ofSelection h.wellFormed h.count (h.ordered hlookup) h.splits hsource

/-! ## Queries without a reduction -/

/-- A plan is made from a checked query, its reduction and its calls. -/
theorem plan_eq_ok {nativeOr : Bool} {plan : ExecutionPlan} :
    q.plan limits nativeOr = .ok plan ↔
      q.check limits = .ok () ∧ ∃ sel reduction source, q.reduction = .ok (sel, reduction) ∧
        q.source limits nativeOr sel = .ok source ∧
        plan = ⟨source, sel.orderBy, sel.window,
          if source.isQuery then reduction else reduction.toClient⟩ := by
  simp only [BoundQuery.plan, Except.bind_eq_ok, Except.mapError_eq_ok, pure, Except.pure,
    Except.ok.injEq]
  constructor
  · rintro ⟨⟨⟩, hcheck, ⟨sel, reduction⟩, hreduction, source, hsource, rfl⟩
    exact ⟨hcheck, sel, reduction, source, hreduction, hsource, rfl⟩
  · rintro ⟨hcheck, sel, reduction, source, hreduction, hsource, rfl⟩
    exact ⟨(), hcheck, (sel, reduction), hreduction, source, hsource, rfl⟩

/-- A query has a result if it can be planned and its plan has one. -/
theorem outcome_eq_ok {fetched : Fetched} :
    q.outcome limits s = .ok fetched ↔
      ∃ plan, q.plan limits s.nativeOr = .ok plan ∧ plan.outcome s = .ok fetched :=
  Except.bind_eq_ok

/-- A query without a reduction is for its documents. -/
theorem reduction_of_documents (hagg : q.aggregation = none) :
    q.reduction = .ok (q.selection, .documents) := by
  simp only [BoundQuery.reduction, hagg]

/-- A query without a reduction succeeds when it keeps to the limits and its calls succeed. -/
theorem outcome_of_documents (hagg : q.aggregation = none) {fetched : Fetched} :
    q.outcome limits s = .ok fetched ↔
      q.check limits = .ok () ∧ ∃ source documents,
        q.source limits s.nativeOr q.selection = .ok source ∧
        source.answer s q.selection.orderBy = .ok documents ∧
        fetched = .documents (q.selection.window.apply documents) := by
  simp only [outcome_eq_ok, plan_eq_ok, reduction_of_documents hagg, Except.ok.injEq, Prod.mk.injEq]
  constructor
  · rintro ⟨plan, ⟨hcheck, sel, reduction, source, ⟨rfl, rfl⟩, hsource, rfl⟩, houtcome⟩
    simp only [Reduction.toClient, ite_self] at houtcome
    obtain ⟨documents, hdocuments, hfetched⟩ := Except.bind_eq_ok.mp houtcome
    cases hfetched
    exact ⟨hcheck, source, documents, hsource, Except.mapError_eq_ok.mp hdocuments, rfl⟩
  · rintro ⟨hcheck, source, documents, hsource, hdocuments, rfl⟩
    refine ⟨_, ⟨hcheck, _, _, source, ⟨rfl, rfl⟩, hsource, rfl⟩, ?_⟩
    simp only [Reduction.toClient, ite_self]
    exact Except.bind_eq_ok.mpr ⟨documents, Except.mapError_eq_ok.mpr hdocuments, rfl⟩

/-- A query without a reduction that is one query of the store brings the window of its answer. -/
theorem fetch_of_query {filter : Option StoreFilter} (hagg : q.aggregation = none)
    (hcheck : q.check settings.limits = .ok ())
    (hsource : q.source settings.limits s.nativeOr q.selection =
      .ok (.query (Source.queryFor q.collection q.selection filter)))
    (hor : s.nativeOr = true ∨ filter.any StoreFilter.hasOr = false)
    (htail : q.selection.window.limitToLast.isSome → q.selection.orderBy ≠ []) :
    ((q.fetch settings).run (.ofStore s)).1 = .ok (.documents
      (q.selection.window.apply (s.answer (Source.queryFor q.collection q.selection filter)))) := by
  rw [(fetch_gives settings q).result, outcome_of_documents hagg]
  exact ⟨hcheck, _, _, hsource, Source.evaluate_queryFor hor htail, rfl⟩

/-- A query without a reduction that is one query for each conjunction brings the window of the merged
answers. -/
theorem fetch_of_conjunctions (hagg : q.aggregation = none) (hcheck : q.check settings.limits = .ok ())
    (hsource : q.source settings.limits s.nativeOr q.selection =
      .ok (.disjunction (Source.conjunctions q.collection q.selection)))
    (htail : q.selection.window.limitToLast.isSome → q.selection.orderBy ≠ []) :
    ((q.fetch settings).run (.ofStore s)).1 = .ok (.documents
      (q.selection.window.apply (Document.merge q.selection.orderBy
        ((Source.conjunctions q.collection q.selection).map s.answer)))) := by
  have hanswer : (Source.disjunction (Source.conjunctions q.collection q.selection)).answer s
      q.selection.orderBy = .ok (Document.merge q.selection.orderBy
        ((Source.conjunctions q.collection q.selection).map s.answer)) := by
    rw [Source.answer, Source.evaluate_conjunctions htail]
    rfl
  rw [(fetch_gives settings q).result, outcome_of_documents hagg]
  exact ⟨hcheck, _, _, hsource, hanswer, rfl⟩

/-- The calls of a query can be decided on when the conditions are few enough, on every store. -/
theorem exists_source_iff (nativeOr : Bool) :
    (∃ source, q.source limits nativeOr sel = .ok source) ↔ (q.access.isLookup = false →
      Condition.checkSize limits.maxDisjunctions sel.conditions = .ok ()) := by
  unfold BoundQuery.source
  cases q.access with
  | document id => exact ⟨fun _ h => Bool.noConfusion h, fun _ => ⟨_, rfl⟩⟩
  | collection conditions =>
    constructor
    · rintro ⟨source, h⟩ -
      obtain ⟨⟨⟩, hcheck, -⟩ := Except.bind_eq_ok.mp h
      exact hcheck
    · intro h
      simp only [Source.ofSelection, h rfl]
      split <;> exact ⟨_, rfl⟩

/-- A store with disjunctions has answered no query for a tail without an order. -/
theorem ordered_of_answer {source : Source} {documents : List Document} (hnative : s.nativeOr = true)
    (hsource : q.source limits s.nativeOr sel = .ok source)
    (hanswer : source.answer s sel.orderBy = .ok documents) (hlookup : q.access.isLookup = false)
    (hlast : sel.window.limitToLast.isSome) : sel.orderBy ≠ [] := by
  intro hempty
  unfold BoundQuery.source at hsource
  cases haccess : q.access with
  | document id =>
    rw [haccess] at hlookup
    exact Bool.noConfusion hlookup
  | collection conditions =>
    rw [haccess] at hsource
    obtain ⟨-, -, hsource⟩ := Except.bind_eq_ok.mp hsource
    rw [if_pos (by rw [hnative, Bool.or_true])] at hsource
    cases hsource
    simp [Source.answer, Store.evaluate, Store.rejection?, Source.queryFor, hnative, hlast, hempty]
      at hanswer

/-- OR emulation is invisible: what a query without a reduction brings from a store with disjunctions, it
brings from the same store without them, unless a disjunction meets a window for the front of a tail.

That the window splits is asked for only where conditions have a disjunction. The query succeeds on the store
with disjunctions by hypothesis; that it succeeds on the other one, with the same documents in the same order,
is what is proved. -/
theorem fetch_of_native {fetched : Fetched} (hwf : s.WellFormed)
    (hcount : (s.documents q.collection).length ≤ Number.maxCount) (hagg : q.aggregation = none)
    (hw : Condition.anyHasOr q.access.conditions = true → q.selection.window.Splits)
    (hnative : ((q.fetch settings).run (.ofStore { s with nativeOr := true })).1 = .ok fetched) :
    ((q.fetch settings).run (.ofStore { s with nativeOr := false })).1 = .ok fetched := by
  rw [(fetch_gives settings q).result, outcome_of_documents hagg] at hnative ⊢
  obtain ⟨hcheck, source, documents, hsource, hanswer, rfl⟩ := hnative
  have hordered := ordered_of_answer rfl hsource hanswer
  have hbrought : (source.answer { s with nativeOr := true } q.selection.orderBy).map
      q.selection.window.apply = .ok (q.documents s q.selection) :=
    answer_source ⟨hwf, hcount, hordered, fun h => nomatch h⟩ hsource
  rw [hanswer] at hbrought
  have happly := Except.ok.inj hbrought
  -- the size of the conditions is checked on both stores alike
  obtain ⟨source', hsource'⟩ := (exists_source_iff false).mpr <|
    (exists_source_iff true).mp ⟨source, hsource⟩
  have hbrought' : (source'.answer { s with nativeOr := false } q.selection.orderBy).map
      q.selection.window.apply = .ok (q.documents s q.selection) :=
    answer_source ⟨hwf, hcount, hordered, fun _ => hw⟩ hsource'
  obtain ⟨documents', hanswer', happly'⟩ := Except.map_eq_ok.mp hbrought'
  refine ⟨hcheck, source', documents', hsource', hanswer', ?_⟩
  exact congrArg Fetched.documents (happly.trans happly'.symm)

/-! ## The front of a tail -/

/-- The first of the last two notes that are tagged with one of two tags, by rank. -/
def firstOfTail : BoundQuery :=
  { BoundQuery.notes with
    access := .collection
      [.or [.compare ⟨⟨"tag", "Tag", .scalar .string, false, none⟩, .equalTo, .str "x"⟩,
        .compare ⟨⟨"tag", "Tag", .scalar .string, false, none⟩, .equalTo, .str "y"⟩]]
    orderBy := [⟨⟨"rank", "Rank", .scalar .int, false, none⟩, .ascending⟩]
    limitToLast := some 2
    cardinality := .first false }

/-- The first of all notes that are tagged with one of two tags, by rank. -/
def firstTagged : BoundQuery :=
  { firstOfTail with limitToLast := none }

theorem fetch_of_native_firstTagged :
    ((firstTagged.fetch .standard).run (.ofStore (Store.notes false))).1 =
      .ok (.documents [⟨"notes/a", .obj [("rank", .int 1), ("tag", .str "x")]⟩]) := by
  refine fetch_of_native (s := Store.notes true) (Store.notes_wellFormed true) (by decide) rfl
    (by decide) ?_
  rw [fetch_of_query rfl rfl rfl (.inl rfl) (by decide), Store.answer_of_sorted (by decide)]
  rfl

/-- A pipeline that asks for the front of a tail is compiled and runs on both stores, and brings another
document from the one that has to be asked for the disjunction in parts: the tail of the second part
begins with `b`, which is the second document of the tail of the union then. -/
theorem fetch_front_of_tail_differs :
    (Pipeline.compile Model.notes
      ⟨"Note",
        [.filter ⟨"n", .binary .orElse (.equalTo (.member (.param "n") "Tag") (.str "x"))
            (.equalTo (.member (.param "n") "Tag") (.str "y"))⟩,
          .orderBy ⟨"n", .member (.param "n") "Rank"⟩ false,
          .takeLast (.constant (.int 2)), .element .first false none]⟩ >>=
        Template.bind Model.notes []) = .ok firstOfTail ∧
    ((firstOfTail.fetch .standard).run (.ofStore (Store.notes true))).1 =
      .ok (.documents [⟨"notes/b", .obj [("rank", .int 2), ("tag", .str "y")]⟩]) ∧
    ((firstOfTail.fetch .standard).run (.ofStore (Store.notes false))).1 =
      .ok (.documents [⟨"notes/a", .obj [("rank", .int 1), ("tag", .str "x")]⟩]) := by
  refine ⟨rfl, ?_, ?_⟩
  · rw [fetch_of_query rfl rfl rfl (.inl rfl) (by decide), Store.answer_of_sorted (by decide)]
    rfl
  -- asked in parts, each part is cut to its own tail before the answers are merged
  · have hanswers : (Source.conjunctions "notes" firstOfTail.selection).map
        (Store.notes false).answer =
          [[⟨"notes/a", .obj [("rank", .int 1), ("tag", .str "x")]⟩],
            [⟨"notes/b", .obj [("rank", .int 2), ("tag", .str "y")]⟩]] := by
      refine (List.map_congr_left fun q hq => Store.answer_of_sorted ?_).trans rfl
      revert q
      decide
    have hmerge : Document.merge firstOfTail.selection.orderBy
        ((Source.conjunctions "notes" firstOfTail.selection).map (Store.notes false).answer) =
          [⟨"notes/a", .obj [("rank", .int 1), ("tag", .str "x")]⟩,
            ⟨"notes/b", .obj [("rank", .int 2), ("tag", .str "y")]⟩] := by
      rw [hanswers]
      exact Document.sort_of_sorted (by decide)
    have hfetch : ((firstOfTail.fetch .standard).run (.ofStore (Store.notes false))).1 =
        .ok (.documents (firstOfTail.selection.window.apply (Document.merge
          firstOfTail.selection.orderBy ((Source.conjunctions "notes" firstOfTail.selection).map
            (Store.notes false).answer)))) :=
      fetch_of_conjunctions rfl rfl rfl (by decide)
    rw [hfetch, hmerge]
    rfl

end BoundQuery

end DocumentQuery
