import DocumentQuery.Proofs.Plan.Conformance
import DocumentQuery.Proofs.Plan.Reduction

/-!
# Counting what a query fetches

A query may be asked how many documents it brings, or whether it brings any, instead of being asked for
them. Each of the two is answered in its own way. A count is left to the store where the store sees the
whole query, and taken of the fetched documents where it does not: after a lookup, of the merged answers to
the parts of a disjunction, and of a tail. Whether there are documents is answered from the first one, so
fewer are asked for. Both agree with the documents (`BoundQuery.outcome_counted`, `BoundQuery.outcome_any`).

For one of the ways the documents themselves are lost: the first document of a tail is not decided by the
first ones of the tails of the parts of a disjunction. But there is one exactly if one of the parts has one,
and this is enough (`Window.apply_union_eq_nil_iff`). It needs that nothing is skipped of the tail, which
compiled queries never do.

Both statements take the documents as given: if fetching succeeds, then so does counting, and the results
agree. That counting does not fail on its own is part of them. The number of documents must be a count, and
the query is one for a page or for a tail (`BoundQuery.Plain`), as every compiled one is.
-/

namespace DocumentQuery

/-! ## Windows that keep nothing -/

namespace Window

variable {w : Window} {ds : List Document}

/-- The last documents are none if none are asked for or there are none. -/
theorem takeLast_eq_nil_iff {n : Nat} : Document.takeLast n ds = [] ↔ n = 0 ∨ ds = [] := by
  rw [← List.length_eq_zero_iff, ← List.length_eq_zero_iff, Document.length_takeLast]
  omega

/-- A limited list is empty if the limit is 0 or the list is empty. -/
theorem applyLimit_eq_nil_iff {limit : Option Nat} :
    applyLimit limit ds = [] ↔ limit = some 0 ∨ ds = [] := by
  cases limit with
  | none => simp [applyLimit]
  | some n => simp [applyLimit]

/-- The last document of a page is none exactly if the page is empty. -/
theorem apply_eq_nil_iff : w.apply ds = [] ↔
    w.limit = some 0 ∨ (applyTail w.limitToLast ds).drop w.skip = [] := by
  rw [← applyLimit_eq_nil_iff]
  unfold apply
  split
  · rw [takeLast_eq_nil_iff]
    exact ⟨fun h => h.resolve_left Nat.one_ne_zero, .inr⟩
  · exact Iff.rfl

/-- A window is not empty if there is a first document in it. -/
theorem limitedTo_apply_eq_nil_iff : (w.limitedTo 1).apply ds = [] ↔ w.apply ds = [] := by
  have hlimit : (w.limitedTo 1).limit = some 0 ↔ w.limit = some 0 := by
    unfold limitedTo
    cases w.limit with
    | none => simp
    | some k => simp
  rw [apply_eq_nil_iff, apply_eq_nil_iff, hlimit]
  rfl

/-- Where nothing is skipped, the store sends something exactly if the window keeps something. -/
theorem sent_eq_nil_iff (hskip : w.skip = 0) : w.sent ds = [] ↔ w.apply ds = [] := by
  have hlimit : w.serverLimit = some 0 ↔ w.limit = some 0 := by
    unfold serverLimit
    cases w.limit with
    | none => simp
    | some k => simp [hskip, saturate, Number.maxCount]
  rw [sent, applyLimit_eq_nil_iff, apply_eq_nil_iff, hlimit, hskip, List.drop_zero]

/-- A tail is empty if it is one of 0 documents or the list is empty. -/
theorem applyTail_eq_nil_iff {tail : Option Nat} :
    applyTail tail ds = [] ↔ tail = some 0 ∨ ds = [] := by
  cases tail with
  | none => simp [applyTail]
  | some n => simp [applyTail, takeLast_eq_nil_iff]

/-- Where nothing is skipped, a list may be taken apart and every part be cut: the window of what is left is
empty exactly if the window of the list is. -/
theorem apply_union_eq_nil_iff {union : Document → Bool} (hskip : w.skip = 0)
    (parts : List (Document → Bool)) (hcover : ∀ d ∈ ds, ∃ p ∈ parts, p d = true)
    (hunion : ∀ p ∈ parts, ∀ d ∈ w.sent (ds.filter p), union d = true) :
    w.apply (ds.filter union) = [] ↔ w.apply ds = [] := by
  have happly : ∀ ds, w.apply ds = [] ↔ w.limit = some 0 ∨ w.limitToLast = some 0 ∨ ds = [] := by
    intro ds
    rw [apply_eq_nil_iff, hskip, List.drop_zero, applyTail_eq_nil_iff]
  constructor
  · intro hnone
    by_contra hkept
    have hkeeps : ∀ kept, kept ≠ [] → w.apply kept ≠ [] := by
      intro kept hne hnil
      rcases (happly kept).mp hnil with hlimit | htail | hempty
      · exact hkept ((happly ds).mpr (.inl hlimit))
      · exact hkept ((happly ds).mpr (.inr (.inl htail)))
      · exact hne hempty
    -- one of the documents is in a part, so something is sent for this part
    have hne : ds ≠ [] := fun hempty => hkept ((happly ds).mpr (.inr (.inr hempty)))
    obtain ⟨d, hd⟩ := List.exists_mem_of_ne_nil ds hne
    obtain ⟨p, hp, hpd⟩ := hcover d hd
    have hpart : ds.filter p ≠ [] := List.ne_nil_of_mem (List.mem_filter.mpr ⟨hd, hpd⟩)
    have hsent : w.sent (ds.filter p) ≠ [] := fun hnil => hkeeps _ hpart ((sent_eq_nil_iff hskip).mp hnil)
    obtain ⟨d', hd'⟩ := List.exists_mem_of_ne_nil _ hsent
    have hmem : d' ∈ ds := (List.mem_filter.mp (mem_of_mem_sent hd')).1
    exact hkeeps _ (List.ne_nil_of_mem (List.mem_filter.mpr ⟨hmem, hunion p hp d' hd'⟩)) hnone
  · intro hnone
    rcases (happly ds).mp hnone with hlimit | htail | rfl
    · exact (happly _).mpr (.inl hlimit)
    · exact (happly _).mpr (.inr (.inl htail))
    · exact hnone

/-- A window adds no document. -/
theorem length_apply_le : (w.apply ds).length ≤ ds.length := by
  have hpage : (applyLimit w.limit ((applyTail w.limitToLast ds).drop w.skip)).length ≤ ds.length := by
    refine Nat.le_trans (length_applyLimit_le _ _) ?_
    rw [List.length_drop]
    exact Nat.le_trans (Nat.sub_le _ _) (length_applyTail_le _ _)
  unfold apply
  split
  · rw [Document.length_takeLast]
    exact Nat.le_trans (Nat.min_le_right _ _) hpage
  · exact hpage

end Window

/-! ## Selections that select nothing -/

namespace Source

variable {s : Store} {collection : String} {sel : Selection} {limits : QueryLimits}

/-- What the store has answered to the query for a selection is what it sends of the selected documents. -/
theorem eq_sent_of_evaluate {documents : List Document}
    (h : s.evaluate (queryFor collection sel (Condition.foldAll sel.conditions)) = .ok documents) :
    documents = sel.window.sent (sel.selected s collection) := by
  unfold Store.evaluate at h
  split at h
  · cases h
  · cases h
    exact answer_queryFor s collection sel

/-- The query that brings a selection alone carries all of its conditions. -/
theorem query_of_ofSelection {nativeOr : Bool} {sq : StoreQuery}
    (h : ofSelection limits nativeOr collection sel = .ok (.query sq)) :
    sq = queryFor collection sel (Condition.foldAll sel.conditions) := by
  obtain ⟨-, -, h⟩ := Except.bind_eq_ok.mp h
  split at h
  · cases h
    rfl
  · cases h

/-- The merged answers to the parts of a disjunction leave nothing exactly if nothing is selected, as long as
nothing is skipped. -/
theorem exists_answer_disjunction (h : s.WellFormed)
    (htail : sel.window.limitToLast.isSome → sel.orderBy ≠ []) (hskip : sel.window.skip = 0) :
    ∃ documents, (disjunction (conjunctions collection sel)).answer s sel.orderBy = .ok documents ∧
      (sel.window.apply documents).length ≤ (s.documents collection).length ∧
      (sel.window.apply documents = [] ↔ sel.ofDocuments (s.documents collection) = []) := by
  classical
  have hmerge : Document.merge sel.orderBy ((conjunctions collection sel).map s.answer) =
      (sel.selected s collection).filter fun d => decide (IsSent s collection sel d) :=
    merge_conjunctions h fun d => decide_eq_true_iff
  refine ⟨_, by rw [answer, evaluate_conjunctions htail]; rfl, ?_, ?_⟩ <;> rw [hmerge]
  · refine Nat.le_trans Window.length_apply_le ?_
    exact Nat.le_trans (List.length_filter_le _ _) Selection.length_selected_le
  rw [Selection.ofDocuments_documents h]
  refine Window.apply_union_eq_nil_iff hskip
    ((Condition.expandAll sel.conditions).map fun fs d => StoreFilter.allAccept d fs) (fun d hd => ?_)
    fun p hp d hd => ?_
  · obtain ⟨fs, hfs, haccepts⟩ := exists_conjunction (Selection.mem_selected.mp hd).2
    exact ⟨_, List.mem_map_of_mem hfs, haccepts⟩
  · obtain ⟨fs, hfs, rfl⟩ := List.mem_map.mp hp
    exact decide_eq_true ⟨fs, hfs, hd⟩

/-- The calls for a selection leave nothing exactly if nothing is selected, where there is no tail or nothing
is skipped of it. -/
theorem exists_answer_ofSelection {source : Source} (h : s.WellFormed)
    (hcount : (s.documents collection).length ≤ Number.maxCount)
    (htail : sel.window.limitToLast.isSome → sel.orderBy ≠ [])
    (hw : sel.window.limitToLast = none ∨ sel.window.skip = 0)
    (hsource : ofSelection limits s.nativeOr collection sel = .ok source) :
    ∃ documents, source.answer s sel.orderBy = .ok documents ∧
      (sel.window.apply documents).length ≤ (s.documents collection).length ∧
      (sel.window.apply documents = [] ↔ sel.ofDocuments (s.documents collection) = []) := by
  by_cases hparts : Condition.anyHasOr sel.conditions = true ∧ s.nativeOr = false ∧ sel.window.skip = 0
  · obtain ⟨hor, hnative, hskip⟩ := hparts
    obtain ⟨-, -, hsource⟩ := Except.bind_eq_ok.mp hsource
    rw [if_neg (by rw [hor, hnative]; exact Bool.false_ne_true)] at hsource
    cases hsource
    exact exists_answer_disjunction h htail hskip
  · have hsplits : s.nativeOr = false → Condition.anyHasOr sel.conditions = true → sel.window.Splits := by
      intro hnative hor n k hlast _
      have hnone := hw.resolve_right fun hskip => hparts ⟨hor, hnative, hskip⟩
      exact nomatch hnone.symm.trans hlast
    obtain ⟨documents, hanswer, happly⟩ :=
      Except.map_eq_ok.mp (answer_ofSelection h hcount htail hsplits hsource)
    refine ⟨documents, hanswer, ?_, by rw [happly]⟩
    rw [happly, Selection.ofDocuments_documents h]
    exact Nat.le_trans Window.length_apply_le Selection.length_selected_le

end Source

/-! ## Queries for counts -/

namespace BoundQuery

variable {s : Store} {limits : QueryLimits} {q : BoundQuery} {sel : Selection}

/-- A query for how many documents there are. -/
def counted (q : BoundQuery) : BoundQuery :=
  { q with aggregation := some ⟨.count, none, false⟩ }

/-- A query for whether there are documents. -/
def any (q : BoundQuery) : BoundQuery :=
  { q with aggregation := some ⟨.any, none, false⟩ }

/-- A query for a sequence of documents that is cut to a page or to its last documents, but not to both. -/
structure Plain (q : BoundQuery) : Prop where
  /-- Nothing is reduced. -/
  aggregation : q.aggregation = none
  /-- All elements are asked for. -/
  cardinality : q.cardinality = .sequence
  /-- There is no tail, or nothing but a tail. -/
  paging : q.limitToLast = none ∨ q.skip = none ∧ q.limit = none

/-- The window of such a query is that of its counts. -/
theorem Plain.window (h : q.Plain) :
    q.selection.window = Window.ofCounts q.skip q.limit q.limitToLast := by
  rw [selection, h.cardinality]
  rfl

/-- Nothing is skipped of a tail. -/
theorem Plain.unskipped (h : q.Plain) :
    q.selection.window.limitToLast = none ∨ q.selection.window.skip = 0 := by
  rw [h.window]
  rcases h.paging with hnone | ⟨hskip, -⟩
  · exact .inl hnone
  · exact .inr (by rw [hskip]; rfl)

/-- Only an ordered list has a tail. -/
theorem Plain.ordered (h : q.Plain) (hcheck : q.check limits = .ok ())
    (hlast : q.selection.window.limitToLast.isSome = true) : q.selection.orderBy ≠ [] := by
  intro hnil
  rw [h.window] at hlast
  exact (check_eq_ok hcheck).2.1 hlast (List.map_eq_nil_iff.mp hnil)

/-- The store is asked for the selected documents of a collection. -/
theorem eq_sent_of_query {nativeOr : Bool} {sq : StoreQuery} {answered : List Document}
    (hsource : q.source limits nativeOr sel = .ok (.query sq)) (h : s.evaluate sq = .ok answered) :
    answered = sel.window.sent (sel.selected s q.collection) := by
  unfold source at hsource
  cases haccess : q.access with
  | document id =>
    rw [haccess] at hsource
    exact nomatch hsource
  | collection conditions =>
    rw [haccess] at hsource
    rw [Source.query_of_ofSelection hsource] at h
    exact Source.eq_sent_of_evaluate h

/-- What is fetched for a query is reduced after that, where the store cannot be asked for the reduction. -/
theorem outcome_of_toClient {reduction : Reduction} {source : Source} {answered : List Document}
    (hcheck : q.check limits = .ok ()) (hreduction : q.reduction = .ok (sel, reduction))
    (hsource : q.source limits s.nativeOr sel = .ok source)
    (hanswer : source.answer s sel.orderBy = .ok answered)
    (hclient : source.isQuery = true → reduction.toClient = reduction) :
    q.outcome limits s = reduction.toClient.ofDocuments (sel.window.apply answered) := by
  have hplan : q.plan limits s.nativeOr =
      .ok ⟨source, sel.orderBy, sel.window, reduction.toClient⟩ := by
    refine plan_eq_ok.mpr ⟨hcheck, sel, reduction, source, hreduction, hsource, ?_⟩
    by_cases hquery : source.isQuery = true
    · rw [if_pos hquery, hclient hquery]
    · rw [if_neg hquery]
  unfold outcome
  rw [hplan]
  exact ExecutionPlan.outcome_client hanswer

/-- A tail is counted after it is fetched, a page by the store if it can be. -/
theorem Plain.reduction_counted (h : q.Plain) : q.counted.reduction = .ok (q.selection,
    if q.selection.window.limitToLast.isSome then (Reduction.native .count).toClient
    else .native .count) := by
  have hlast : q.selection.window.lastOnly = false := by rw [h.window, Window.ofCounts]
  show Aggregation.prepare ⟨.count, none, false⟩ q.selection = _
  simp only [Aggregation.prepare, hlast, Bool.or_false]
  split <;> rfl

/-- The first document is fetched to see whether there is one. -/
theorem reduction_any : q.any.reduction =
    .ok ({ q.selection with window := q.selection.window.limitedTo 1 }, .client .any none false) :=
  rfl

/-- The documents are counted by the store, or after they are fetched, and either way the number is that of
the documents the query brings. -/
theorem outcome_counted (hcount : (s.documents q.collection).length ≤ Number.maxCount) (hq : q.Plain)
    {documents : List Document} (h : q.outcome limits s = .ok (.documents documents)) :
    q.counted.outcome limits s = .ok (.value (.count documents.length)) := by
  obtain ⟨hcheck, source, answered, hsource, hanswer, hdocuments⟩ :=
    (outcome_of_documents hq.aggregation).mp h
  obtain rfl : documents = q.selection.window.apply answered := Fetched.documents.inj hdocuments
  have hreduction := hq.reduction_counted
  by_cases hnative : source.isQuery = true ∧ q.selection.window.limitToLast = none
  · obtain ⟨hquery, htail⟩ := hnative
    rw [if_neg (by rw [htail]; exact Bool.false_ne_true)] at hreduction
    obtain ⟨sq, rfl⟩ : ∃ sq, source = .query sq := by
      cases source with
      | query sq => exact ⟨sq, rfl⟩
      | lookup _ _ | disjunction _ => exact nomatch hquery
    have hplan : q.counted.plan limits s.nativeOr =
        .ok ⟨.query sq, q.selection.orderBy, q.selection.window, .native .count⟩ :=
      plan_eq_ok.mpr ⟨hcheck, _, _, _, hreduction, hsource, rfl⟩
    -- the store counts what it sends, the skipped documents among it
    have hsent := eq_sent_of_query hsource hanswer
    have hselected : (q.selection.selected s q.collection).length ≤ Number.maxCount :=
      Nat.le_trans Selection.length_selected_le hcount
    have hlast : q.selection.window.lastOnly = false := by rw [hq.window, Window.ofCounts]
    have hlength : answered.length - q.selection.window.skip =
        (q.selection.window.apply answered).length := by
      rw [hsent, Window.length_sent_sub htail hlast hselected, Window.apply_sent hselected]
    refine outcome_eq_ok.mpr ⟨_, hplan, ?_⟩
    rw [ExecutionPlan.outcome_query hanswer, Reduction.ofSent_count, hlength]
  · refine (outcome_of_toClient (q := q.counted) hcheck hreduction hsource hanswer fun hquery => ?_).trans ?_
    · have htail : q.selection.window.limitToLast.isSome = true :=
        Option.isSome_iff_ne_none.mpr fun hnone => hnative ⟨hquery, hnone⟩
      rw [if_pos htail]
      rfl
    · split <;> rfl

/-- The calls of a query leave something exactly if it selects something. A lookup leaves at most one
document. -/
theorem exists_answer_source {source : Source} (hwf : s.WellFormed)
    (hcount : (s.documents q.collection).length ≤ Number.maxCount)
    (htail : sel.window.limitToLast.isSome → sel.orderBy ≠ [])
    (hw : sel.window.limitToLast = none ∨ sel.window.skip = 0)
    (hsource : q.source limits s.nativeOr sel = .ok source) :
    ∃ answered, source.answer s sel.orderBy = .ok answered ∧
      (sel.window.apply answered).length ≤ max 1 (s.documents q.collection).length ∧
      (sel.window.apply answered = [] ↔ q.documents s sel = []) := by
  unfold BoundQuery.source at hsource
  cases haccess : q.access with
  | document id =>
    rw [haccess] at hsource
    cases hsource
    refine ⟨_, rfl, ?_, by rw [documents_of_document haccess]⟩
    refine Nat.le_trans Window.length_apply_le (Nat.le_trans ?_ (Nat.le_max_left _ _))
    cases s.find? q.collection id with
    | none => exact Nat.zero_le 1
    | some d => exact Nat.le_refl 1
  | collection conditions =>
    rw [haccess] at hsource
    rw [documents_of_collection haccess]
    obtain ⟨answered, hanswer, hlength, hempty⟩ :=
      Source.exists_answer_ofSelection hwf hcount htail hw hsource
    exact ⟨answered, hanswer, Nat.le_trans hlength (Nat.le_max_right _ _), hempty⟩

/-- A query selects something exactly if it selects a first document. -/
theorem documents_limitedTo_eq_nil_iff (hwf : s.WellFormed) :
    q.documents s { sel with window := sel.window.limitedTo 1 } = [] ↔ q.documents s sel = [] := by
  cases haccess : q.access with
  | document id =>
    rw [documents_of_document haccess, documents_of_document haccess]
    exact Window.limitedTo_apply_eq_nil_iff
  | collection conditions =>
    rw [documents_of_collection haccess, documents_of_collection haccess,
      Selection.ofDocuments_documents hwf, Selection.ofDocuments_documents hwf]
    exact Window.limitedTo_apply_eq_nil_iff

/-- A query brings no more documents than its collection holds, and one at most that is looked up. -/
theorem length_outcome_le (hwf : s.WellFormed)
    (hcount : (s.documents q.collection).length ≤ Number.maxCount) (hq : q.Plain)
    {documents : List Document} (h : q.outcome limits s = .ok (.documents documents)) :
    documents.length ≤ max 1 (s.documents q.collection).length := by
  obtain ⟨hcheck, source, answered, hsource, hanswer, hdocuments⟩ :=
    (outcome_of_documents hq.aggregation).mp h
  obtain rfl : documents = q.selection.window.apply answered := Fetched.documents.inj hdocuments
  obtain ⟨_, hsame, hlength, -⟩ :=
    exists_answer_source hwf hcount (hq.ordered hcheck) hq.unskipped hsource
  cases hanswer.symm.trans hsame
  exact hlength

/-- Whether there are documents is seen from the first one. The first one need not be the one that the query
would bring first; that there is one is enough. -/
theorem outcome_any (hwf : s.WellFormed)
    (hcount : (s.documents q.collection).length ≤ Number.maxCount) (hq : q.Plain)
    {documents : List Document} (h : q.outcome limits s = .ok (.documents documents)) :
    q.any.outcome limits s = .ok (.value (.bool !documents.isEmpty)) := by
  obtain ⟨hcheck, source, answered, hsource, hanswer, hdocuments⟩ :=
    (outcome_of_documents hq.aggregation).mp h
  obtain rfl : documents = q.selection.window.apply answered := Fetched.documents.inj hdocuments
  let first : Selection := { q.selection with window := q.selection.window.limitedTo 1 }
  -- the size of the conditions is checked for both windows alike
  have hsize := (exists_source_iff s.nativeOr).mp ⟨source, hsource⟩
  obtain ⟨source', hsource'⟩ : ∃ source, q.source limits s.nativeOr first = .ok source :=
    (exists_source_iff s.nativeOr).mpr hsize
  have hfirst : ∃ answered, source'.answer s first.orderBy = .ok answered ∧
      (first.window.apply answered).length ≤ max 1 (s.documents q.collection).length ∧
      (first.window.apply answered = [] ↔ q.documents s first = []) :=
    exists_answer_source hwf hcount (hq.ordered hcheck) hq.unskipped hsource'
  obtain ⟨answered', hanswer', -, hfirst⟩ := hfirst
  obtain ⟨_, hsame, -, hall⟩ := exists_answer_source hwf hcount (hq.ordered hcheck) hq.unskipped hsource
  cases hanswer.symm.trans hsame
  have hempty : (first.window.apply answered').isEmpty =
      (q.selection.window.apply answered).isEmpty := by
    rw [Bool.eq_iff_iff, List.isEmpty_iff, List.isEmpty_iff, hfirst, hall]
    exact documents_limitedTo_eq_nil_iff hwf
  rw [outcome_of_toClient (q := q.any) hcheck reduction_any hsource' hanswer' fun _ => rfl, ← hempty]
  rfl

end BoundQuery

end DocumentQuery
