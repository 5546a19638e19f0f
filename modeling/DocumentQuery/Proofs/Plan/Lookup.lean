import DocumentQuery.Proofs.Json.Finite
import DocumentQuery.Proofs.Plan.Conformance
import DocumentQuery.Proofs.Plan.Reduction
import DocumentQuery.Proofs.Predicate.Binding

/-!
# Lookups as queries

A query that asks for one identity is a lookup: the document is fetched by its path, and ordering, window
and reduction are left for later. The same documents can be asked for by a query of the collection that
compares the identity (`BoundQuery.byIdentity`). Both have the same result (`BoundQuery.fetch_byIdentity`),
with one exception: an ordering leaves out documents that lack an ordered field, and a lookup is not
ordered. So a document without the field is found by its identity but not by the query
(`BoundQuery.fetch_untagged_differs`).

There is at most one document to find, and this is what makes the ways agree: it need not be sorted, there
is nothing behind it that a window could cut, and it is its own minimum and maximum. A sum by the store is
null when it is no finite number, but the sum of one number is the number.

The proof goes through the kinds of reductions (`BoundQuery.Reduces`). For each of them the store sends at
most the one document, with a guard in front of the conditions; what is reduced of it is what a lookup reduces
after fetching, since a lookup leaves nothing to the store.

## Main definitions

* `Store.PlainIds` — collections in which an identity is the last segment of a path
* `Selection.guarded` — a selection with one more comparison
* `BoundQuery.byIdentity` — a lookup as a query of the collection
-/

namespace DocumentQuery

/-! ## The document with an identity -/

namespace Store

variable {s : Store} {collection : String}

/-- Collections in which the identities are single segments. The identity of a document is the last segment of
its path, and only then is it the identity that the document is stored under. -/
def PlainIds (s : Store) (collection : String) : Prop :=
  ∀ documents, s.collections.lookup collection = some documents →
    ∀ row ∈ documents, '/' ∉ row.1.toList

/-- At most one document is found. -/
theorem length_find?_le (s : Store) (collection id : String) :
    (s.find? collection id).toList.length ≤ 1 := by
  cases s.find? collection id
  · exact Nat.zero_le 1
  · exact Nat.le_refl 1

/-- Of the documents of a collection, only the one that is found has an identity. -/
theorem documents_filter_id (h : s.WellFormed) (hids : s.PlainIds collection) (id : String) :
    (s.documents collection).filter (·.id == id) = (s.find? collection id).toList := by
  unfold documents find?
  cases hlookup : s.collections.lookup collection with
  | none => rfl
  | some documents =>
    have hid : ∀ row ∈ documents, ((fun d : Document => d.id == id) ∘ fun row : String × Json =>
        ⟨Document.pathOf collection row.1, row.2⟩) row = (row.1 == id) := by
      intro row hrow
      show (Document.id _ == id) = (row.1 == id)
      rw [Document.id_pathOf collection row.2 (hids documents hlookup row hrow)]
    show (documents.map fun row : String × Json =>
      (⟨Document.pathOf collection row.1, row.2⟩ : Document)).filter (·.id == id) = _
    rw [List.filter_map, List.filter_congr hid, (h collection documents hlookup).filter_name id]
    cases hfound : documents.lookup id <;> simp [hfound]

end Store

/-! ## Selections with one more comparison -/

namespace Selection

variable {s : Store} {sel : Selection} {c : Comparison}

/-- A selection with a comparison before its conditions. For a comparison of the identity it is what the query
by identity selects. -/
def guarded (sel : Selection) (c : Comparison) : Selection :=
  { sel with conditions := .compare c :: sel.conditions }

/-- A selection by comparisons stays one. -/
theorem guarded_compares (h : ∀ b ∈ sel.conditions, ∃ a, b = .compare a) :
    ∀ b ∈ (sel.guarded c).conditions, ∃ a, b = .compare a := by
  intro b hb
  rcases List.mem_cons.mp hb with rfl | hb
  · exact ⟨c, rfl⟩
  · exact h b hb

/-- A comparison that is no inequality leaves the field of the inequalities. -/
theorem inequality?_guarded (hc : c.operator.isInequality = false) (sel : Selection) :
    (sel.guarded c).inequality? = sel.inequality? := by
  simp only [inequality?, guarded, Condition.comparisonsOf, Condition.comparisons,
    List.singleton_append, List.find?_cons, hc]

/-- The guarded selection is for the documents of the selection that meet the comparison. -/
theorem admits_guarded (d : Document) :
    (sel.guarded c).admits d = (c.toFilter.accepts d && sel.admits d) := by
  simp only [admits, guarded, Condition.foldAll_accepts, Condition.toFilters, Condition.toFilter,
    StoreFilter.allAccept, Bool.and_assoc]

/-- An extremum is found in the same way under one more comparison. -/
theorem extremum_guarded (hc : c.operator.isInequality = false) (sel : Selection) (field : FieldRef)
    (direction : Direction) :
    (sel.guarded c).extremum field direction = (sel.extremum field direction).guarded c := by
  have hfinds : (sel.guarded c).findsExtremum field = sel.findsExtremum field := by
    simp only [findsExtremum, inequality?_guarded hc]
    rfl
  have hguard : (sel.guarded c).nullGuard field = sel.nullGuard field := by
    simp only [nullGuard, inequality?_guarded hc]
  cases h : sel.findsExtremum field with
  | true =>
    rw [extremum_of_findsExtremum h, extremum_of_findsExtremum (hfinds.trans h), hguard]
    rfl
  | false =>
    rw [extremum_of_not_findsExtremum h, extremum_of_not_findsExtremum (hfinds.trans h)]

end Selection

/-- A comparison that is no inequality is carried along by every aggregation. -/
theorem Aggregation.prepare_guarded {c : Comparison} (hc : c.operator.isInequality = false)
    (a : Aggregation) (sel : Selection) :
    a.prepare (sel.guarded c) = (a.prepare sel).map fun p => (p.1.guarded c, p.2) := by
  have hwindow : (sel.guarded c).window = sel.window := rfl
  have hsum (native : StoreReduction) : a.summation (sel.guarded c) native =
      (a.summation sel native).map fun p => (p.1.guarded c, p.2) := by
    simp only [summation, hwindow]
    split
    · rfl
    · split <;> rfl
  unfold prepare
  split
  · rw [hwindow]
    split <;> rfl
  · rfl
  · rfl
  · exact hsum _
  · exact hsum _
  · exact congrArg Except.ok (Prod.ext (Selection.extremum_guarded hc sel _ _) rfl)
  · exact congrArg Except.ok (Prod.ext (Selection.extremum_guarded hc sel _ _) rfl)

/-! ## Conditions that are comparisons -/

namespace Condition

variable {cs : List Condition}

/-- Comparisons have no disjunction in them. -/
theorem anyHasOr_of_compares (h : ∀ c ∈ cs, ∃ b, c = .compare b) : anyHasOr cs = false := by
  induction cs with
  | nil => rfl
  | cons c cs ih =>
    obtain ⟨b, rfl⟩ := h c List.mem_cons_self
    exact ih fun c hc => h c (List.mem_cons_of_mem _ hc)

/-- Comparisons that all have to hold are one conjunction. -/
theorem disjunctsAll_of_compares (h : ∀ c ∈ cs, ∃ b, c = .compare b) : disjunctsAll cs = 1 := by
  induction cs with
  | nil => rfl
  | cons c cs ih =>
    obtain ⟨b, rfl⟩ := h c List.mem_cons_self
    rw [disjunctsAll, ih fun c hc => h c (List.mem_cons_of_mem _ hc)]
    rfl

end Condition

/-! ## At most one document -/

namespace Reduction

/-- At most one document holds at most one number. -/
theorem numbers_of_length_le_one (path : String) {ds : List Document} (h : ds.length ≤ 1) :
    numbers (some path) ds = [] ∨
      ∃ d ∈ ds, ∃ n, d.field? path = some (.num n) ∧ numbers (some path) ds = [n] := by
  match ds, h with
  | [], _ => exact .inl rfl
  | [d], _ =>
    rw [← storeNumbers_eq, Store.numbers]
    cases hd : d.field? path with
    | none => exact .inl (by simp [hd])
    | some v =>
      cases v with
      | num n => exact .inr ⟨d, List.mem_singleton_self d, n, hd, by simp [hd, Json.toNumber?]⟩
      | _ => exact .inl (by simp [hd, Json.toNumber?])

/-- The sum and the average of at most one document are the same by the store and after fetching. -/
theorem ofSent_total_of_length_le_one {path : String} {reduction : StoreReduction} {w : Window}
    {ds : List Document} (hreduction : reduction = .sum path ∨ reduction = .average path)
    (hlen : ds.length ≤ 1)
    (hfinite : ∀ d ∈ ds, ∀ n, d.field? path = some (.num n) → n.toFloat.isFinite = true) :
    (native reduction).ofSent w ds = (native reduction).toClient.ofDocuments ds := by
  rcases hreduction with rfl | rfl
  · refine ofSent_sum ?_
    rcases numbers_of_length_le_one path hlen with hnone | ⟨d, hd, n, hn, hone⟩
    · rw [hnone]
      rfl
    · rw [hone]
      exact Number.sum_singleton (hfinite d hd n hn)
  · refine ofSent_average fun v hv => ?_
    rcases numbers_of_length_le_one path hlen with hnone | ⟨d, hd, n, hn, hone⟩
    · rw [hnone] at hv
      exact nomatch hv
    · obtain ⟨value, hvalue, hnull⟩ := Number.average?_singleton (hfinite d hd n hn)
      rw [hone, hvalue] at hv
      rwa [← Option.some.inj hv]

end Reduction

/-- A window keeps a part of a list. -/
theorem Window.apply_sublist (w : Window) (ds : List Document) : (w.apply ds).Sublist ds := by
  have hlimit : ∀ limit : Option Nat, (applyLimit limit ((applyTail w.limitToLast ds).drop w.skip)).Sublist
      ((applyTail w.limitToLast ds).drop w.skip)
    | none => List.Sublist.refl _
    | some n => List.take_sublist n _
  have htail : ∀ tail : Option Nat, (applyTail tail ds).Sublist ds
    | none => List.Sublist.refl _
    | some n => List.drop_sublist _ _
  have hpage := (hlimit w.limit).trans ((List.drop_sublist _ _).trans (htail w.limitToLast))
  unfold apply
  dsimp only
  split
  · exact (List.drop_sublist _ _).trans hpage
  · exact hpage

namespace Document

/-- At most one document is in order. -/
theorem sort_of_length_le_one {os : List StoreOrder} {ds : List Document} (h : ds.length ≤ 1) :
    sort os ds = ds := by
  match ds, h with
  | [], _ => exact sort_of_sorted List.Pairwise.nil
  | [d], _ => exact sort_of_sorted (List.pairwise_singleton _ d)

end Document

/-! ## The two ways -/

namespace BoundQuery

/-- A lookup as a query of the collection that compares the identity. -/
def byIdentity (q : BoundQuery) (field : FieldRef) (id : String) : BoundQuery :=
  { q with access := .collection [.compare ⟨field, .equalTo, .str id⟩] }

variable {s : Store} {limits : QueryLimits} {settings : Settings} {q : BoundQuery} {field : FieldRef} {id : String}
  {sel : Selection} {reduction : Reduction}

/-- The comparison of an identity is within all limits. -/
theorem check_byIdentity (haccess : q.access = .document id) :
    (q.byIdentity field id).check limits = q.check limits := by
  have hconditions : limits.checkConditions (q.byIdentity field id).access.conditions q.orderBy =
      limits.checkConditions q.access.conditions q.orderBy := by
    rw [haccess]
    rfl
  unfold check QueryLimits.check
  rw [show (q.byIdentity field id).orderBy = q.orderBy from rfl, hconditions]
  rfl

/-- The query by identity is reduced as the lookup is, from a guarded selection. -/
theorem reduction_byIdentity (haccess : q.access = .document id) :
    (q.byIdentity field id).reduction =
      q.reduction.map fun p => (p.1.guarded ⟨field, .equalTo, .str id⟩, p.2) := by
  have hselection : (q.byIdentity field id).selection =
      q.selection.guarded ⟨field, .equalTo, .str id⟩ := by
    simp only [selection, haccess]
    rfl
  unfold BoundQuery.reduction
  rw [hselection, show (q.byIdentity field id).aggregation = q.aggregation from rfl]
  cases q.aggregation with
  | none => rfl
  | some a => exact Aggregation.prepare_guarded rfl a q.selection

/-- What a lookup is reduced from is restricted by comparisons only. -/
theorem Reduces.compares (haccess : q.access = .document id) (h : q.Reduces sel reduction) :
    ∀ c ∈ sel.conditions, ∃ b, c = .compare b := by
  have hnone : q.selection.conditions = [] := by
    show q.access.conditions = []
    rw [haccess]
    rfl
  cases h with
  | extremum field direction nullable hfinds =>
    rw [Selection.extremum_of_findsExtremum hfinds, hnone, Selection.nullGuard]
    intro c hc
    split at hc
    · exact ⟨_, List.mem_singleton.mp hc⟩
    · exact absurd hc List.not_mem_nil
  | _ =>
    intro c hc
    rw [show _ = [] from hnone] at hc
    exact absurd hc List.not_mem_nil

/-- The query of the collection selects the document that is looked up, if the selection is for it. -/
theorem selected_guarded (hwf : s.WellFormed) (hids : s.PlainIds q.collection)
    (hfield : field.isDocumentId = true) (sel : Selection) :
    (sel.guarded ⟨field, .equalTo, .str id⟩).selected s q.collection =
      (s.find? q.collection id).toList.filter sel.admits := by
  have hadmits : (sel.guarded ⟨field, .equalTo, .str id⟩).admits =
      fun d => sel.admits d && (d.id == id) := by
    funext d
    have haccepts : (Comparison.toFilter ⟨field, .equalTo, .str id⟩).accepts d = (d.id == id) := by
      rw [Comparison.toFilter, StoreFilter.accepts, Document.field?_documentId d hfield]
      rfl
    rw [Selection.admits_guarded, haccepts, Bool.and_comm]
  have hlength : ((s.find? q.collection id).toList.filter sel.admits).length ≤ 1 :=
    Nat.le_trans (List.length_filter_le _ _) (s.length_find?_le q.collection id)
  rw [Selection.selected, hadmits, ← List.filter_filter, s.documents_filter_id hwf hids id]
  exact Document.sort_of_length_le_one hlength

/-- Documents with every field that a query orders by, and with finite numbers where it adds up. -/
structure Suits (q : BoundQuery) (d : Document) : Prop where
  /-- It has every field that the query orders by. -/
  ordered : d.hasOrderFields (q.orderBy.map StoreOrder.ofKey) = true
  /-- If the query adds up a field, the number in it is finite. -/
  finite : ∀ aggregation field, q.aggregation = some aggregation → aggregation.field = some field →
    ∀ n, d.field? field.path = some (.num n) → n.toFloat.isFinite = true

/-- A reduction of the documents that the query sends is the reduction of the document that is looked
up. -/
theorem Reduces.ofSent_find? (haccess : q.access = .document id) (h : q.Reduces sel reduction)
    (hfound : ∀ d ∈ s.find? q.collection id, q.Suits d) :
    reduction.ofSent sel.window
        (sel.window.sent ((s.find? q.collection id).toList.filter sel.admits)) =
      reduction.toClient.ofDocuments (sel.window.apply (s.find? q.collection id).toList) := by
  have hone := s.length_find?_le q.collection id
  have hcount : (s.find? q.collection id).toList.length ≤ Number.maxCount :=
    Nat.le_trans hone (by decide)
  -- but for an extremum, the document is asked for with the ordering of the query and nothing else
  have hall : ∀ w : Window, (s.find? q.collection id).toList.filter
      { q.selection with window := w }.admits = (s.find? q.collection id).toList := by
    refine fun w => List.filter_eq_self.mpr fun d hd => ?_
    simp only [Selection.admits, selection, haccess]
    exact (hfound d (Option.mem_toList.mp hd)).ordered
  have happly : ∀ w : Window, w.apply (w.sent (s.find? q.collection id).toList) =
      w.apply (s.find? q.collection id).toList := fun w => Window.apply_sent hcount
  cases h with
  | documents =>
    rw [hall q.selection.window]
    exact congrArg (Reduction.ofDocuments · .documents) (happly _)
  | client window kind path nullable =>
    rw [hall window]
    exact congrArg (Reduction.ofDocuments · (.client kind path nullable)) (happly _)
  | count htail honly =>
    rw [hall q.selection.window, Reduction.ofSent_count, Window.length_sent_sub htail honly hcount]
    rfl
  | total aggregation field native hq hfield hnative hskip htail =>
    rw [hall q.selection.window, Window.sent_eq_apply hskip htail (.inr hone) hcount]
    have hpart := Window.apply_sublist q.selection.window (s.find? q.collection id).toList
    exact Reduction.ofSent_total_of_length_le_one hnative (Nat.le_trans hpart.length_le hone)
      fun d hd => (hfound d (Option.mem_toList.mp (hpart.subset hd))).finite aggregation field hq hfield
  | extremum field direction nullable hfinds =>
    have hunbounded := (Bool.and_eq_true_iff.mp hfinds).1
    have hmeets : ∀ d, q.selection.meets d = true := fun d => by
      simp only [Selection.meets, selection, haccess]
      rfl
    -- what the guard against nulls and the ordering leave out holds no value
    have hvalues : ((s.find? q.collection id).toList.filter
        (q.selection.extremum field direction).admits).filter (·.holds field.path) =
          (s.find? q.collection id).toList.filter (·.holds field.path) := by
      rw [List.filter_filter]
      refine List.filter_congr fun d _ => ?_
      rw [Selection.admits_extremum hfinds, Selection.meets_extremum hfinds, hmeets]
      cases hd : d.holds field.path with
      | false => rfl
      | true => simp [(Document.holds_iff.mp hd).1]
    have hkept : ∀ ds : List Document, ds.length ≤ 1 →
        (q.selection.extremum field direction).window.apply ds = ds := by
      intro ds hds
      rw [Selection.extremum_of_findsExtremum hfinds]
      exact (Window.apply_one_of_isUnbounded hunbounded ds).trans (List.take_of_length_le hds)
    have hpart := Nat.le_trans (List.length_filter_le
      (q.selection.extremum field direction).admits (s.find? q.collection id).toList) hone
    show (Reduction.fold _ _ _ _).map Fetched.value = (Reduction.fold _ _ _ _).map Fetched.value
    rw [Window.apply_sent (Nat.le_trans hpart (by decide)), hkept _ hpart, hkept _ hone,
      Reduction.fold_kindOf, Reduction.fold_kindOf, Reduction.values_eq, Reduction.values_eq, hvalues]

/-- The query of the collection is one query on every store. -/
theorem source_byIdentity (hroom : 0 < limits.maxDisjunctions) (nativeOr : Bool)
    (hcompares : ∀ c ∈ sel.conditions, ∃ b, c = .compare b) :
    (q.byIdentity field id).source limits nativeOr sel =
      .ok (.query (Source.queryFor q.collection sel (Condition.foldAll sel.conditions))) := by
  have hsize : Condition.checkSize limits.maxDisjunctions sel.conditions = .ok () := by
    rw [Condition.checkSize, Condition.disjunctsAll_of_compares hcompares]
    exact if_neg (Nat.not_lt.mpr hroom)
  simp only [source, byIdentity, Source.ofSelection, hsize, Condition.anyHasOr_of_compares hcompares,
    Bool.not_false, Bool.true_or, if_true]
  rfl

/-- The store answers the query of the collection with what it sends of the document that is looked up. -/
theorem evaluate_byIdentity (hwf : s.WellFormed) (hids : s.PlainIds q.collection)
    (hfield : field.isDocumentId = true) (hcompares : ∀ c ∈ sel.conditions, ∃ b, c = .compare b)
    (htail : sel.window.limitToLast.isSome → sel.orderBy ≠ []) :
    s.evaluate (Source.queryFor q.collection (sel.guarded ⟨field, .equalTo, .str id⟩)
        (Condition.foldAll (sel.guarded ⟨field, .equalTo, .str id⟩).conditions)) =
      .ok (sel.window.sent ((s.find? q.collection id).toList.filter sel.admits)) := by
  have hor : (Condition.foldAll (sel.guarded ⟨field, .equalTo, .str id⟩).conditions).any
      StoreFilter.hasOr = false := by
    rw [Condition.foldAll_hasOr]
    exact Condition.anyHasOr_of_compares (Selection.guarded_compares hcompares)
  have hanswer : s.answer (Source.queryFor q.collection (sel.guarded ⟨field, .equalTo, .str id⟩)
      (Condition.foldAll (sel.guarded ⟨field, .equalTo, .str id⟩).conditions)) =
        sel.window.sent ((s.find? q.collection id).toList.filter sel.admits) := by
    rw [Source.answer_queryFor, selected_guarded hwf hids hfield]
    rfl
  exact (Source.evaluate_queryFor (.inr hor) htail).trans (congrArg Except.ok hanswer)

/-- The plans of a lookup and of the query of the collection have the same outcome. -/
theorem outcome_byIdentity (haccess : q.access = .document id) (hfield : field.isDocumentId = true)
    (hwf : s.WellFormed) (hids : s.PlainIds q.collection) (hroom : 0 < limits.maxDisjunctions)
    (hlast : q.LastOrdered)
    (hfound : ∀ d ∈ s.find? q.collection id, q.Suits d)
    (hcheck : q.check limits = .ok ()) (hreduction : q.reduction = .ok (sel, reduction)) :
    (q.byIdentity field id).outcome limits s = q.outcome limits s := by
  have hreduces := reduces_of_reduction hreduction
  have hcompares := hreduces.compares haccess
  have hcheck' : (q.byIdentity field id).check limits = .ok () :=
    (check_byIdentity haccess).trans hcheck
  have hreduction' : (q.byIdentity field id).reduction =
      .ok (sel.guarded ⟨field, .equalTo, .str id⟩, reduction) := by
    rw [reduction_byIdentity haccess, hreduction]
    rfl
  have hlookup : q.source limits s.nativeOr sel = .ok (.lookup q.collection id) := by
    simp only [source, haccess]
  have hplan := plan_eq_ok.mpr ⟨hcheck, sel, reduction, _, hreduction, hlookup, rfl⟩
  have hplan' := plan_eq_ok.mpr ⟨hcheck', _, reduction, _, hreduction',
    source_byIdentity hroom s.nativeOr (Selection.guarded_compares hcompares), rfl⟩
  have hordered := (conforms_reduction hcheck hlast hreduction).ordered
  simp only [outcome, hplan, hplan']
  show ExecutionPlan.outcome s _ = ExecutionPlan.outcome s _
  exact (ExecutionPlan.outcome_query (evaluate_byIdentity hwf hids hfield hcompares hordered)).trans <|
    (hreduces.ofSent_find? haccess hfound).trans (ExecutionPlan.outcome_client rfl).symm

/-- A lookup and the query that compares the identity have the same result, if the document that is looked up
has every ordered field. A query that is compiled asks for its last element only with an ordering, and
documents hold finite numbers.

The result may be a refusal; it is then the same one. The ordered fields are what carries the statement
(`fetch_untagged_differs`), and so does that a query may be one conjunction at least. -/
theorem fetch_byIdentity (haccess : q.access = .document id) (hfield : field.isDocumentId = true)
    (hwf : s.WellFormed) (hids : s.PlainIds q.collection) (hroom : 0 < settings.limits.maxDisjunctions)
    (hlast : q.LastOrdered)
    (hfound : ∀ d ∈ s.find? q.collection id, q.Suits d) :
    (((q.byIdentity field id).fetch settings).run (.ofStore s)).1 =
      ((q.fetch settings).run (.ofStore s)).1 := by
  rw [(fetch_gives _ _).result, (fetch_gives _ _).result]
  cases hcheck : q.check settings.limits with
  | error e =>
    have hcheck' : (q.byIdentity field id).check settings.limits = .error e :=
      (check_byIdentity haccess).trans hcheck
    simp only [outcome, plan, hcheck, hcheck']
    rfl
  | ok =>
    cases hreduction : q.reduction with
    | error e =>
      have hreduction' : (q.byIdentity field id).reduction = .error e := by
        rw [reduction_byIdentity haccess, hreduction]
        rfl
      have hcheck' : (q.byIdentity field id).check settings.limits = .ok () :=
        (check_byIdentity haccess).trans hcheck
      simp only [outcome, plan, hcheck, hcheck', hreduction, hreduction']
      rfl
    | ok p =>
      exact outcome_byIdentity haccess hfield hwf hids hroom hlast hfound hcheck hreduction

/-- The identity of a note. -/
def noteId : FieldRef :=
  .documentId "Id"

/-- The rank of the second note. -/
def rankOfSecond : BoundQuery :=
  { BoundQuery.notes with
    access := .document "b"
    orderBy := [⟨⟨"tag", "Tag", .scalar .string, false, none⟩, .ascending⟩]
    aggregation := some ⟨.sum, some rank, false⟩ }

/-- The sum of the ranks of the second note is its rank, in both ways. -/
theorem fetch_byIdentity_rankOfSecond :
    (((rankOfSecond.byIdentity noteId "b").fetch .standard).run (.ofStore (Store.notes true))).1 =
      .ok (.value (.int 2)) := by
  have hids : (Store.notes true).PlainIds "notes" := by
    intro documents h
    cases h
    decide
  refine (fetch_byIdentity rfl (FieldRef.isDocumentId_documentId "Id") (Store.notes_wellFormed true)
    hids (by decide) (fun _ _ => List.cons_ne_nil _ _) ?_).trans rfl
  rintro d ⟨⟩
  refine ⟨by decide, ?_⟩
  rintro aggregation field ⟨⟩ ⟨⟩ n ⟨⟩
  decide

/-- The first note, by the tags. -/
def firstByTag : BoundQuery :=
  { byTag with access := .document "a" }

/-- A note without a tag is found by its identity, but it is not among the notes by their tags. Where not even
one conjunction is allowed, the lookup finds it still, and the query is refused. -/
theorem fetch_untagged_differs :
    (Pipeline.compile Model.notes
      ⟨"Note",
        [.filter ⟨"n", .binary .equal (.member (.param "n") "Id") (.constant (.str "a"))⟩,
          .orderBy ⟨"n", .member (.param "n") "Tag"⟩ false]⟩
      >>= Template.bind Model.notes []) = .ok firstByTag ∧
    ((firstByTag.fetch .standard).run (.ofStore untagged)).1 =
      .ok (.documents [⟨"notes/a", .obj [("rank", .int 1)]⟩]) ∧
    (((firstByTag.byIdentity noteId "a").fetch .standard).run (.ofStore untagged)).1 =
      .ok (.documents []) ∧
    ((firstByTag.fetch ⟨⟨30, 10, 0⟩, .standard, none⟩).run (.ofStore untagged)).1 =
      .ok (.documents [⟨"notes/a", .obj [("rank", .int 1)]⟩]) ∧
    (((firstByTag.byIdentity noteId "a").fetch ⟨⟨30, 10, 0⟩, .standard, none⟩).run (.ofStore untagged)).1 =
      .error (.query (.unsupported (.tooManyDisjuncts 1 0))) := by
  refine ⟨rfl, rfl, ?_, rfl, rfl⟩
  rw [fetch_of_query rfl rfl rfl (.inl rfl) (by decide), Store.answer_of_sorted (by decide)]
  rfl

end BoundQuery

end DocumentQuery
