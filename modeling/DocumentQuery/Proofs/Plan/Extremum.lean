import DocumentQuery.Proofs.Ordering.Extremum
import DocumentQuery.Proofs.Plan.Emulation

/-!
# Minimum and maximum as queries for one document

A minimum over a whole selection is read off the first document in ascending order of its field, and a
maximum off the first one in descending order. The ordering of the query is given up for that. What
comes out is the minimum or maximum of the documents that the query brings without its ordering
(`BoundQuery.fetch_extremum`). These may be more documents than the query brings, because a document
that lacks an ordered field is left out of an ordering only. Among equal values that differ, `1` and
`1.0`, the order of the paths decides.

Stored nulls are the difficulty. They come first in ascending order, so a minimum could be read off a document
that holds none of the values. They are kept out by a condition, unless the conditions have an inequality on
the field already. The theorem therefore asks that nulls do not meet the conditions of a minimum that has such
an inequality (`Selection.NullsApart`); no null does when the inequality has to hold
(`Selection.ne_null_of_inequality`). This hypothesis carries the result, together with a window that cuts
nothing.
-/

namespace DocumentQuery

/-! ## Values of documents -/

namespace Document

/-- Whether a document holds a value other than null in a field. -/
def holds (path : String) (d : Document) : Bool :=
  (d.field? path).any (!·.isNull)

theorem holds_iff {path : String} {d : Document} :
    d.holds path = true ↔ (d.field? path).isSome = true ∧ (d.valueAt path).isNull = false := by
  unfold holds valueAt
  cases d.field? path <;> simp

/-- The document that comes first by a field has the value that comes first. -/
theorem precedes_of_notAfter {direction : Direction} {path : String} {a b : Document}
    (h : notAfter [⟨path, direction⟩] a b = true) :
    Json.Precedes direction (a.valueAt path) (b.valueAt path) := by
  rw [notAfter_iff, order, Ordering.isLE_then_iff_and] at h
  have hfields := (Ordering.isLE_then_iff_and.mp h.1).1
  cases direction <;> exact hfields

/-- Nothing but null comes after null in descending order. -/
theorem holds_eq_false_of_notAfter {path : String} {a b : Document}
    (h : notAfter [⟨path, .descending⟩] a b = true) (ha : (a.valueAt path).isNull = true) :
    b.holds path = false := by
  have hprecedes : ((b.valueAt path).order (a.valueAt path)).isLE := precedes_of_notAfter h
  have hnull : a.valueAt path = .null := by
    cases hv : a.valueAt path <;> rw [hv] at ha <;> first | rfl | exact nomatch ha
  have hrank := Json.rank_le_of_order hprecedes
  rw [hnull, Json.rank] at hrank
  refine Bool.eq_false_iff.mpr fun hb => ?_
  have hvalue := (holds_iff.mp hb).2
  cases hv : b.valueAt path <;> rw [hv] at hvalue hrank <;> simp [Json.rank, Json.isNull] at hvalue hrank

end Document

namespace Reduction

theorem values_eq (path : String) (ds : List Document) :
    values (some path) ds = (ds.filter (·.holds path)).map (·.valueAt path) := by
  induction ds with
  | nil => rfl
  | cons d ds ih =>
    simp only [values] at ih
    cases hd : d.field? path with
    | none => simp [values, Document.holds, hd, ih]
    | some v =>
      cases hv : v.isNull <;> simp [values, Document.holds, Document.valueAt, hd, hv, ih]

/-- The reduction that a direction leads to: ascending to the minimum, descending to the maximum. -/
def kindOf : Direction → AggregateKind
  | .ascending => .min
  | .descending => .max

/-- A minimum or maximum of documents is the extreme of the values of the field. -/
theorem fold_kindOf (direction : Direction) (path : String) (nullable : Bool)
    (ds : List Document) :
    fold (kindOf direction) (some path) nullable ds =
      extremum nullable (Json.extreme? direction (values (some path) ds)) := by
  cases direction <;> rfl

/-- The value of the first document by a field is the extreme of all values, when nulls are not in the way
of an ascending order. -/
theorem values_take_one (direction : Direction) (path : String) {ds : List Document}
    (hd : Document.DistinctPaths ds) (hfield : ∀ d ∈ ds, (d.field? path).isSome = true)
    (hnull : direction = .ascending → ∀ d ∈ ds, d.holds path = true) :
    values (some path) ((Document.sort [⟨path, direction⟩] ds).take 1) =
      ((Document.first? [⟨path, direction⟩] (ds.filter (·.holds path))).map
        (·.valueAt path)).toList := by
  have htake : (Document.sort [⟨path, direction⟩] ds).take 1 =
      (Document.first? [⟨path, direction⟩] ds).toList := by
    rw [← Document.head?_sort hd]
    cases Document.sort [⟨path, direction⟩] ds <;> rfl
  rw [htake, values_eq]
  cases hfirst : Document.first? [⟨path, direction⟩] ds with
  | none => rw [Document.first?_eq_none hfirst]; rfl
  | some d =>
    obtain ⟨hmem, hall⟩ := Document.first?_eq_some hfirst
    cases hh : d.holds path with
    | true =>
      -- the first of all documents is also the first of those that hold a value
      rw [Document.first?_of_forall (hd.filter _) (List.mem_filter.mpr ⟨hmem, hh⟩)
        fun e he => hall e (List.mem_filter.mp he).1]
      simp [hh]
    | false =>
      -- the greatest value is null, so there is no other
      have hdirection : direction = .descending := by
        cases direction with
        | ascending => exact absurd (hnull rfl d hmem) (by simp [hh])
        | descending => rfl
      subst hdirection
      have hvalue : (d.valueAt path).isNull = true := by
        by_contra hv
        exact absurd (Document.holds_iff.mpr ⟨hfield d hmem, Bool.eq_false_iff.mpr hv⟩) (by simp [hh])
      have hnone : ds.filter (·.holds path) = [] :=
        List.filter_eq_nil_iff.mpr fun e he =>
          Bool.not_eq_true _ ▸ Document.holds_eq_false_of_notAfter (hall e he) hvalue
      simp [hh, hnone, Document.first?]

/-- Whether two results are the same as far as the store tells values apart. Numbers may be an integer and a
double, and objects of one size are all alike. -/
def Ties : Except Failure Json → Except Failure Json → Prop
  | .ok v, .ok u => v.order u = .eq
  | .error e, .error e' => e = e'
  | _, _ => False

/-- The extremum of documents in another arrangement is the same one as far as the store can tell. -/
theorem fold_perm {direction : Direction} {path : String} {nullable : Bool} {as bs : List Document}
    (p : as.Perm bs) :
    Ties (fold (kindOf direction) (some path) nullable as)
      (fold (kindOf direction) (some path) nullable bs) := by
  have hvalues : (values (some path) as).Perm (values (some path) bs) := by
    rw [values_eq, values_eq]
    exact (p.filter _).map _
  rw [fold_kindOf, fold_kindOf]
  cases ha : Json.extreme? direction (values (some path) as) with
  | none =>
    cases hb : Json.extreme? direction (values (some path) bs) with
    | none => cases nullable <;> rfl
    | some u =>
      obtain ⟨v, hv, -⟩ := Json.extreme?_perm hvalues.symm hb
      exact nomatch ha.symm.trans hv
  | some v =>
    obtain ⟨u, hu, htie⟩ := Json.extreme?_perm hvalues ha
    rw [hu]
    exact htie

end Reduction

/-! ## Windows -/

namespace Window

/-- A window that cuts nothing keeps the list. -/
theorem apply_of_isUnbounded {w : Window} (h : w.isUnbounded = true) (ds : List Document) :
    w.apply ds = ds := by
  simp only [isUnbounded, Bool.and_eq_true, beq_iff_eq, Option.isNone_iff_eq_none,
    Bool.not_eq_true'] at h
  obtain ⟨⟨⟨hskip, hlimit⟩, hlast⟩, honly⟩ := h
  simp [apply, applyLimit, applyTail, hskip, hlimit, hlast, honly]

/-- Limited to one document, it keeps the first. -/
theorem apply_one_of_isUnbounded {w : Window} (h : w.isUnbounded = true) (ds : List Document) :
    { w with limit := some 1 }.apply ds = ds.take 1 := by
  simp only [isUnbounded, Bool.and_eq_true, beq_iff_eq, Option.isNone_iff_eq_none,
    Bool.not_eq_true'] at h
  obtain ⟨⟨⟨hskip, -⟩, hlast⟩, honly⟩ := h
  simp [apply, applyLimit, applyTail, hskip, hlast, honly]

theorem limitToLast_of_isUnbounded {w : Window} (h : w.isUnbounded = true) : w.limitToLast = none := by
  simp only [isUnbounded, Bool.and_eq_true, Option.isNone_iff_eq_none] at h
  exact h.1.2

end Window

/-! ## Selections -/

/-- Null meets no inequality. -/
theorem FilterOp.holds_null {op : FilterOp} (h : op.isInequality = true) (v : Json) :
    op.holds .null v = false := by
  cases op <;> simp_all [isInequality, holds, Json.comparable, Json.isNull]

namespace Condition

open StoreFilter (allAccept accepts)

/-- Every condition of a list that lets a document through lets it through. -/
theorem accepts_of_mem {d : Document} {c : Condition} {cs : List Condition} (hc : c ∈ cs)
    (h : allAccept d (toFilters cs) = true) : accepts d c.toFilter = true := by
  induction cs with
  | nil => exact absurd hc List.not_mem_nil
  | cons b cs ih =>
    rw [toFilters, allAccept, Bool.and_eq_true] at h
    rcases List.mem_cons.mp hc with rfl | hc
    · exact h.1
    · exact ih hc h.2

end Condition

namespace Selection

variable {sel : Selection} {field : FieldRef} {direction : Direction}

/-- Whether a document meets the conditions of a selection. -/
def meets (sel : Selection) (d : Document) : Bool :=
  (Condition.foldAll sel.conditions).all (·.accepts d)

/-- Whether an extremum of a field is found by a query for one document: nothing is cut, and no inequality
demands another ordering. -/
def findsExtremum (sel : Selection) (field : FieldRef) : Bool :=
  sel.window.isUnbounded && sel.inequality?.all (· == field.path)

/-- The condition that is added to keep out stored nulls, where no inequality does. -/
def nullGuard (sel : Selection) (field : FieldRef) : List Condition :=
  if field.persistsNull && sel.inequality?.isNone then [notNull field] else []

/-- Where it is, the selection is ordered by the field, guarded against nulls, and limited to one document. -/
theorem extremum_of_findsExtremum (h : sel.findsExtremum field = true) :
    sel.extremum field direction =
      ⟨sel.conditions ++ sel.nullGuard field, [⟨field.path, direction⟩],
        { sel.window with limit := some 1 }⟩ := by
  unfold extremum nullGuard
  refine (if_pos h).trans ?_
  split <;> simp

/-- Where it is not found by a query for one document, an extremum is taken of the selection itself. -/
theorem extremum_of_not_findsExtremum (h : sel.findsExtremum field = false) :
    sel.extremum field direction = sel :=
  if_neg (by rw [findsExtremum] at h; simp [h])

/-- The comparison with null lets a document through if its field holds a value. -/
theorem accepts_notNull (d : Document) :
    StoreFilter.accepts d (notNull field).toFilter = d.holds field.path := by
  simp only [notNull, Condition.toFilter, Comparison.toFilter, StoreFilter.accepts, Document.holds]
  cases hd : d.field? field.path with
  | none => rfl
  | some v => cases v <;> simp [FilterOp.holds, Json.equates, Json.same, Json.isNull]

/-- What the added condition demands is that the field holds a value. -/
theorem nullGuard_accepts (d : Document) :
    StoreFilter.allAccept d (Condition.toFilters (sel.nullGuard field)) =
      (!(field.persistsNull && sel.inequality?.isNone) || d.holds field.path) := by
  unfold nullGuard
  split
  next h => simp [h, Condition.toFilters, StoreFilter.allAccept, accepts_notNull]
  next h => simp [h, Condition.toFilters, StoreFilter.allAccept]

/-- What meets the conditions for an extremum meets those of the selection, and holds a value where it is
guarded. -/
theorem meets_extremum (h : sel.findsExtremum field = true) (d : Document) :
    (sel.extremum field direction).meets d =
      (sel.meets d && (!(field.persistsNull && sel.inequality?.isNone) || d.holds field.path)) := by
  rw [extremum_of_findsExtremum h, meets, meets, Condition.foldAll_accepts, Condition.foldAll_accepts,
    Condition.toFilters_append, StoreFilter.allAccept_append, nullGuard_accepts]

/-- A document is among those ordered by the field if it meets the conditions and has the field. -/
theorem admits_extremum (h : sel.findsExtremum field = true) (d : Document) :
    (sel.extremum field direction).admits d =
      ((sel.extremum field direction).meets d && (d.field? field.path).isSome) := by
  rw [admits, meets, extremum_of_findsExtremum h]
  simp [Document.hasOrderFields]

/-- A document meets no conditions that demand an inequality of a field in which it stores null. -/
theorem ne_null_of_inequality {c : Comparison} {d : Document} (hc : .compare c ∈ sel.conditions)
    (hop : c.operator.isInequality = true) (hd : sel.meets d = true) :
    d.field? c.field.path ≠ some .null := by
  intro hnull
  rw [meets, Condition.foldAll_accepts] at hd
  have haccepts : c.toFilter.accepts d = true := Condition.accepts_of_mem hc hd
  rw [Comparison.toFilter, StoreFilter.accepts, hnull] at haccepts
  exact absurd haccepts (by simp [FilterOp.holds_null hop])

/-- Whether stored nulls are out of the way of an extremum among given documents: only a property that
persists nulls has any, and none meets the conditions of a minimum with an inequality. -/
structure NullsApart (sel : Selection) (field : FieldRef) (direction : Direction)
    (documents : List Document) : Prop where
  /-- A null is stored only by a property that persists nulls. -/
  persists : ∀ d ∈ documents, d.field? field.path = some .null → field.persistsNull = true
  /-- In ascending order, no null meets the conditions where an inequality is among them already. -/
  inequality : direction = .ascending → sel.inequality?.isSome = true →
    ∀ d ∈ documents, sel.meets d = true → d.field? field.path ≠ some .null

/-- Nulls are out of the way of every extremum where there are none. -/
theorem nullsApart_of_forall {documents : List Document}
    (h : ∀ d ∈ documents, (d.field? field.path).all (!·.isNull) = true) :
    sel.NullsApart field direction documents := by
  have hne {d : Document} (hd : d ∈ documents) : d.field? field.path ≠ some .null := by
    intro hnull
    have hall := h d hd
    rw [hnull] at hall
    exact nomatch hall
  exact ⟨fun d hd hnull => absurd hnull (hne hd), fun _ _ d hd _ => hne hd⟩

/-- In ascending order every document that is asked for holds a value. -/
theorem holds_of_admits_extremum {documents : List Document} (h : sel.findsExtremum field = true)
    (hn : sel.NullsApart field direction documents) (hdirection : direction = .ascending)
    {d : Document} (hmem : d ∈ documents) (hd : (sel.extremum field direction).admits d = true) :
    d.holds field.path = true := by
  rw [admits_extremum h, meets_extremum h, Bool.and_eq_true, Bool.and_eq_true] at hd
  obtain ⟨⟨hmeets, hguard⟩, hsome⟩ := hd
  by_contra hnot
  have hnull : d.field? field.path = some .null := by
    obtain ⟨v, hv⟩ := Option.isSome_iff_exists.mp hsome
    rw [Document.holds, hv] at hnot
    cases v <;> first | exact hv | exact absurd rfl hnot
  simp only [hn.persists d hmem hnull, Bool.true_and, Bool.or_eq_true, hnot, or_false,
    Bool.not_eq_true', Option.isNone_eq_false_iff] at hguard
  exact hn.inequality hdirection hguard d hmem hmeets hnull

/-- The first document by the field has the extreme of the values of all documents that meet the
conditions. -/
theorem fold_extremum {s : Store} {collection : String} (hwf : s.WellFormed)
    (h : sel.findsExtremum field = true)
    (hn : sel.NullsApart field direction (s.documents collection)) (nullable : Bool) :
    Reduction.fold (Reduction.kindOf direction) (some field.path) nullable
        ((sel.extremum field direction).ofDocuments (s.documents collection)) =
      Reduction.fold (Reduction.kindOf direction) (some field.path) nullable
        ({ sel with orderBy := [] }.ofDocuments (s.documents collection)) := by
  have hunbounded := (Bool.and_eq_true_iff.mp h).1
  have hone : (sel.extremum field direction).ofDocuments (s.documents collection) =
      (Document.sort [⟨field.path, direction⟩]
        ((s.documents collection).filter (sel.extremum field direction).admits)).take 1 := by
    rw [ofDocuments_documents hwf, selected, extremum_of_findsExtremum h]
    exact Window.apply_one_of_isUnbounded hunbounded _
  have hall : { sel with orderBy := [] }.ofDocuments (s.documents collection) =
      (s.documents collection).filter sel.meets :=
    Window.apply_of_isUnbounded hunbounded _
  -- the ordering and the guard against nulls leave out only documents that hold no value
  have hfilter : ((s.documents collection).filter (sel.extremum field direction).admits).filter
        (·.holds field.path) =
      ((s.documents collection).filter sel.meets).filter (·.holds field.path) := by
    rw [List.filter_filter, List.filter_filter]
    refine List.filter_congr fun d _ => ?_
    rw [admits_extremum h, meets_extremum h]
    cases hd : d.holds field.path with
    | false => rfl
    | true => simp [(Document.holds_iff.mp hd).1]
  have hvalues := Reduction.values_take_one direction field.path ((hwf.distinctPaths collection).filter
      (sel.extremum field direction).admits)
    (fun d hd => by
      have hadmits := (List.mem_filter.mp hd).2
      rw [admits_extremum h, Bool.and_eq_true] at hadmits
      exact hadmits.2)
    (fun hdirection d hd =>
      holds_of_admits_extremum h hn hdirection (List.mem_filter.mp hd).1 (List.mem_filter.mp hd).2)
  -- equal values are told apart by the paths, whose order is that of the plain fold
  have hascending := List.Pairwise.filter (fun d => d.holds field.path)
    (List.Pairwise.filter sel.meets (hwf.documents_ascending collection))
  rw [Reduction.fold_kindOf, Reduction.fold_kindOf, hone, hall, hvalues, hfilter,
    Json.extreme?_toList, Reduction.values_eq, Json.extreme?_map direction field.path hascending]

end Selection

/-! ## Queries -/

namespace Condition

/-- A comparison that is added does not change the number of conjunctions. -/
theorem disjunctsAll_append_compare (cs : List Condition) (c : Comparison) :
    disjunctsAll (cs ++ [.compare c]) = disjunctsAll cs := by
  induction cs with
  | nil => rfl
  | cons b cs ih => simp only [List.cons_append, disjunctsAll, ih]

theorem checkSize_append_compare (limit : Nat) (cs : List Condition) (c : Comparison) :
    checkSize limit (cs ++ [.compare c]) = checkSize limit cs := by
  simp only [checkSize, disjunctsAll_append_compare]

end Condition

namespace BoundQuery

variable {s : Store} {limits : QueryLimits} {settings : Settings} {q : BoundQuery} {field : FieldRef}
  {direction : Direction} {nullable : Bool}

/-- The query for the minimum or maximum of a field. -/
def extremum (q : BoundQuery) (field : FieldRef) (direction : Direction) (nullable : Bool) :
    BoundQuery :=
  { q with aggregation := some ⟨Reduction.kindOf direction, some field, nullable⟩ }

/-- The query without its ordering. -/
def unordered (q : BoundQuery) : BoundQuery :=
  { q with orderBy := [] }

/-- A query for a minimum or maximum is reduced from the selection for it. -/
theorem reduction_extremum :
    (q.extremum field direction nullable).reduction =
      .ok (q.selection.extremum field direction,
        .client (Reduction.kindOf direction) (some field.path) nullable) := by
  cases direction <;> rfl

/-- An extremum is taken of the documents that its selection brings. -/
theorem outcome_extremum {source : Source} {documents : List Document}
    (hcheck : q.check limits = .ok ())
    (hsource : q.source limits s.nativeOr (q.selection.extremum field direction) = .ok source)
    (hanswer : source.answer s (q.selection.extremum field direction).orderBy = .ok documents) :
    (q.extremum field direction nullable).outcome limits s =
      (Reduction.fold (Reduction.kindOf direction) (some field.path) nullable
        ((q.selection.extremum field direction).window.apply documents)).map .value := by
  have hplan : (q.extremum field direction nullable).plan limits s.nativeOr =
      .ok ⟨source, (q.selection.extremum field direction).orderBy,
        (q.selection.extremum field direction).window,
        .client (Reduction.kindOf direction) (some field.path) nullable⟩ := by
    refine plan_eq_ok.mpr ⟨hcheck, _, _, source, reduction_extremum, hsource, ?_⟩
    simp only [Reduction.toClient, ite_self]
  simp only [outcome, hplan]
  show ExecutionPlan.collected s _ = _
  simp only [ExecutionPlan.collected, hanswer]
  rfl

/-- Without an ordering a query keeps to the limits all the same, if it asks for no tail. -/
theorem check_unordered (h : q.check limits = .ok ()) (htail : q.limitToLast = none) :
    q.unordered.check limits = .ok () := by
  obtain ⟨⟨⟩, hlimits, hloadings⟩ := Except.bind_eq_ok.mp h
  obtain ⟨⟨⟩, hconditions, hrest⟩ := Except.bind_eq_ok.mp hlimits
  obtain ⟨inequality, hcomparisons, -⟩ := Except.bind_eq_ok.mp hconditions
  refine Except.bind_eq_ok.mpr ⟨(), Except.bind_eq_ok.mpr ⟨(), ?_, ?_⟩, hloadings⟩
  · refine Except.bind_eq_ok.mpr ⟨inequality, hcomparisons, ?_⟩
    cases inequality <;> rfl
  · simpa [unordered, htail] using hrest

theorem limitToLast_of_isUnbounded (h : q.selection.window.isUnbounded = true) :
    q.limitToLast = none := by
  have hnone := Window.limitToLast_of_isUnbounded h
  unfold selection Window.narrow at hnone
  cases hc : q.cardinality <;> simp only [hc] at hnone
  case last => split at hnone <;> first | exact hnone | exact nomatch hnone
  all_goals exact hnone

/-- The calls of a query without a tail bring its documents from every store. -/
theorem answerable_of_untailed {sel : Selection} (hwf : s.WellFormed)
    (hcount : (s.documents q.collection).length ≤ Number.maxCount)
    (htail : sel.window.limitToLast = none) : Answerable s q sel where
  wellFormed := hwf
  count := hcount
  ordered := fun _ h => by rw [htail] at h; exact nomatch h
  splits := fun _ _ n k h => by rw [htail] at h; exact nomatch h

/-- The documents of a query whose window cuts nothing are an arrangement of those without an ordering, if
none of these lacks an ordered field. -/
theorem documents_perm_unordered (hwf : s.WellFormed)
    (hunbounded : q.selection.window.isUnbounded = true)
    (hfields : ∀ d ∈ s.documents q.collection, q.selection.meets d = true →
      d.hasOrderFields q.selection.orderBy = true) :
    (q.unordered.documents s q.unordered.selection).Perm (q.documents s q.selection) := by
  cases haccess : q.access with
  | document id =>
    rw [documents_of_document haccess, documents_of_document (q := q.unordered) haccess]
    exact List.Perm.refl _
  | collection conditions =>
    have hmeets : { q.selection with orderBy := [] }.ofDocuments (s.documents q.collection) =
        (s.documents q.collection).filter q.selection.meets :=
      Window.apply_of_isUnbounded hunbounded _
    -- the ordering leaves out no document
    have hadmits : (s.documents q.collection).filter q.selection.admits =
        (s.documents q.collection).filter q.selection.meets := by
      refine List.filter_congr fun d hd => ?_
      show (q.selection.meets d && d.hasOrderFields q.selection.orderBy) = _
      cases h : q.selection.meets d with
      | false => rfl
      | true => exact hfields d hd h
    rw [documents_of_collection haccess, documents_of_collection (q := q.unordered) haccess]
    refine (List.Perm.of_eq hmeets).trans ?_
    rw [Selection.ofDocuments_documents hwf, Window.apply_of_isUnbounded hunbounded,
      Selection.selected, hadmits]
    exact (Document.sort_perm _ _).symm

/-- A query without a tail that succeeds brings its documents. -/
theorem eq_documents_of_outcome {documents : List Document} (hwf : s.WellFormed)
    (hcount : (s.documents q.collection).length ≤ Number.maxCount) (hagg : q.aggregation = none)
    (htail : q.selection.window.limitToLast = none)
    (houtcome : q.outcome limits s = .ok (.documents documents)) :
    documents = q.documents s q.selection := by
  obtain ⟨-, source, sent, hsource, hsent, hdocuments⟩ := (outcome_of_documents hagg).mp houtcome
  cases hdocuments
  have hbrought := answer_source (answerable_of_untailed hwf hcount htail) hsource
  rw [hsent] at hbrought
  exact Except.ok.inj hbrought

/-- A query whose window cuts nothing succeeds without its ordering as well. -/
theorem outcome_unordered {fetched : Fetched} (hwf : s.WellFormed)
    (hcount : (s.documents q.collection).length ≤ Number.maxCount) (hagg : q.aggregation = none)
    (hunbounded : q.selection.window.isUnbounded = true)
    (houtcome : q.outcome limits s = .ok fetched) :
    q.unordered.outcome limits s =
      .ok (.documents (q.unordered.documents s q.unordered.selection)) := by
  have htail := Window.limitToLast_of_isUnbounded hunbounded
  obtain ⟨hcheck, source, -, hsource, -, -⟩ := (outcome_of_documents hagg).mp houtcome
  have hsize := (exists_source_iff s.nativeOr).mp ⟨source, hsource⟩
  obtain ⟨source', hsource'⟩ : ∃ source',
      q.unordered.source limits s.nativeOr q.unordered.selection = .ok source' :=
    (exists_source_iff s.nativeOr).mpr hsize
  have hanswerable : Answerable s q q.unordered.selection :=
    answerable_of_untailed hwf hcount htail
  obtain ⟨sent, hsent, happly⟩ := Except.map_eq_ok.mp (answer_source hanswerable hsource')
  exact (outcome_of_documents (q := q.unordered) hagg).mpr
    ⟨check_unordered hcheck (limitToLast_of_isUnbounded hunbounded), source', sent, hsource', hsent,
      congrArg Fetched.documents happly.symm⟩

/-- The reduction of the one document that is asked for is the reduction of the documents without an
ordering. -/
theorem fold_extremum (hwf : s.WellFormed)
    (hn : q.selection.NullsApart field direction (s.documents q.collection))
    (hfinds : q.selection.findsExtremum field = true) :
    Reduction.fold (Reduction.kindOf direction) (some field.path) nullable
        (q.documents s (q.selection.extremum field direction)) =
      Reduction.fold (Reduction.kindOf direction) (some field.path) nullable
        (q.unordered.documents s q.unordered.selection) := by
  have hunbounded := (Bool.and_eq_true_iff.mp hfinds).1
  cases haccess : q.access with
  | document id =>
    rw [documents_of_document haccess, documents_of_document (q := q.unordered) haccess,
      Selection.extremum_of_findsExtremum hfinds]
    have hone : (s.find? q.collection id).toList.take 1 = (s.find? q.collection id).toList := by
      cases s.find? q.collection id <;> rfl
    exact congrArg _ <| (Window.apply_one_of_isUnbounded hunbounded _).trans <|
      hone.trans (Window.apply_of_isUnbounded hunbounded _).symm
  | collection conditions =>
    rw [documents_of_collection haccess, documents_of_collection (q := q.unordered) haccess]
    exact Selection.fold_extremum hwf hfinds hn nullable

/-- The minimum or maximum that a query for one document brings is that of all documents of the query without
its ordering. -/
theorem outcome_extremum_of_findsExtremum {fetched : Fetched} (hwf : s.WellFormed)
    (hcount : (s.documents q.collection).length ≤ Number.maxCount) (hagg : q.aggregation = none)
    (hn : q.selection.NullsApart field direction (s.documents q.collection))
    (hfinds : q.selection.findsExtremum field = true)
    (houtcome : q.outcome limits s = .ok fetched) :
    (q.extremum field direction nullable).outcome limits s =
      (Reduction.fold (Reduction.kindOf direction) (some field.path) nullable
        (q.unordered.documents s q.unordered.selection)).map .value := by
  obtain ⟨hcheck, source, -, hsource, -, -⟩ := (outcome_of_documents hagg).mp houtcome
  have hnone := Window.limitToLast_of_isUnbounded (Bool.and_eq_true_iff.mp hfinds).1
  have htail : (q.selection.extremum field direction).window.limitToLast = none := by
    rw [Selection.extremum_of_findsExtremum hfinds]
    exact hnone
  have hsize : q.access.isLookup = false → Condition.checkSize limits.maxDisjunctions
      (q.selection.extremum field direction).conditions = .ok () := by
    have hsize := (exists_source_iff s.nativeOr).mp ⟨source, hsource⟩
    rw [Selection.extremum_of_findsExtremum hfinds, Selection.nullGuard]
    split
    · rwa [Selection.notNull, Condition.checkSize_append_compare]
    · rwa [List.append_nil]
  obtain ⟨source', hsource'⟩ := (exists_source_iff s.nativeOr).mpr hsize
  obtain ⟨sent, hsent, happly⟩ := Except.map_eq_ok.mp <|
    answer_source (answerable_of_untailed hwf hcount htail) hsource'
  rw [outcome_extremum hcheck hsource' hsent, happly, fold_extremum hwf hn hfinds]

/-- The documents that a minimum or maximum is taken of: those without the ordering when the extremum is
found by a query for one document, and else those the query brings. -/
def extremumBase (q : BoundQuery) (field : FieldRef) : BoundQuery :=
  if q.selection.findsExtremum field then q.unordered else q

/-- A query for a minimum or maximum brings the reduction of the documents that the query brings without a
reduction, less the ordering where the extremum is found by a query for one document. With the ordering it is
the same extremum as far as the store tells values apart, if no document that meets the conditions lacks an
ordered field.

The last condition is there because an ordering leaves such documents out, and the extremum is not found among
documents that are left out (`extremum_of_missing_order`). -/
theorem fetch_extremum {documents : List Document} (hwf : s.WellFormed)
    (hcount : (s.documents q.collection).length ≤ Number.maxCount) (hagg : q.aggregation = none)
    (hn : q.selection.NullsApart field direction (s.documents q.collection))
    (hfetch : ((q.fetch settings).run (.ofStore s)).1 = .ok (.documents documents)) :
    ∃ base,
      (((q.extremumBase field).fetch settings).run (.ofStore s)).1 = .ok (.documents base) ∧
      (((q.extremum field direction nullable).fetch settings).run (.ofStore s)).1 =
        (Reduction.fold (Reduction.kindOf direction) (some field.path) nullable base).map .value ∧
      ((∀ d ∈ s.documents q.collection, q.selection.meets d = true →
          d.hasOrderFields q.selection.orderBy = true) →
        Reduction.Ties
          (Reduction.fold (Reduction.kindOf direction) (some field.path) nullable base)
          (Reduction.fold (Reduction.kindOf direction) (some field.path) nullable documents)) := by
  simp only [(fetch_gives _ _).result] at hfetch ⊢
  cases hfinds : q.selection.findsExtremum field with
  | true =>
    have hunbounded := (Bool.and_eq_true_iff.mp hfinds).1
    refine ⟨q.unordered.documents s q.unordered.selection, ?_, ?_, fun hfields => ?_⟩
    · rw [extremumBase, hfinds, if_pos rfl]
      exact outcome_unordered hwf hcount hagg hunbounded hfetch
    · exact outcome_extremum_of_findsExtremum hwf hcount hagg hn hfinds hfetch
    · rw [eq_documents_of_outcome hwf hcount hagg (Window.limitToLast_of_isUnbounded hunbounded)
        hfetch]
      exact Reduction.fold_perm (documents_perm_unordered hwf hunbounded hfields)
  | false =>
    -- the selection stays as it is, and the store or the client reduces what it brings
    refine ⟨documents, ?_, ?_, fun _ => Reduction.fold_perm (List.Perm.refl documents)⟩
    · rw [extremumBase, hfinds]
      exact hfetch
    · obtain ⟨hcheck, source, sent, hsource, hsent, hdocuments⟩ :=
        (outcome_of_documents hagg).mp hfetch
      have hsame : q.selection.extremum field direction = q.selection :=
        Selection.extremum_of_not_findsExtremum hfinds
      rw [outcome_extremum hcheck (hsame ▸ hsource) (hsame ▸ hsent), hsame]
      cases hdocuments
      rfl

/-- All notes by their tags. -/
def byTag : BoundQuery :=
  { BoundQuery.notes with
    orderBy := [⟨⟨"tag", "Tag", .scalar .string, false, none⟩, .ascending⟩] }

/-- The rank of a note. -/
def rank : FieldRef :=
  ⟨"rank", "Rank", .scalar .int, false, none⟩

/-- The least rank of the notes by their tags is found without looking at the tags. -/
theorem fetch_extremum_byTag :
    ∃ base,
      (((byTag.extremumBase rank).fetch .standard).run
        (.ofStore (Store.notes true))).1 = .ok (.documents base) ∧
      (((byTag.extremum rank .ascending false).fetch
        .standard).run (.ofStore (Store.notes true))).1 =
          (Reduction.fold .min (some "rank") false base).map .value ∧
      Reduction.Ties (Reduction.fold .min (some "rank") false base) (.ok (.int 1)) := by
  have hfetch : ((byTag.fetch .standard).run (.ofStore (Store.notes true))).1 =
      .ok (.documents ((Store.notes true).documents "notes")) := by
    rw [fetch_of_query rfl rfl rfl (.inl rfl) (by decide), Store.answer_of_sorted (by decide)]
    rfl
  have hnulls : byTag.selection.NullsApart rank .ascending ((Store.notes true).documents "notes") :=
    Selection.nullsApart_of_forall (by decide)
  obtain ⟨base, hbase, hextremum, hties⟩ :=
    fetch_extremum (Store.notes_wellFormed true) (by decide) rfl hnulls hfetch
  exact ⟨base, hbase, hextremum, hties (by decide)⟩

/-- Two notes, one of which has no tag. -/
def untagged : Store :=
  (Store.empty true).insertAll "notes"
    [("a", .obj [("rank", .int 1)]), ("b", .obj [("rank", .int 2), ("tag", .str "y")])]

/-- A note without a tag has the least rank of all, but is not among the notes by their tags. -/
theorem extremum_of_missing_order :
    (Pipeline.compile Model.notes
      ⟨"Note",
        [.orderBy ⟨"n", .member (.param "n") "Tag"⟩ false, .min ⟨"n", .member (.param "n") "Rank"⟩]⟩
      >>= Template.bind Model.notes []) = .ok (byTag.extremum rank .ascending false) ∧
    ((byTag.fetch .standard).run (.ofStore untagged)).1 =
      .ok (.documents [⟨"notes/b", .obj [("rank", .int 2), ("tag", .str "y")]⟩]) ∧
    Reduction.fold .min (some "rank") false
      [⟨"notes/b", .obj [("rank", .int 2), ("tag", .str "y")]⟩] = .ok (.int 2) ∧
    (((byTag.extremum rank .ascending false).fetch .standard).run (.ofStore untagged)).1 =
      .ok (.value (.int 1)) := by
  refine ⟨rfl, ?_, rfl, ?_⟩
  · rw [fetch_of_query rfl rfl rfl (.inl rfl) (by decide), Store.answer_of_sorted (by decide)]
    rfl
  · have hanswer : (Source.query (Source.queryFor "notes"
        (byTag.selection.extremum rank .ascending) none)).answer untagged [⟨"rank", .ascending⟩] =
          .ok [⟨"notes/a", .obj [("rank", .int 1)]⟩] := by
      rw [Source.answer, Source.evaluate_queryFor (.inl rfl) (by decide),
        Store.answer_of_sorted (by decide)]
      rfl
    rw [(fetch_gives _ _).result]
    exact (outcome_extremum rfl rfl hanswer).trans rfl

end BoundQuery

end DocumentQuery
