import DocumentQuery.Proofs.Plan.Extremum

/-!
# Reductions by the store and after fetching

A count, a sum or an average is left to the store where the store sees the whole query, and is taken of the
fetched documents everywhere else. The store reduces what it sends, which is not what the window keeps:
it is told nothing about skipped documents and sends them too. For a count they are subtracted again
(`Window.length_sent_sub`), and for the other reductions there are none (`Window.sent_eq_apply`).

`BoundQuery.Reduces` lists what the reduction of a query may be, with what is known of the window in each case.
Later proofs go by cases on it and do not look at how a reduction is chosen. A kind of reduction that is added
to the program is one constructor more.

## Main definitions

* `Reduction.ofSent` — the result of a reduction of the documents the store sends
* `BoundQuery.Reduces` — the documents a query is reduced from, and how
-/

namespace DocumentQuery

/-! ## Windows without a tail -/

namespace Window

variable {w : Window} {ds : List Document}

/-- Of the documents that are sent, all but the skipped ones are kept. -/
theorem length_sent_sub (htail : w.limitToLast = none) (honly : w.lastOnly = false)
    (h : ds.length ≤ Number.maxCount) : (w.sent ds).length - w.skip = (w.apply ds).length := by
  unfold sent apply serverLimit
  rw [htail, honly]
  cases w.limit with
  | none => simp [applyTail, applyLimit]
  | some k =>
    simp only [applyTail, applyLimit, Option.map_some, saturate, List.length_take, List.length_drop,
      Bool.false_eq_true, if_false]
    omega

/-- A limit adds no document. -/
theorem length_applyLimit_le (limit : Option Nat) (documents : List Document) :
    (applyLimit limit documents).length ≤ documents.length := by
  cases limit with
  | none => exact Nat.le_refl _
  | some n => exact List.length_take_le' n documents

/-- Where nothing is skipped, no more is sent than is kept. -/
theorem applyLimit_serverLimit (hskip : w.skip = 0) (h : ds.length ≤ Number.maxCount) :
    applyLimit w.serverLimit ds = applyLimit w.limit ds := by
  unfold serverLimit
  rw [hskip]
  cases w.limit with
  | none => rfl
  | some k =>
    show ds.take (min (k + 0) Number.maxCount) = ds.take k
    rw [Nat.add_zero, Nat.min_comm, ← List.take_take, List.take_of_length_le]
    exact Nat.le_trans (List.length_take_le' k ds) h

/-- Where nothing is skipped and no tail is cut, what is sent is kept. -/
theorem sent_eq_apply (hskip : w.skip = 0) (htail : w.limitToLast = none)
    (honly : w.lastOnly = false ∨ ds.length ≤ 1) (h : ds.length ≤ Number.maxCount) :
    w.sent ds = w.apply ds := by
  have hsent : w.sent ds = applyLimit w.limit ds := by
    rw [sent, htail]
    exact applyLimit_serverLimit hskip h
  have hpage : w.apply ds =
      if w.lastOnly then Document.takeLast 1 (applyLimit w.limit ds) else applyLimit w.limit ds := by
    unfold apply
    rw [htail, hskip]
    rfl
  rw [hsent, hpage]
  rcases honly with honly | hone
  · rw [honly]
    rfl
  · rw [Document.takeLast_of_length_le (Nat.le_trans (length_applyLimit_le _ ds) hone), ite_self]

end Window

/-! ## Reductions by the store -/

namespace Reduction

/-- The result of a reduction of the documents the store sends. The store reduces all of them; what is fetched
is cut to the window before it is reduced. -/
def ofSent (window : Window) (sent : List Document) : Reduction → Except Failure Fetched
  | .native reduction =>
    (finish reduction window.skip (Store.reduce sent reduction)).map .value
  | r => r.ofDocuments (window.apply sent)

variable {w : Window} {sent : List Document} {path : String}

/-- Nulls are no numbers, so it makes no difference whether they are left out first. -/
theorem storeNumbers_eq (path : String) (ds : List Document) :
    Store.numbers path ds = numbers (some path) ds := by
  have hnull : (fun v : Json => if (!v.isNull) = true then v.toNumber? else none) = Json.toNumber? := by
    funext v
    cases v <;> rfl
  simp only [Store.numbers, numbers, values, List.filterMap_filter, List.filterMap_filterMap, hnull]

/-- The store counts what it sends; less the skipped documents this is the count of the kept ones. -/
theorem ofSent_count :
    (native .count).ofSent w sent = .ok (.value (.count (sent.length - w.skip))) :=
  rfl

/-- A sum by the store is the sum after fetching, unless it is too large for a double. -/
theorem ofSent_sum (h : (Number.sum (numbers (some path) sent)).isNull = false) :
    (native (.sum path)).ofSent w sent = (native (.sum path)).toClient.ofDocuments sent := by
  have hsum : Store.reduce sent (.sum path) = Number.sum (numbers (some path) sent) :=
    congrArg Number.sum (storeNumbers_eq path sent)
  rw [ofSent, hsum]
  simp only [finish, h, Bool.false_eq_true, if_false]
  rfl

/-- An average by the store is the average after fetching, unless the sum is too large for a double. -/
theorem ofSent_average
    (h : ∀ v ∈ Number.average? (numbers (some path) sent), v.isNull = false) :
    (native (.average path)).ofSent w sent =
      (native (.average path)).toClient.ofDocuments sent := by
  have haverage : Store.reduce sent (.average path) =
      (Number.average? (numbers (some path) sent)).getD .null :=
    congrArg (fun ns => (Number.average? ns).getD .null) (storeNumbers_eq path sent)
  show (finish _ _ (Store.reduce sent (.average path))).map Fetched.value =
    (fold .average (some path) false sent).map Fetched.value
  rw [haverage]
  cases hv : Number.average? (numbers (some path) sent) with
  | none => simp only [finish, fold, hv]; rfl
  | some v => simp only [finish, fold, hv, Option.getD_some, h v hv]; rfl

end Reduction

/-! ## Outcomes of plans -/

namespace ExecutionPlan

variable {s : Store} {plan : ExecutionPlan}

/-- The result of a query of the store is its reduction of what the store sends. -/
theorem outcome_query {q : StoreQuery} {orderBy : List StoreOrder} {window : Window}
    {reduction : Reduction} {sent : List Document} (h : s.evaluate q = .ok sent) :
    outcome s ⟨.query q, orderBy, window, reduction⟩ = reduction.ofSent window sent := by
  cases reduction with
  | documents => simp only [outcome, collected, Source.answer, h]; rfl
  | client kind path nullable => simp only [outcome, collected, Source.answer, h]; rfl
  | native r =>
    simp only [outcome, h]
    show (Reduction.finish r window.skip (Store.reduce sent r) >>= fun v => .ok (Fetched.value v)) =
      (Reduction.finish r window.skip (Store.reduce sent r)).map Fetched.value
    cases Reduction.finish r window.skip (Store.reduce sent r) <;> rfl

/-- The documents of other calls are reduced after fetching, when they are cut to the window. -/
theorem outcome_client {source : Source} {orderBy : List StoreOrder} {window : Window}
    {reduction : Reduction} {documents : List Document}
    (h : source.answer s orderBy = .ok documents) :
    outcome s ⟨source, orderBy, window, reduction.toClient⟩ =
      reduction.toClient.ofDocuments (window.apply documents) := by
  have hcollected : ∀ r : Reduction,
      collected s ⟨source, orderBy, window, r⟩ = r.ofDocuments (window.apply documents) := by
    intro r
    simp only [collected, h]
    rfl
  cases reduction with
  | documents => exact hcollected _
  | client kind path nullable => exact hcollected _
  | native r => cases r <;> exact hcollected _

end ExecutionPlan

/-! ## Reductions of queries -/

namespace BoundQuery

/-- The documents a query is reduced from, and how they are reduced: they are the result themselves, or they
are reduced after fetching, perhaps fewer of them, or the store counts or adds them up, or they are the one
document with an extremum. -/
inductive Reduces (q : BoundQuery) : Selection → Reduction → Prop
  /-- The documents themselves are the result. -/
  | documents : Reduces q q.selection .documents
  /-- They are reduced after fetching, perhaps from a narrower window. -/
  | client (window : Window) (kind : AggregateKind) (path : Option String) (nullable : Bool) :
    Reduces q { q.selection with window := window } (.client kind path nullable)
  /-- The store counts them, where there is no tail. -/
  | count (htail : q.selection.window.limitToLast = none)
    (honly : q.selection.window.lastOnly = false) : Reduces q q.selection (.native .count)
  /-- The store adds them up, where nothing is skipped and there is no tail. -/
  | total (aggregation : Aggregation) (field : FieldRef) (reduction : StoreReduction)
    (hq : q.aggregation = some aggregation) (hfield : aggregation.field = some field)
    (hreduction : reduction = .sum field.path ∨ reduction = .average field.path)
    (hskip : q.selection.window.skip = 0) (htail : q.selection.window.limitToLast = none) :
    Reduces q q.selection (.native reduction)
  /-- One document is fetched, which has the extremum. -/
  | extremum (field : FieldRef) (direction : Direction) (nullable : Bool)
    (h : q.selection.findsExtremum field = true) :
    Reduces q (q.selection.extremum field direction)
      (.client (Reduction.kindOf direction) (some field.path) nullable)

variable {q : BoundQuery} {sel : Selection} {reduction : Reduction}

/-- An extremum is found by a query for one document, or taken of the documents of the query. -/
theorem Reduces.of_extremum (q : BoundQuery) (field : FieldRef) (direction : Direction) (nullable : Bool) :
    q.Reduces (q.selection.extremum field direction)
      (.client (Reduction.kindOf direction) (some field.path) nullable) := by
  cases hfinds : q.selection.findsExtremum field with
  | true => exact .extremum field direction nullable hfinds
  | false =>
    rw [Selection.extremum_of_not_findsExtremum hfinds]
    exact .client _ _ _ _

/-- A sum or an average is taken by the store or of the fetched documents, from the selection itself. -/
theorem Reduces.of_summation {a : Aggregation} {field : FieldRef} {native : StoreReduction}
    (hq : q.aggregation = some a) (hfield : a.field = some field)
    (hnative : native = .sum field.path ∨ native = .average field.path)
    (h : a.summation q.selection native = .ok (sel, reduction)) : q.Reduces sel reduction := by
  unfold Aggregation.summation at h
  split at h
  · cases h
  next hskip =>
    split at h
    · cases h
      exact .client _ _ _ _
    next htail =>
      cases h
      exact .total a field native hq hfield hnative (Nat.eq_zero_of_not_pos hskip)
        (Option.not_isSome_iff_eq_none.mp htail)

/-- These are all reductions of a query. -/
theorem reduces_of_reduction (h : q.reduction = .ok (sel, reduction)) : q.Reduces sel reduction := by
  unfold BoundQuery.reduction at h
  cases hq : q.aggregation with
  | none =>
    rw [hq] at h
    cases h
    exact .documents
  | some a =>
    rw [hq] at h
    simp only [Aggregation.prepare] at h
    split at h
    · split at h
      · cases h
        exact .client _ _ _ _
      next hnone =>
        cases h
        obtain ⟨htail, honly⟩ := Bool.or_eq_false_iff.mp (Bool.eq_false_iff.mpr hnone)
        exact .count (Option.not_isSome_iff_eq_none.mp (by rw [htail]; exact Bool.false_ne_true)) honly
    · cases h
      exact .client _ _ _ _
    · cases h
    next field hfield => exact .of_summation hq hfield (.inl rfl) h
    next field hfield => exact .of_summation hq hfield (.inr rfl) h
    next field hkind hfield =>
      cases h
      rw [Aggregation.client, hkind, hfield]
      exact .of_extremum q field .ascending a.nullable
    next field hkind hfield =>
      cases h
      rw [Aggregation.client, hkind, hfield]
      exact .of_extremum q field .descending a.nullable

end BoundQuery

end DocumentQuery
