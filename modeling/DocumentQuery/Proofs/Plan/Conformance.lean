import DocumentQuery.Proofs.Bound.Limits
import DocumentQuery.Proofs.Plan.Extremum

/-!
# Queries that keep to the rules of the store

The rules are checked on a bound query, but what is sent is made of it later: the window is narrowed to
the elements asked for, a minimum or maximum replaces the ordering and may add an inequality, and
conditions are folded into one filter or expanded into several. `StoreQuery.Conforms` says what the rules
are for a query that is sent, without the check, and `Selection.Conforms` what of them can be said of a
selection. The check establishes the second, every rewriting keeps it, and it gives the first
(`BoundQuery.plan_conforms`).

The rules are those that a store rejects a query for, and a few that it does not check. A query that is sent
may have comparisons that the bound query does not have, so the rules are not simply inherited: the inequality
that keeps nulls out of an ascending scan is added only where no inequality is on another field, and it is
then on the field that leads the new ordering.

## Main definitions

* `StoreQuery.Conforms` — a query that the store has no reason to refuse
* `Selection.Conforms` — a selection whose queries conform
* `Loading.Below` — the loadings of a list and everything loaded below them
* `Loading.Sound` — a loading within the limits of the store
-/

namespace DocumentQuery

/-! ## Rules -/

namespace StoreFilter

mutual

/-- The comparisons of a filter from left to right: path, operator and value. -/
def comparisons : StoreFilter → List (String × FilterOp × Json)
  | .compare path operator value => [(path, operator, value)]
  | .and members => comparisonsOf members
  | .or members => comparisonsOf members

/-- The comparisons of filters from left to right. -/
def comparisonsOf : List StoreFilter → List (String × FilterOp × Json)
  | [] => []
  | f :: fs => comparisons f ++ comparisonsOf fs

end

/-- The comparisons of filters are those of each of them. -/
theorem mem_comparisonsOf {fs : List StoreFilter} {c : String × FilterOp × Json} :
    c ∈ comparisonsOf fs ↔ ∃ f ∈ fs, c ∈ f.comparisons := by
  induction fs with
  | nil => simp [comparisonsOf]
  | cons f fs ih => simp [comparisonsOf, ih]

end StoreFilter

namespace StoreQuery

/-- The comparisons of a query. -/
def comparisons (q : StoreQuery) : List (String × FilterOp × Json) :=
  (q.filter.map StoreFilter.comparisons).getD []

/-- A query that keeps to the rules of a store. -/
structure Conforms (limits : QueryLimits) (nativeOr : Bool) (q : StoreQuery) : Prop where
  /-- Lists of candidates are within their limit. -/
  candidates : ∀ path operator items, (path, operator, .arr items) ∈ q.comparisons →
    operator = .isIn ∨ operator = .arrayContainsAny → items.length ≤ limits.maxIn
  /-- So are lists of excluded values. -/
  excluded : ∀ path items, (path, .notIn, .arr items) ∈ q.comparisons →
    items.length ≤ limits.maxNotIn
  /-- All inequalities are on one field. -/
  oneField : ∀ path operator value path' operator' value',
    (path, operator, value) ∈ q.comparisons → operator.isInequality = true →
    (path', operator', value') ∈ q.comparisons → operator'.isInequality = true → path = path'
  /-- The field of the inequalities leads the ordering, if there is one. -/
  leading : ∀ path operator value, (path, operator, value) ∈ q.comparisons →
    operator.isInequality = true → ∀ o ∈ q.orderBy.head?, o.path = path
  /-- Only an ordered query is cut to its last documents. -/
  ordered : q.limitToLast.isSome = true → q.orderBy ≠ []
  /-- A store that does not know disjunctions is not sent any. -/
  disjunction : nativeOr = false → ∀ f ∈ q.filter, f.hasOr = false

/-- No store rejects a query that keeps to its rules. -/
theorem Conforms.rejection?_eq_none {limits : QueryLimits} {s : Store} {q : StoreQuery}
    (h : q.Conforms limits s.nativeOr) : s.rejection? q = none := by
  have hor : (!s.nativeOr && q.filter.any StoreFilter.hasOr) = false := by
    cases hnative : s.nativeOr with
    | true => rfl
    | false =>
      cases hfilter : q.filter with
      | none => rfl
      | some f => exact h.disjunction hnative f hfilter
  have htail : (q.limitToLast.isSome && q.orderBy.isEmpty) = false := by
    cases hlast : q.limitToLast.isSome with
    | false => rfl
    | true => exact List.isEmpty_eq_false_iff.mpr (h.ordered hlast)
  simp [Store.rejection?, hor, htail]

end StoreQuery

/-! ## Selections -/

namespace Selection

/-- A selection whose queries keep to the rules: its comparisons keep to the limits, their inequalities are
on one field that leads the ordering, and its last documents are those of an ordering. -/
structure Conforms (limits : QueryLimits) (s : Selection) : Prop where
  candidates : ∀ c ∈ Condition.comparisonsOf s.conditions, limits.checkCandidates c = .ok ()
  inequality : ∀ c ∈ Condition.comparisonsOf s.conditions, c.operator.isInequality = true →
    s.inequality? = some c.field.path
  leading : ∀ path ∈ s.inequality?, ∀ o ∈ s.orderBy.head?, o.path = path
  ordered : s.window.limitToLast.isSome = true → s.orderBy ≠ []

variable {limits : QueryLimits} {s : Selection}

/-- What a check accepts makes selections that keep to the rules. -/
theorem conforms_of_checkConditions {conditions : List Condition} {orderBy : List SortKey}
    {window : Window} (h : limits.checkConditions conditions orderBy = .ok ())
    (hordered : window.limitToLast.isSome = true → orderBy ≠ []) :
    Conforms limits ⟨conditions, orderBy.map StoreOrder.ofKey, window⟩ := by
  obtain ⟨hcandidates, hinequality⟩ := QueryLimits.checkConditions_eq_ok.mp h
  refine ⟨hcandidates, fun c hc hop => (hinequality c hc hop).1, fun path hpath o ho => ?_,
    fun hlast => by simpa using hordered hlast⟩
  obtain ⟨c, hc, rfl⟩ := Option.map_eq_some_iff.mp hpath
  rw [List.head?_map] at ho
  obtain ⟨key, hkey, rfl⟩ := Option.map_eq_some_iff.mp ho
  exact (hinequality c (List.mem_of_find?_eq_some hc) (by simpa using List.find?_some hc)).2 key hkey

/-- A window that is cut further keeps to the rules. -/
theorem Conforms.withWindow {window : Window} (h : s.Conforms limits)
    (hlast : window.limitToLast.isSome = true → s.window.limitToLast.isSome = true) :
    Conforms limits { s with window := window } :=
  ⟨h.candidates, h.inequality, h.leading, fun hw => h.ordered (hlast hw)⟩

/-- The condition that is added for an extremum is the only inequality, if it is added. It is not added where
there is an inequality already. -/
theorem inequality?_nullGuard (field : FieldRef) :
    inequality? { s with conditions := s.conditions ++ s.nullGuard field } = s.inequality? ∧
        s.nullGuard field = [] ∨
      inequality? { s with conditions := s.conditions ++ s.nullGuard field } = some field.path ∧
        s.inequality? = none ∧ s.nullGuard field = [notNull field] := by
  unfold nullGuard
  split
  next hguard =>
    have hnone : s.inequality? = none := by simpa using (Bool.and_eq_true_iff.mp hguard).2
    have hfind : (Condition.comparisonsOf s.conditions).find? (·.operator.isInequality) = none := by
      simpa [inequality?] using hnone
    refine Or.inr ⟨?_, hnone, rfl⟩
    simp only [inequality?, Condition.comparisonsOf_append, List.find?_append, hfind, Option.none_or]
    rfl
  next => exact Or.inl ⟨by rw [List.append_nil], rfl⟩

/-- The query for one document with an extremum keeps to the rules. -/
theorem Conforms.extremum (h : s.Conforms limits) (field : FieldRef) (direction : Direction) :
    Conforms limits (s.extremum field direction) := by
  cases hfinds : s.findsExtremum field with
  | false => rwa [extremum_of_not_findsExtremum hfinds]
  | true =>
    have hfield : ∀ path ∈ s.inequality?, path = field.path := by
      intro path hpath
      have hall := (Bool.and_eq_true_iff.mp hfinds).2
      rw [hpath] at hall
      exact beq_iff_eq.mp hall
    rw [extremum_of_findsExtremum hfinds]
    rcases s.inequality?_nullGuard field with ⟨hsame, hguard⟩ | ⟨hnew, hnone, hguard⟩
    -- no guard against nulls is added, and only the ordering is new
    · rw [hguard, List.append_nil]
      refine ⟨h.candidates, h.inequality, fun path hpath o ho => ?_, fun _ => by simp⟩
      obtain rfl := Option.some.inj ho
      exact (hfield path hpath).symm
    -- the guard against nulls is itself an inequality, and it is the only one
    · have hmem : ∀ c ∈ Condition.comparisonsOf (s.conditions ++ s.nullGuard field),
          c ∈ Condition.comparisonsOf s.conditions ∨ c = ⟨field, .notEqualTo, .null⟩ := by
        intro c hc
        rw [hguard, Condition.comparisonsOf_append] at hc
        exact (List.mem_append.mp hc).imp_right List.mem_singleton.mp
      refine ⟨fun c hc => ?_, fun c hc hop => ?_, fun path hpath o ho => ?_, fun _ => by simp⟩
      · rcases hmem c hc with hc | rfl
        · exact h.candidates c hc
        · rfl
      · rcases hmem c hc with hc | rfl
        · exact nomatch hnone.symm.trans (h.inequality c hc hop)
        · exact hnew
      · obtain rfl := Option.some.inj ho
        exact Option.some.inj (hnew.symm.trans hpath)

/-- A sum or an average is taken from the selection itself. -/
theorem eq_of_summation {a : Aggregation} {native : StoreReduction} {s' : Selection} {r : Reduction}
    (h : a.summation s native = .ok (s', r)) : s' = s := by
  unfold Aggregation.summation at h
  split at h
  · cases h
  · split at h <;> cases h <;> rfl

/-- An aggregation is taken from documents whose selection keeps to the rules. -/
theorem Conforms.prepare (h : s.Conforms limits) {a : Aggregation} {s' : Selection} {r : Reduction}
    (hprepare : a.prepare s = .ok (s', r)) : s'.Conforms limits := by
  unfold Aggregation.prepare at hprepare
  split at hprepare
  · split at hprepare <;> cases hprepare <;> exact h
  · cases hprepare
    exact h.withWindow id
  · cases hprepare
  · exact eq_of_summation hprepare ▸ h
  · exact eq_of_summation hprepare ▸ h
  · cases hprepare
    exact h.extremum _ _
  · cases hprepare
    exact h.extremum _ _

end Selection

/-! ## Sources -/

namespace Condition

mutual

theorem comparisons_toFilter (c : Condition) :
    c.toFilter.comparisons = c.comparisons.map fun b => (b.field.path, b.operator, b.value) := by
  cases c with
  | compare c => rfl
  | or members => exact comparisonsOf_toFilters members
  | and members => exact comparisonsOf_toFilters members

/-- A filter compares what its conditions do. -/
theorem comparisonsOf_toFilters (cs : List Condition) :
    StoreFilter.comparisonsOf (toFilters cs) =
      (comparisonsOf cs).map fun b => (b.field.path, b.operator, b.value) := by
  cases cs with
  | nil => rfl
  | cons c cs =>
    simp only [toFilters, StoreFilter.comparisonsOf, comparisonsOf, List.map_append,
      comparisons_toFilter c, comparisonsOf_toFilters cs]

end

/-- The comparisons of a conjunction are those of its members. -/
theorem mem_comparisons_conjunction {fs : List StoreFilter} {c : String × FilterOp × Json} :
    c ∈ ((conjunction fs).map StoreFilter.comparisons).getD [] ↔ ∃ f ∈ fs, c ∈ f.comparisons := by
  match fs with
  | [] => simp [conjunction]
  | [f] => simp [conjunction]
  | f :: g :: fs => exact StoreFilter.mem_comparisonsOf

end Condition

namespace Source

/-- The queries of a source. A lookup is no query, and the rules are not about it. -/
def queries : Source → List StoreQuery
  | .lookup _ _ => []
  | .query q => [q]
  | .disjunction queries => queries

variable {limits : QueryLimits} {s : Selection} {collection : String}

/-- A query for comparisons of a selection that keeps to the rules keeps to them, if its disjunctions are
known to the store. -/
theorem conforms_queryFor {nativeOr : Bool} {filter : Option StoreFilter} (h : s.Conforms limits)
    (hcomparisons : ∀ c ∈ (filter.map StoreFilter.comparisons).getD [],
      ∃ b ∈ Condition.comparisonsOf s.conditions, c = (b.field.path, b.operator, b.value))
    (hor : nativeOr = false → ∀ f ∈ filter, f.hasOr = false) :
    (queryFor collection s filter).Conforms limits nativeOr := by
  have hcandidates {path : String} {operator : FilterOp} {items : List Json} {limit : Nat}
      (hc : (path, operator, .arr items) ∈ (queryFor collection s filter).comparisons)
      (hlimit : limits.maxCandidates? operator = some limit) : items.length ≤ limit := by
    obtain ⟨b, hb, heq⟩ := hcomparisons _ hc
    simp only [Prod.mk.injEq] at heq
    exact QueryLimits.checkCandidates_eq_ok.mp (h.candidates b hb) limit items
      (heq.2.1 ▸ hlimit) heq.2.2.symm
  have hinequality {path : String} {operator : FilterOp} {value : Json}
      (hc : (path, operator, value) ∈ (queryFor collection s filter).comparisons)
      (hop : operator.isInequality = true) : s.inequality? = some path := by
    obtain ⟨b, hb, heq⟩ := hcomparisons _ hc
    simp only [Prod.mk.injEq] at heq
    rw [heq.1]
    exact h.inequality b hb (heq.2.1 ▸ hop)
  refine ⟨?_, fun path items hc => hcandidates hc rfl, ?_, ?_, h.ordered, hor⟩
  · rintro path operator items hc (rfl | rfl)
    · exact hcandidates hc rfl
    · exact hcandidates hc rfl
  · intro path operator value path' operator' value' hc hop hc' hop'
    exact Option.some.inj ((hinequality hc hop).symm.trans (hinequality hc' hop'))
  · intro path operator value hc hop o ho
    exact h.leading path (hinequality hc hop) o ho

/-- The queries for a selection that keeps to the rules keep to them. -/
theorem conforms_ofSelection {nativeOr : Bool} {source : Source} (h : s.Conforms limits)
    (hsource : ofSelection limits nativeOr collection s = .ok source) :
    ∀ q ∈ source.queries, q.Conforms limits nativeOr := by
  obtain ⟨-, -, hsource⟩ := Except.bind_eq_ok.mp hsource
  split at hsource
  -- one query: the store knows disjunctions, or there are none
  next hquery =>
    cases hsource
    intro q hq
    obtain rfl := List.mem_singleton.mp hq
    refine conforms_queryFor h (fun c hc => ?_) fun hnative f hf => ?_
    · obtain ⟨f, hf, hc⟩ := Condition.mem_comparisons_conjunction.mp hc
      have hall := StoreFilter.mem_comparisonsOf.mpr ⟨f, hf, hc⟩
      rw [Condition.comparisonsOf_toFilters] at hall
      obtain ⟨b, hb, rfl⟩ := List.mem_map.mp hall
      exact ⟨b, hb, rfl⟩
    · have hnone : Condition.anyHasOr s.conditions = false := by simpa [hnative] using hquery
      rw [← Condition.foldAll_hasOr, hf] at hnone
      exact hnone
  -- one query for each conjunction, and a conjunction has no other comparisons than the conditions
  next =>
    cases hsource
    intro q hq
    obtain ⟨fs, hfs, rfl⟩ := List.mem_map.mp hq
    have hmembers := Condition.expandAll_forall s.conditions
      (P := fun f => ∃ b ∈ Condition.comparisonsOf s.conditions, f = b.toFilter)
      (fun b hb => ⟨b, hb, rfl⟩) fs hfs
    refine conforms_queryFor h (fun c hc => ?_) fun _ f hf => ?_
    · obtain ⟨f, hf, hc⟩ := Condition.mem_comparisons_conjunction.mp hc
      obtain ⟨b, hb, rfl⟩ := hmembers f hf
      exact ⟨b, hb, List.mem_singleton.mp hc⟩
    · have hnone := Condition.conjunction_hasOr (Condition.expandAll_compares _ fs hfs)
      rw [hf] at hnone
      exact hnone

end Source

/-! ## Loadings -/

namespace Loading

/-- The loadings of a list and everything that is loaded below them. -/
inductive Below (loadings : List Loading) : Loading → Prop
  | here {l : Loading} (h : l ∈ loadings) : Below loadings l
  | child {l c : Loading} (h : Below loadings l) (hc : c ∈ l.children) : Below loadings c

variable {limits : QueryLimits} {loadings : List Loading}

/-- What is loaded below loadings of a list is loaded below the list. -/
theorem Below.trans {others : List Loading} {l : Loading} (h : ∀ b ∈ others, Below loadings b)
    (hl : Below others l) : Below loadings l := by
  induction hl with
  | here hl => exact h _ hl
  | child _ hc ih => exact .child ih hc

/-- The check of several loadings is one of each. -/
theorem checkLoading_of_mem {l : Loading} (h : limits.checkLoadings loadings = .ok ())
    (hl : l ∈ loadings) : limits.checkLoading l = .ok () := by
  induction loadings with
  | nil => cases hl
  | cons b bs ih =>
    rw [QueryLimits.checkLoadings] at h
    obtain ⟨_, hb, hbs⟩ := Except.bind_eq_ok.mp h
    rcases List.mem_cons.mp hl with rfl | hl
    · exact hb
    · exact ih hbs hl

theorem checkSize_of_mem {limit : Nat} {l : Loading} (h : checkSizes limit loadings = .ok ())
    (hl : l ∈ loadings) : checkSize limit l = .ok () := by
  induction loadings with
  | nil => cases hl
  | cons b bs ih =>
    rw [checkSizes] at h
    obtain ⟨_, hb, hbs⟩ := Except.bind_eq_ok.mp h
    rcases List.mem_cons.mp hl with rfl | hl
    · exact hb
    · exact ih hbs hl

/-- The check of a loading is one of its conditions and one of what is loaded below it. -/
theorem checkLoading_eq_ok {l : Loading} (h : limits.checkLoading l = .ok ()) :
    limits.checkConditions l.conditions l.orderBy = .ok () ∧
      limits.checkLoadings l.children = .ok () := by
  obtain ⟨navigation, targetType, conditions, orderBy, limit, skip, children⟩ := l
  rw [QueryLimits.checkLoading] at h
  obtain ⟨_, hconditions, hchildren⟩ := Except.bind_eq_ok.mp h
  exact ⟨hconditions, hchildren⟩

/-- So is the check of its size. -/
theorem checkSize_eq_ok {limit : Nat} {l : Loading} (h : checkSize limit l = .ok ()) :
    Condition.checkSize limit l.conditions = .ok () ∧ checkSizes limit l.children = .ok () := by
  obtain ⟨navigation, targetType, conditions, orderBy, count, skip, children⟩ := l
  rw [checkSize] at h
  obtain ⟨_, hconditions, hchildren⟩ := Except.bind_eq_ok.mp h
  exact ⟨hconditions, hchildren⟩

/-- The check of navigations reaches everything that is loaded below them. -/
theorem Below.checkLoading {l : Loading} (hl : Below loadings l)
    (h : limits.checkLoadings loadings = .ok ()) : limits.checkLoading l = .ok () := by
  induction hl with
  | here hl => exact checkLoading_of_mem h hl
  | child _ hc ih => exact checkLoading_of_mem (checkLoading_eq_ok ih).2 hc

/-- The check of the sizes of navigations reaches everything that is loaded below them. -/
theorem Below.checkSize {limit : Nat} {l : Loading} (hl : Below loadings l)
    (h : checkSizes limit loadings = .ok ()) : l.checkSize limit = .ok () := by
  induction hl with
  | here hl => exact checkSize_of_mem h hl
  | child _ hc ih => exact checkSize_of_mem (checkSize_eq_ok ih).2 hc

/-- A loading whose conditions are within the limits of the store. -/
structure Sound (limits : QueryLimits) (l : Loading) : Prop where
  /-- The conditions keep to the limits, with the ordering of the loading. -/
  checked : limits.checkConditions l.conditions l.orderBy = .ok ()
  /-- Expanded, they are not too many queries. -/
  size : Condition.checkSize limits.maxDisjunctions l.conditions = .ok ()

end Loading

/-! ## Plans -/

namespace BoundQuery

variable {limits : QueryLimits} {nativeOr : Bool} {q : BoundQuery}

/-- A query that was checked is within the limits, with everything that is loaded. -/
theorem check_eq_ok (h : q.check limits = .ok ()) :
    limits.checkConditions q.access.conditions q.orderBy = .ok () ∧
      (q.limitToLast.isSome = true → q.orderBy ≠ []) ∧
      ∀ l, Loading.Below q.includes l → l.Sound limits := by
  obtain ⟨_, hcheck, hsizes⟩ := Except.bind_eq_ok.mp h
  obtain ⟨_, hconditions, hrest⟩ := Except.bind_eq_ok.mp hcheck
  dsimp only at hrest
  split at hrest
  · cases hrest
  next htail =>
    refine ⟨hconditions, fun hlast hnil => htail ?_, fun l hl => ?_⟩
    · simp [hlast, hnil]
    · exact ⟨(Loading.checkLoading_eq_ok (hl.checkLoading hrest)).1,
        (Loading.checkSize_eq_ok (hl.checkSize hsizes)).1⟩

/-- A query for the last element is ordered. A compiled query is, and without an ordering the last documents
of a collection could not be asked for. -/
def LastOrdered (q : BoundQuery) : Prop :=
  ∀ orDefault, q.cardinality = .last orDefault → q.orderBy ≠ []

/-- Narrowing a window cuts to the last documents only where the last one is asked for. -/
theorem limitToLast_narrow (w : Window) (c : Cardinality) (h : (w.narrow c).limitToLast.isSome = true) :
    w.limitToLast.isSome = true ∨ ∃ orDefault, c = .last orDefault := by
  cases c with
  | sequence => exact Or.inl h
  | first orDefault => exact Or.inl h
  | single orDefault => exact Or.inl h
  | last orDefault => exact Or.inr ⟨orDefault, rfl⟩

/-- The selection of a checked query keeps to the rules. -/
theorem conforms_selection (hcheck : q.check limits = .ok ()) (hlast : q.LastOrdered) :
    q.selection.Conforms limits := by
  obtain ⟨hconditions, htail, -⟩ := check_eq_ok hcheck
  refine Selection.conforms_of_checkConditions hconditions fun hsome => ?_
  rcases limitToLast_narrow _ _ hsome with hsome | ⟨orDefault, hcardinality⟩
  · exact htail hsome
  · exact hlast orDefault hcardinality

/-- What a query is reduced from keeps to the rules. -/
theorem conforms_reduction {sel : Selection} {reduction : Reduction} (hcheck : q.check limits = .ok ())
    (hlast : q.LastOrdered) (h : q.reduction = .ok (sel, reduction)) : sel.Conforms limits := by
  unfold BoundQuery.reduction at h
  split at h
  · cases h
    exact conforms_selection hcheck hlast
  · exact (conforms_selection hcheck hlast).prepare h

/-- The queries of a plan keep to the rules, whatever the plan is for: elements, counts, extrema, sums, or the
parts of a disjunction. That the query was checked is what making a plan begins with, so it is no hypothesis. -/
theorem plan_conforms {plan : ExecutionPlan} (hplan : q.plan limits nativeOr = .ok plan)
    (hlast : q.LastOrdered) : ∀ sq ∈ plan.source.queries, sq.Conforms limits nativeOr := by
  obtain ⟨hcheck, sel, reduction, source, hreduction, hsource, rfl⟩ := plan_eq_ok.mp hplan
  have hsel := conforms_reduction hcheck hlast hreduction
  unfold BoundQuery.source at hsource
  split at hsource
  · cases hsource
    exact fun sq hsq => (nomatch hsq)
  · exact Source.conforms_ofSelection hsel hsource

end BoundQuery

end DocumentQuery
