import DocumentQuery.Proofs.Compile.Paging
import DocumentQuery.Proofs.Plan.Lookup
import Mathlib.Data.List.Induction

/-!
# Pipelines one operator at a time

A pipeline is folded into one query. Here its operators are applied one at a time instead (`Rows.apply`):
a predicate keeps the documents that its own filter lets through, an ordering says in which order they
are paged, and a page is cut from the documents in that order. The documents the query fetches are the
rows that are left at the end (`Pipeline.fetch_rows`).

An ordering is remembered and not carried out at once, because a later one replaces it: `OrderBy` after
`OrderBy` neither keeps the first order among equals nor leaves out the documents without the first field.
A query that is a lookup fetches its document without any ordering.

The hypothesis that carries the result is that the first filter on the key is spelled like the lookup it
becomes (`Template.SpelledAlike`). An identity that is no last segment of a path makes the two differ
(`Pipeline.fetch_nestedNote_differs`). The window of the query has to be worked out from the end, because a
count may be added to by a later operator; so a run is taken apart from its end as well.

## Main definitions

* `Rows` — documents on their way through a pipeline
* `Rows.apply` — what one operator does to them
* `Progress.Folds` — a template that says of the documents of a collection what the rows are
-/

namespace DocumentQuery

variable {m : Model} {bindings : Bindings}

/-! ## Operators on documents -/

namespace Operator

/-- Whether an operator ends a pipeline in one value or element. -/
def ends : Operator → Bool
  | .count _ | .any _ | .sum _ | .average _ | .min _ | .max _ | .element _ _ _ => true
  | _ => false

/-- An operator with a reduction ends the pipeline. -/
theorem ends_of_reduction? {op : Operator} {reduction : AggregateKind × Option Lambda}
    (h : op.reduction? = some reduction) : op.ends = true := by
  cases op <;> first | rfl | exact nomatch h

/-- Whether an operator orders the documents. -/
def orders : Operator → Bool
  | .orderBy _ _ | .thenBy _ _ => true
  | _ => false

/-- The predicate of an operator that filters. -/
def predicate? : Operator → Option Lambda
  | .filter predicate => some predicate
  | _ => none

/-- An operator that loads navigations filters nothing. -/
theorem predicate?_of_loads {op : Operator} (h : op.loads = true) : op.predicate? = none := by
  cases op <;> first | rfl | exact nomatch h

/-- An operator that loads navigations does not order the documents. -/
theorem orders_of_loads {op : Operator} (h : op.loads = true) : op.orders = false := by
  cases op <;> first | rfl | exact nomatch h

/-- The predicates of operators are those of the first ones and that of the last one. -/
theorem predicates_append_singleton (operators : List Operator) (op : Operator) :
    (operators ++ [op]).filterMap predicate? =
      operators.filterMap predicate? ++ op.predicate?.toList := by
  rw [List.filterMap_append]
  cases h : op.predicate? with
  | none => rw [List.filterMap_cons_none h, List.filterMap_nil, Option.toList_none]
  | some predicate => rw [List.filterMap_cons_some h, List.filterMap_nil, Option.toList_some]

end Operator

/-- Documents on their way through a pipeline, with the order in which they will be paged. The documents need
not be in this order: it is carried out when a page is cut, and at the end. -/
structure Rows where
  /-- The documents that the operators so far have left. -/
  documents : List Document
  /-- The last ordering and the keys that refine it. -/
  orderBy : List StoreOrder

namespace Rows

/-- The rows in order, as paging sees them: a document that lacks an ordered field is dropped. -/
def arranged (r : Rows) : List Document :=
  Document.sort r.orderBy (r.documents.filter (·.hasOrderFields r.orderBy))

/-- The rows of which a filter with these conditions lets through the documents. -/
def restrict (r : Rows) (conditions : List Condition) : Rows :=
  { r with documents := r.documents.filter fun d => (Condition.foldAll conditions).all (·.accepts d) }

/-- A page that is cut from the rows. -/
def cut (r : Rows) (page : List Document → List Document) : Rows :=
  { r with documents := page r.arranged }

/-- Applies one operator to rows of a type. This is the meaning of the operators, said without templates: each
of them is translated and bound by itself and then applied to what the ones before have left. -/
def apply (m : Model) (bindings : Bindings) (typeName : String) (r : Rows) :
    Operator → Except QueryError Rows
  | .filter predicate => do
    let filters ← Filter.ofLambda m typeName predicate
    let conditions ← Filter.bindAll m bindings filters
    return r.restrict conditions
  | .orderBy key descending => do
    let key ← SortKey.ofLambda m typeName key descending
    return { r with orderBy := [StoreOrder.ofKey key] }
  | .thenBy key descending => do
    let key ← SortKey.ofLambda m typeName key descending
    return { r with orderBy := r.orderBy ++ [StoreOrder.ofKey key] }
  | .skip count => do
    let operand ← Operand.ofExpr count
    let n ← operand.bindCount bindings "skip"
    return r.cut (List.drop n)
  | .take count => do
    let operand ← Operand.ofExpr count
    let n ← operand.bindCount bindings "limit"
    return r.cut (List.take n)
  | .takeLast count => do
    let operand ← Operand.ofExpr count
    let n ← operand.bindCount bindings "limit_to_last"
    return r.cut (Document.takeLast n)
  | _ => .ok r

/-- Loading navigations leaves the rows. -/
theorem apply_of_loads {typeName : String} {r : Rows} {op : Operator} (h : op.loads = true) :
    r.apply m bindings typeName op = .ok r := by
  cases op <;> first | rfl | exact nomatch h

/-- Applies operators to rows of a type one after the other, with or without those that order. -/
def run (m : Model) (bindings : Bindings) (typeName : String) (ordering : Bool) (r : Rows)
    (operators : List Operator) : Except QueryError Rows :=
  (operators.filter fun op => ordering || !op.orders).foldlM (apply m bindings typeName) r

variable {typeName : String} {ordering : Bool} {operators : List Operator} {op : Operator}
  {r r' start : Rows}

/-- Applies an operator to rows, unless it orders them and the orderings are left out. -/
def advance (m : Model) (bindings : Bindings) (typeName : String) (ordering : Bool) (r : Rows)
    (op : Operator) : Except QueryError Rows :=
  if ordering || !op.orders then r.apply m bindings typeName op else .ok r

/-- An operator that does not order is applied, whether or not the orderings are left out. -/
theorem advance_of_not_orders (h : op.orders = false) (r : Rows) :
    r.advance m bindings typeName ordering op = r.apply m bindings typeName op := by
  rw [advance, h, Bool.not_false, Bool.or_true]
  rfl

/-- An ordering that is left out leaves the rows. -/
theorem advance_ordering (h : op.orders = true) (r : Rows) :
    r.advance m bindings typeName false op = .ok r := by
  rw [advance, h]
  rfl

/-- A run of operators goes on with the next one. -/
theorem run_append_singleton (h : run m bindings typeName ordering start operators = .ok r)
    (hop : r.advance m bindings typeName ordering op = .ok r') :
    run m bindings typeName ordering start (operators ++ [op]) = .ok r' := by
  rw [run, List.filter_append, List.foldlM_append]
  refine Except.bind_eq_ok.mpr ⟨r, h, ?_⟩
  rw [advance] at hop
  split at hop
  next hkept =>
    have hlast : [op].filter (fun op => ordering || !op.orders) = [op] := List.filter_cons_of_pos hkept
    rw [hlast]
    exact Except.bind_eq_ok.mpr ⟨r', hop, rfl⟩
  next hleft =>
    have hlast : [op].filter (fun op => ordering || !op.orders) = [] := List.filter_cons_of_neg hleft
    rw [hlast]
    exact hop

/-- Rows that are in order are only cut: sorting a page once more and asking once more for the ordered fields
change nothing. -/
theorem arranged_cut {page : List Document → List Document}
    (hpage : ∀ ds : List Document, (page ds).Sublist ds) : (r.cut page).arranged = page r.arranged := by
  have hsorted : Document.Sorted r.orderBy (page r.arranged) :=
    List.Pairwise.sublist (hpage _) (Document.sort_sorted _ _)
  have hfields : (page r.arranged).filter (·.hasOrderFields r.orderBy) = page r.arranged := by
    refine List.filter_eq_self.mpr fun d hd => ?_
    exact (List.mem_filter.mp (Document.mem_sort.mp ((hpage _).subset hd))).2
  show Document.sort r.orderBy ((page r.arranged).filter (·.hasOrderFields r.orderBy)) = _
  rw [hfields, Document.sort_of_sorted hsorted]

end Rows

/-! ## Filters of several predicates -/

namespace Filter

/-- The filters of predicates are those of the first ones and those of the last ones. -/
theorem ofLambdas_append {typeName : String} {ps qs : List Lambda} {fs : List Filter} :
    ofLambdas m typeName (ps ++ qs) = .ok fs ↔ ∃ before added,
      ofLambdas m typeName ps = .ok before ∧ ofLambdas m typeName qs = .ok added ∧
        fs = before ++ added := by
  induction ps generalizing fs with
  | nil =>
    constructor
    · exact fun h => ⟨[], fs, rfl, h, rfl⟩
    · rintro ⟨_, added, ⟨⟩, h, rfl⟩
      exact h
  | cons p ps ih =>
    simp only [List.cons_append, ofLambdas, Except.bind_eq_ok, ih, pure, Except.pure, Except.ok.injEq]
    constructor
    · rintro ⟨head, hhead, _, ⟨before, added, hbefore, hadded, rfl⟩, rfl⟩
      exact ⟨head ++ before, added, ⟨head, hhead, before, hbefore, rfl⟩, hadded,
        (List.append_assoc _ _ _).symm⟩
    · rintro ⟨_, added, ⟨head, hhead, before, hbefore, rfl⟩, hadded, rfl⟩
      exact ⟨head, hhead, _, ⟨before, added, hbefore, hadded, rfl⟩, (List.append_assoc _ _ _).symm⟩

end Filter

/-! ## Filters of a run -/

namespace Progress

variable {p p' start : Progress} {operators : List Operator}

/-- A run keeps the entity type and its key. -/
theorem root_of_run (h : operators.foldlM (step m) start = .ok p) :
    p.template.entityType = start.template.entityType ∧
      p.template.keyProperty = start.template.keyProperty :=
  run_of_step (P := fun p => p.template.entityType = start.template.entityType ∧
      p.template.keyProperty = start.template.keyProperty)
    (fun _ _ _ _ hstep hp => ⟨hstep.root.1.trans hp.1, hstep.root.2.trans hp.2⟩) h ⟨rfl, rfl⟩

/-- An operator with a predicate restricts the rows. -/
theorem Step.of_predicate {op : Operator} {predicate : Lambda} (h : Step m p op p')
    (hpredicate : op.predicate? = some predicate) :
    ∃ filters, Filter.ofLambda m p.template.entityType predicate = .ok filters ∧
      p' = p.restrict filters := by
  obtain rfl : op = .filter predicate := by
    cases op with
    | filter predicate' => exact congrArg Operator.filter (Option.some.inj hpredicate)
    | _ => exact nomatch hpredicate
  cases h with
  | filter _ htranslated => exact ⟨_, htranslated, rfl⟩
  | loads hloads _ => exact nomatch hloads
  | reduce hreduces _ _ => exact nomatch hreduces

/-- An operator that does not end the pipeline and is no filter leaves the filters. -/
theorem Step.target {op : Operator} (h : Step m p op p') (hends : op.ends = false)
    (hfilter : op.predicate? = none) :
    p'.template.target = p.template.target ∧ p'.template.filters = p.template.filters := by
  cases h with
  | filter _ _ => cases hfilter
  | skip _ _ h =>
    obtain ⟨_, _, rfl⟩ := skip_eq h
    exact ⟨rfl, rfl⟩
  | take _ _ h =>
    obtain ⟨_, rfl⟩ := take_eq h
    exact ⟨rfl, rfl⟩
  | reduce hreduces _ _ => exact nomatch hends.symm.trans (Operator.ends_of_reduction? hreduces)
  | pick _ _ => cases hends
  | _ => exact ⟨rfl, rfl⟩

/-- A run keeps the filters of its predicates, the first of them written with the key. -/
theorem explicitFilters_of_run (h : operators.foldlM (step m) start = .ok p)
    (hends : ∀ op ∈ operators, op.ends = false) (hstart : start.template.explicitFilters = [])
    (halone : start.template.LookupAlone) :
    ∃ fs, Filter.ofLambdas m start.template.entityType (operators.filterMap Operator.predicate?) = .ok fs ∧
      p.template.explicitFilters = Template.spelled start.template.keyProperty fs ∧
      p.template.LookupAlone := by
  induction operators using List.reverseRecOn generalizing p with
  | nil =>
    cases h
    exact ⟨[], rfl, hstart, halone⟩
  | append_singleton operators op ih =>
    obtain ⟨before, hrun, hstep⟩ := run_append_singleton h
    obtain ⟨fs, hfs, hexplicit, halone⟩ := ih hrun fun op hop => hends op (List.mem_append_left _ hop)
    obtain ⟨htype, hkey⟩ := root_of_run hrun
    rw [Operator.predicates_append_singleton]
    cases hpredicate : op.predicate? with
    | none =>
      obtain ⟨htarget, hfilters⟩ :=
        hstep.target (hends op (List.mem_append_right _ (List.mem_singleton_self op))) hpredicate
      have hkey' := hstep.root.2
      rw [Option.toList_none, List.append_nil]
      refine ⟨fs, hfs, ?_, ?_⟩
      · rw [← hexplicit, Template.explicitFilters, Template.explicitFilters, htarget, hfilters, hkey']
      · unfold Template.LookupAlone Template.isLookup at halone ⊢
        rwa [htarget, hfilters]
    | some predicate =>
      obtain ⟨added, htranslated, rfl⟩ := hstep.of_predicate hpredicate
      rw [htype] at htranslated
      refine ⟨fs ++ added, Filter.ofLambdas_append.mpr
        ⟨fs, added, hfs, Filter.ofLambdas_singleton.mpr htranslated, rfl⟩, ?_⟩
      -- the first predicate of a run may name the key, and then it is the target that keeps it
      rcases fs with _ | ⟨f, fs⟩
      · rw [← hkey]
        exact Template.foldl_addFilter_of_nil added hexplicit halone
      · have hne : before.template.explicitFilters ≠ [] := by
          rw [hexplicit]
          cases f <;> exact List.cons_ne_nil _ _
        obtain ⟨hadded, halone⟩ := Template.foldl_addFilter_of_ne_nil added hne halone
        refine ⟨hadded.trans ?_, halone⟩
        rw [hexplicit]
        cases f <;> rfl

/-- An operator that does not end the pipeline leaves it without a reduction and without an element. -/
theorem Step.plain {op : Operator} (h : Step m p op p') (hends : op.ends = false) :
    p'.template.aggregation = p.template.aggregation ∧
      p'.template.cardinality = p.template.cardinality := by
  cases h with
  | filter _ _ =>
    obtain ⟨_, _, heq⟩ := p.restrict_eq _
    rw [heq]
    exact ⟨rfl, rfl⟩
  | skip _ _ h =>
    obtain ⟨_, _, rfl⟩ := skip_eq h
    exact ⟨rfl, rfl⟩
  | take _ _ h =>
    obtain ⟨_, rfl⟩ := take_eq h
    exact ⟨rfl, rfl⟩
  | reduce hreduces _ _ => exact nomatch hends.symm.trans (Operator.ends_of_reduction? hreduces)
  | pick _ _ => cases hends
  | _ => exact ⟨rfl, rfl⟩

/-- A run of operators that do not end a pipeline leaves it without a reduction and without an element. -/
theorem plain_of_run (h : operators.foldlM (step m) start = .ok p)
    (hends : ∀ op ∈ operators, op.ends = false) :
    p.template.aggregation = start.template.aggregation ∧
      p.template.cardinality = start.template.cardinality := by
  induction operators using List.reverseRecOn generalizing p with
  | nil =>
    cases h
    exact ⟨rfl, rfl⟩
  | append_singleton operators op ih =>
    obtain ⟨before, hrun, hstep⟩ := run_append_singleton h
    obtain ⟨hagg, hcard⟩ := hstep.plain (hends op (List.mem_append_right _ (List.mem_singleton_self op)))
    obtain ⟨hagg', hcard'⟩ := ih hrun fun op hop => hends op (List.mem_append_left _ hop)
    exact ⟨hagg.trans hagg', hcard.trans hcard'⟩

/-! ## Paging of a run -/

/-- A run has not paged as long as it filters and orders. -/
theorem unpaged_of_run (h : operators.foldlM (step m) start = .ok p) (hstart : start.Unpaged)
    (hstage : p.stage.within .ordered = true) : p.Unpaged :=
  run_of_step (P := fun p => p.stage.within .ordered = true → p.Unpaged)
    (fun _ _ _ _ hstep hp => hstep.unpaged hp) h (fun _ => hstart) hstage

/-! ## Rows of a run -/

/-- A template under construction says of documents what the rows are: before any paging the rows are the
documents of which the filters hold, and in order they are what the window keeps of these. The orderings
may be left out. -/
structure Folds (m : Model) (bindings : Bindings) (documents : List Document) (ordering : Bool)
    (fs : List Filter) (w : Window) (p : Progress) (r : Rows) : Prop where
  /-- The rows will be paged in the order of the template, unless the orderings are left out. -/
  orderBy : r.orderBy = if ordering then p.template.orderBy.map StoreOrder.ofKey else []
  /-- Before any paging the rows are exactly the documents that the filters accept. -/
  filtered : p.stage.within .ordered = true →
    r.documents = documents.filter (Filter.allHold m bindings · fs)
  /-- In order, the rows are what the window keeps of the documents that the filters accept. -/
  arranged : r.arranged =
    w.apply (Rows.arranged ⟨documents.filter (Filter.allHold m bindings · fs), r.orderBy⟩)

variable {documents : List Document} {ordering : Bool} {fs : List Filter} {w : Window} {r : Rows}

/-- Before any paging the window cuts nothing. -/
theorem Folds.of_unpaged (hp : p.Unpaged) (hw : p.template.bindWindow bindings = .ok w)
    (horder : r.orderBy = if ordering then p.template.orderBy.map StoreOrder.ofKey else [])
    (hfiltered : r.documents = documents.filter (Filter.allHold m bindings · fs)) :
    Folds m bindings documents ordering fs w p r := by
  refine ⟨horder, fun _ => hfiltered, ?_⟩
  cases (hp.bindWindow bindings).symm.trans hw
  rw [Window.apply_ofCounts_none, ← hfiltered]

/-! ### One operator

An operator is folded into a template and applied to rows. `Carries` says that the rows the template says
before become those it says afterwards. The lemmas below say it of a predicate, of what orders the rows, of
what cuts a page from them and of what leaves them alone. -/

/-- Rows that a template says become the rows that the next one says, when an operator is applied to them
that adds filters. -/
def Carries (m : Model) (bindings : Bindings) (op : Operator) (added : List Filter) (w w' : Window)
    (p p' : Progress) : Prop :=
  ∀ documents ordering fs r, Folds m bindings documents ordering fs w p r → ∃ r',
    r.advance m bindings p.template.entityType ordering op = .ok r' ∧
      Folds m bindings documents ordering (fs ++ added) w' p' r'

variable {op : Operator} {w' : Window}

theorem carries_filter {predicate : Lambda} {added : List Filter} (hstage : p.stage.within .ordered = true)
    (htranslated : Filter.ofLambda m p.template.entityType predicate = .ok added)
    (hbinds : ∀ c ∈ Filter.clausesOf added, c.Binds m bindings) (hunpaged : (p.restrict added).Unpaged)
    (hw' : (p.restrict added).template.bindWindow bindings = .ok w') :
    Carries m bindings (.filter predicate) added w w' p (p.restrict added) := by
  intro documents ordering fs r hfolds
  obtain ⟨conditions, hconditions, haccepts⟩ := Filter.exists_bindAll hbinds
  refine ⟨r.restrict conditions, ?_, .of_unpaged hunpaged hw' ?_ ?_⟩
  · rw [Rows.advance_of_not_orders rfl]
    exact Except.bind_eq_ok.mpr ⟨added, htranslated,
      Except.bind_eq_ok.mpr ⟨conditions, hconditions, rfl⟩⟩
  · obtain ⟨_, _, heq⟩ := p.restrict_eq added
    rw [heq]
    exact hfolds.orderBy
  · show r.documents.filter _ = _
    rw [hfolds.filtered hstage, List.filter_filter]
    refine List.filter_congr fun d _ => ?_
    rw [haccepts, Filter.allHold_append, Bool.and_comm]

/-- An ordering is remembered for the pages, or left out. -/
theorem carries_order (next : List StoreOrder → List StoreOrder) (hop : op.orders = true)
    (happly : ∀ r : Rows, r.apply m bindings p.template.entityType op =
      .ok { r with orderBy := next r.orderBy })
    (horder : next (p.template.orderBy.map StoreOrder.ofKey) = p'.template.orderBy.map StoreOrder.ofKey)
    (hstage : p.stage.within .ordered = true) (hunpaged : p'.Unpaged)
    (hw' : p'.template.bindWindow bindings = .ok w') : Carries m bindings op [] w w' p p' := by
  intro documents ordering fs r hfolds
  have hfiltered := hfolds.filtered hstage
  rw [List.append_nil]
  cases ordering with
  | true =>
    have hremembered : r.orderBy = p.template.orderBy.map StoreOrder.ofKey := hfolds.orderBy
    refine ⟨{ r with orderBy := next r.orderBy }, happly r, .of_unpaged hunpaged hw' ?_ hfiltered⟩
    show next r.orderBy = _
    rw [hremembered, horder]
    rfl
  | false => exact ⟨r, Rows.advance_ordering hop r, .of_unpaged hunpaged hw' hfolds.orderBy hfiltered⟩

/-- A page is cut from the rows as the window is cut. -/
theorem carries_cut {page : List Document → List Document} (hop : op.orders = false)
    (happly : ∀ r : Rows, r.apply m bindings p.template.entityType op = .ok (r.cut page))
    (hpage : ∀ ds : List Document, (page ds).Sublist ds) (hcut : ∀ ds, w'.apply ds = page (w.apply ds))
    (hstage : p'.stage.within .ordered = false) (horder : p'.template.orderBy = p.template.orderBy) :
    Carries m bindings op [] w w' p p' := by
  intro documents ordering fs r hfolds
  rw [List.append_nil]
  refine ⟨r.cut page, (Rows.advance_of_not_orders hop r).trans (happly r), ?_,
    fun hordered => (nomatch hstage.symm.trans hordered), ?_⟩
  · rw [horder]
    exact hfolds.orderBy
  · rw [Rows.arranged_cut hpage, hfolds.arranged, hcut]
    rfl

/-- Rows that are left alone are those that a template with the same ordering says. -/
theorem carries_self (hop : op.orders = false)
    (happly : ∀ r : Rows, r.apply m bindings p.template.entityType op = .ok r)
    (hstage : p'.stage.within .ordered = true → p.stage.within .ordered = true)
    (horder : p'.template.orderBy = p.template.orderBy) : Carries m bindings op [] w w p p' := by
  intro documents ordering fs r hfolds
  rw [List.append_nil]
  refine ⟨r, (Rows.advance_of_not_orders hop r).trans (happly r), ?_,
    fun hordered => hfolds.filtered (hstage hordered), hfolds.arranged⟩
  rw [horder]
  exact hfolds.orderBy

/-- A step folds its operator into the template as the operator is applied to the rows. The window before the
step is known from the window after it. That the step came before any paging is asked for through what an
unpaged stage means, so that the lemma can be used at every point of a run. -/
theorem Step.carries {added : List Filter} (h : Step m p op p') (hends : op.ends = false)
    (hearlier : p.stage.within .ordered = true → p.Unpaged)
    (hadded : Filter.ofLambdas m p.template.entityType op.predicate?.toList = .ok added)
    (hbinds : ∀ c ∈ Filter.clausesOf added, c.Binds m bindings)
    (hw' : p'.template.bindWindow bindings = .ok w') :
    ∃ w, p.template.bindWindow bindings = .ok w ∧ Carries m bindings op added w w' p p' := by
  have hunpaged := h.unpaged hearlier
  have hnone (hpredicate : op.predicate? = none) : added = [] := by
    rw [hpredicate] at hadded
    exact (Except.ok.inj hadded).symm
  cases h with
  -- before any paging the template has no counts, so its window before the step is the empty one
  | filter hstage htranslated =>
    cases htranslated.symm.trans (Filter.ofLambdas_singleton.mp hadded)
    exact ⟨_, (hearlier hstage).bindWindow bindings,
      carries_filter hstage htranslated hbinds (hunpaged hstage) hw'⟩
  | @orderBy lambda descending key hstage htranslated =>
    rw [hnone rfl]
    exact ⟨_, (hearlier hstage).bindWindow bindings, carries_order (fun _ => [StoreOrder.ofKey key]) rfl
      (fun r => Except.bind_eq_ok.mpr ⟨key, htranslated, rfl⟩) rfl hstage (hunpaged rfl) hw'⟩
  | @thenBy lambda descending key hstage hordered htranslated =>
    have happend : p.template.orderBy.map StoreOrder.ofKey ++ [StoreOrder.ofKey key] =
        (p.template.orderBy ++ [key]).map StoreOrder.ofKey := by rw [List.map_append, List.map_singleton]
    rw [hnone rfl]
    exact ⟨_, (hearlier hstage).bindWindow bindings, carries_order (· ++ [StoreOrder.ofKey key]) rfl
      (fun r => Except.bind_eq_ok.mpr ⟨key, htranslated, rfl⟩) happend hstage (hunpaged hstage) hw'⟩
  -- the counts add up in the template, and their values add up in the windows
  | @skip expr count _ _ htranslated hskip =>
    obtain ⟨w, n, hw, hn, hcut⟩ := skip_window hskip hw'
    obtain ⟨_, _, rfl⟩ := skip_eq hskip
    rw [hnone rfl]
    exact ⟨w, hw, carries_cut rfl (fun r => Except.bind_eq_ok.mpr ⟨count, htranslated,
      Except.bind_eq_ok.mpr ⟨n, hn, rfl⟩⟩) (List.drop_sublist n) hcut rfl rfl⟩
  | @take expr count _ _ htranslated htake =>
    obtain ⟨w, n, hw, hn, hcut⟩ := take_window htake hw'
    obtain ⟨_, rfl⟩ := take_eq htake
    rw [hnone rfl]
    exact ⟨w, hw, carries_cut rfl (fun r => Except.bind_eq_ok.mpr ⟨count, htranslated,
      Except.bind_eq_ok.mpr ⟨n, hn, rfl⟩⟩) (List.take_sublist n) hcut rfl rfl⟩
  | @takeLast expr count hstage hordered htranslated =>
    obtain ⟨n, hn, rfl⟩ := takeLast_window (hearlier hstage) hw'
    rw [hnone rfl]
    exact ⟨_, (hearlier hstage).bindWindow bindings, carries_cut rfl
      (fun r => Except.bind_eq_ok.mpr ⟨count, htranslated, Except.bind_eq_ok.mpr ⟨n, hn, rfl⟩⟩)
      (fun ds => List.drop_sublist _ ds) (fun ds => rfl) rfl rfl⟩
  | select _ _ =>
    rw [hnone rfl]
    exact ⟨w', hw', carries_self rfl (fun _ => rfl) (fun h => (nomatch h)) rfl⟩
  | loads hloads _ =>
    rw [hnone (Operator.predicate?_of_loads hloads)]
    exact ⟨w', hw', carries_self (Operator.orders_of_loads hloads) (fun _ => Rows.apply_of_loads hloads)
      id rfl⟩
  | reduce hreduces _ _ => exact nomatch hends.symm.trans (Operator.ends_of_reduction? hreduces)
  | pick _ _ => cases hends

/-- The operators of a run, applied one at a time, leave the rows that its template says. By induction on the
operators from their end: the invariant is `Folds`, and `Step.carries` takes it over the last of them. -/
theorem rows_of_run (h : operators.foldlM (step m) start = .ok p)
    (hends : ∀ op ∈ operators, op.ends = false) (hunpaged : start.Unpaged)
    (hunordered : start.template.orderBy = [])
    (hfs : Filter.ofLambdas m start.template.entityType (operators.filterMap Operator.predicate?) = .ok fs)
    (hbinds : ∀ c ∈ Filter.clausesOf fs, c.Binds m bindings)
    (hw : p.template.bindWindow bindings = .ok w) (ordering : Bool) (documents : List Document) :
    ∃ r, Rows.run m bindings start.template.entityType ordering ⟨documents, []⟩ operators = .ok r ∧
      Folds m bindings documents ordering fs w p r := by
  induction operators using List.reverseRecOn generalizing p fs w with
  | nil =>
    cases h
    cases hfs
    refine ⟨⟨documents, []⟩, rfl, .of_unpaged hunpaged hw ?_ ?_⟩
    · rw [hunordered]
      exact (ite_self _).symm
    · exact (List.filter_eq_self.mpr fun _ _ => rfl).symm
  | append_singleton operators op ih =>
    obtain ⟨before, hrun, hstep⟩ := run_append_singleton h
    have hbefore : ∀ op ∈ operators, op.ends = false := fun op hop =>
      hends op (List.mem_append_left _ hop)
    have hop : op.ends = false := hends op (List.mem_append_right _ (List.mem_singleton_self op))
    rw [Operator.predicates_append_singleton] at hfs
    obtain ⟨earlier, added, hearlier, hadded, rfl⟩ := Filter.ofLambdas_append.mp hfs
    rw [Filter.clausesOf_append] at hbinds
    -- the operator is applied to the rows of the earlier ones, in the window before it
    have htype := (root_of_run hrun).1
    obtain ⟨w', hw', hfolds⟩ := hstep.carries hop (unpaged_of_run hrun hunpaged) (htype ▸ hadded)
      (fun c hc => hbinds c (List.mem_append_right _ hc)) hw
    obtain ⟨r, hr, hrows⟩ := ih hrun hbefore hearlier (fun c hc => hbinds c (List.mem_append_left _ hc))
      hw'
    obtain ⟨r', hr', hrows'⟩ := hfolds documents ordering earlier r hrows
    exact ⟨r', Rows.run_append_singleton hr (htype ▸ hr'), hrows'⟩

end Progress

/-! ## The rows of a query -/

namespace BoundQuery

variable {t : Template} {q : BoundQuery} {s : Store}

/-- The window of a query for a sequence is the window of its template. -/
theorem bindWindow_eq (h : t.BoundTo m bindings q) (hsequence : t.cardinality = .sequence) :
    t.bindWindow bindings = .ok q.selection.window := by
  have hwindow : q.selection.window = Window.ofCounts q.skip q.limit q.limitToLast := by
    simp only [selection, h.cardinality, hsequence]
    rfl
  rw [hwindow, Template.bindWindow, h.limit, h.limitToLast, h.skip]
  rfl

/-- What a query brings is its window of the documents it covers; a lookup covers one document, which it
takes without ordering. -/
theorem documents_eq_arranged (hwf : s.WellFormed)
    (hids : q.access.isLookup = true → s.PlainIds q.collection) :
    q.documents s q.selection = q.selection.window.apply (Rows.arranged
      ⟨(s.documents q.collection).filter q.access.covers,
        if !q.access.isLookup then q.orderBy.map StoreOrder.ofKey else []⟩) := by
  cases haccess : q.access with
  | document id =>
    have hplain : s.PlainIds q.collection := hids (by rw [haccess]; rfl)
    have hcovers : (s.documents q.collection).filter (Access.document id).covers =
        (s.find? q.collection id).toList := s.documents_filter_id hwf hplain id
    have harranged : Rows.arranged ⟨(s.find? q.collection id).toList, []⟩ =
        (s.find? q.collection id).toList := by
      have hall : (s.find? q.collection id).toList.filter (·.hasOrderFields []) =
          (s.find? q.collection id).toList := List.filter_eq_self.mpr fun _ _ => rfl
      show Document.sort [] ((s.find? q.collection id).toList.filter (·.hasOrderFields [])) = _
      rw [hall, Document.sort_of_length_le_one (s.length_find?_le q.collection id)]
    rw [documents_of_document haccess, hcovers]
    exact congrArg q.selection.window.apply harranged.symm
  | collection conditions =>
    have hadmits : q.selection.admits = fun d =>
        d.hasOrderFields (q.orderBy.map StoreOrder.ofKey) && (Access.collection conditions).covers d := by
      funext d
      simp only [Selection.admits, selection, haccess, Access.conditions, Access.covers, Bool.and_comm]
    rw [documents_of_collection haccess, Selection.ofDocuments_documents hwf, Selection.selected, hadmits,
      ← List.filter_filter]
    rfl

end BoundQuery

namespace Pipeline

variable {pipeline : Pipeline} {q : BoundQuery} {s : Store} {settings : Settings} {fetched : Fetched}

/-- The rows that the operators of a pipeline leave of a collection, applied one at a time. For a lookup
the orderings are left out. -/
def rows (m : Model) (bindings : Bindings) (pipeline : Pipeline) (q : BoundQuery) (s : Store) :
    Except QueryError Rows :=
  Rows.run m bindings q.entityType (!q.access.isLookup) ⟨s.documents q.collection, []⟩ pipeline.operators

/-- The query of a pipeline fetches the documents that its operators leave, applied one at a time.

Of the hypotheses, that the filters are spelled like the lookup carries the statement. The others are about
the store: it is well formed, takes disjunctions itself, has no more documents than can be counted, and for a
lookup no identity with several segments. -/
theorem fetch_rows (hq : (pipeline.compile m >>= Template.bind m bindings) = .ok q)
    (hends : ∀ op ∈ pipeline.operators, op.ends = false)
    (halike : ∀ fs, Filter.ofLambdas m q.entityType (pipeline.operators.filterMap Operator.predicate?) = .ok fs →
      Template.SpelledAlike m bindings q.keyProperty fs)
    (hwf : s.WellFormed) (hnative : s.nativeOr = true)
    (hcount : (s.documents q.collection).length ≤ Number.maxCount)
    (hids : q.access.isLookup = true → s.PlainIds q.collection)
    (hfetch : ((q.fetch settings).run (.ofStore s)).1 = .ok fetched) :
    ∃ r, pipeline.rows m bindings q s = .ok r ∧ fetched = .documents r.arranged := by
  obtain ⟨t, hcompile, hbind⟩ := Except.bind_eq_ok.mp hq
  have hbound := Template.bind_eq_ok hbind
  obtain ⟨root, collection, key, done, -, -, hrun, rfl⟩ := compile_spec hcompile
  -- the filters of the template can be bound, and so can those of the predicates
  obtain ⟨fs, hfs, hexplicit, halone⟩ := Progress.explicitFilters_of_run hrun hends rfl fun _ => rfl
  obtain ⟨htype, hkey⟩ := Progress.root_of_run hrun
  obtain ⟨hcovers, hbinds⟩ := Template.bindAccess_covers halone hbound.access
  rw [← hkey, ← hbound.keyProperty] at hexplicit
  rw [← htype, ← hbound.entityType] at hfs
  rw [hexplicit] at hcovers hbinds
  have hspelled (d : Document) := Template.spelled_holds (d := d) (halike fs hfs) hbinds
  have hholds : (fun d => q.access.covers d) = (Filter.allHold m bindings · fs) :=
    funext fun d => (hcovers d).trans (hspelled d).1
  -- the operators leave the rows that the template says, and the query brings them
  obtain ⟨hagg, hsequence⟩ := Progress.plain_of_run hrun hends
  obtain ⟨r, hr, hfolds⟩ := Progress.rows_of_run hrun hends ⟨rfl, rfl, rfl⟩ rfl (htype ▸ hbound.entityType ▸ hfs)
    (hspelled ⟨"", .null⟩).2 (BoundQuery.bindWindow_eq hbound hsequence) (!q.access.isLookup)
    (s.documents q.collection)
  rw [← htype, ← hbound.entityType] at hr
  refine ⟨r, hr, ?_⟩
  rw [(BoundQuery.fetch_gives settings q).result,
    BoundQuery.outcome_of_documents (hbound.aggregation.trans hagg)] at hfetch
  obtain ⟨-, source, documents, hsource, hanswer, rfl⟩ := hfetch
  have hbrought := BoundQuery.answer_source ⟨hwf, hcount,
    BoundQuery.ordered_of_answer hnative hsource hanswer, fun h => nomatch hnative.symm.trans h⟩ hsource
  rw [hanswer] at hbrought
  have hdocuments : q.selection.window.apply documents = q.documents s q.selection :=
    Except.ok.inj hbrought
  rw [hdocuments, BoundQuery.documents_eq_arranged hwf hids, hfolds.arranged, hfolds.orderBy,
    hbound.orderBy, hholds]

/-- The second of the notes that rank above 0, by rank. -/
def secondNote : Pipeline where
  root := "Note"
  operators :=
    [.filter ⟨"n", .binary .greaterThan (.member (.param "n") "Rank") (.constant (.int 0))⟩,
      .orderBy ⟨"n", .member (.param "n") "Rank"⟩ false, .skip (.constant (.int 1)),
      .take (.constant (.int 1))]

/-- The query of `secondNote`. -/
def secondNoteQuery : BoundQuery :=
  { BoundQuery.notes with
    access := .collection [.compare ⟨BoundQuery.rank, .greaterThan, .int 0⟩]
    orderBy := [⟨BoundQuery.rank, .ascending⟩]
    skip := some 1
    limit := some 1 }

/-- A filter, an ordering and a page fetch the one note that they leave one after the other. -/
theorem fetch_rows_secondNote :
    ∃ r, secondNote.rows Model.notes [] secondNoteQuery (Store.notes true) = .ok r ∧
      Fetched.documents [⟨"notes/b", .obj [("rank", .int 2), ("tag", .str "y")]⟩] =
        .documents r.arranged := by
  have hfetch : ((secondNoteQuery.fetch .standard).run (.ofStore (Store.notes true))).1 =
      .ok (.documents [⟨"notes/b", .obj [("rank", .int 2), ("tag", .str "y")]⟩]) := by
    rw [BoundQuery.fetch_of_query rfl rfl rfl (.inl rfl) (by decide), Store.answer_of_sorted (by decide)]
    rfl
  have hq : (secondNote.compile Model.notes >>= Template.bind Model.notes []) = .ok secondNoteQuery := rfl
  refine fetch_rows hq (by decide) (fun fs hfs => ?_) (Store.notes_wellFormed true) rfl
    (by decide) (fun h => nomatch h) hfetch
  cases hfs
  exact Template.spelledAlike_of_no_enum (by decide)

/-- A note whose identity has two segments. -/
def nestedNote : Store :=
  (Store.empty true).insert "notes" "a/b" (.obj [("rank", .int 1)])

/-- The notes with the identity `b`. -/
def noteB : Pipeline where
  root := "Note"
  operators := [.filter ⟨"n", .binary .equal (.member (.param "n") "Id") (.constant (.str "b"))⟩]

/-- The identity of a document is the last segment of its path, and a lookup goes by the whole path: the
filter lets the note through, and the query does not find it. -/
theorem fetch_nestedNote_differs :
    (noteB.compile Model.notes >>= Template.bind Model.notes []) =
        .ok { BoundQuery.notes with access := .document "b" } ∧
      (∃ r, noteB.rows Model.notes [] { BoundQuery.notes with access := .document "b" } nestedNote =
          .ok r ∧ r.arranged = [⟨"notes/a/b", .obj [("rank", .int 1)]⟩]) ∧
      ((BoundQuery.fetch .standard { BoundQuery.notes with access := .document "b" }).run
        (.ofStore nestedNote)).1 = .ok (.documents []) := by
  refine ⟨rfl, ⟨⟨[⟨"notes/a/b", .obj [("rank", .int 1)]⟩], []⟩, rfl, ?_⟩, rfl⟩
  exact Document.sort_of_length_le_one (Nat.le_refl 1)

end Pipeline

end DocumentQuery
