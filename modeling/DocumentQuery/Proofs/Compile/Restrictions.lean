import DocumentQuery.Proofs.Compile.Inclusions
import DocumentQuery.Proofs.Compile.Rows

/-!
# Restricted navigations one operator at a time

The operators on a navigation are folded into one selection of its targets. Here they are applied one at a
time instead (`Rows.perform`): a predicate filters, an ordering sorts by its key, a further key sorts what
is left once more, and a page is cut from the front. Unlike the operators of a pipeline, these are carried
out at once.

The two agree when no further key follows a page (`Inclusion.restrict_selects`). A filter and a new ordering
after a page are refused, and a further key is not: it is moved before the page, so the page is cut from
other documents (`Inclusion.restrict_thenBy_after_take`).

The agreement is proved one operator at a time, backwards through `Inclusion.Restricts.folds`: the selection
after an operator determines the one before, and rows that the one before describes become rows that the one
after describes. Two facts of sorting carry it. A stable sort does not look at an order the documents were in
before, as long as the paths of the documents tell them apart; and leaving documents out keeps the others in
order.

## Main definitions

* `Rows.perform` — what one operator does to documents
* `Inclusion.Restricts` — what one operator does to an include
* `Inclusion.Folds` — a selection that says of given documents what the rows are
-/

namespace DocumentQuery

variable {m : Model} {bindings : Bindings} {target : String}

/-! ## Operators on documents -/

namespace Restriction

/-- Whether an operator pages. -/
def pages : Restriction → Bool
  | .skip _ | .take _ => true
  | _ => false

/-- Whether an operator refines an ordering. -/
def refines : Restriction → Bool
  | .thenBy _ _ => true
  | _ => false

/-- Operators none of which refines an ordering after a page. This is the condition under which a selection
can be read as the operators one after the other. -/
def RefinedFirst (restrictions : List Restriction) : Prop :=
  restrictions.Pairwise fun a b => a.pages = true → b.refines = false

instance (restrictions : List Restriction) : Decidable (RefinedFirst restrictions) :=
  inferInstanceAs (Decidable (List.Pairwise _ _))

end Restriction

namespace Rows

/-- The rows sorted by another order. -/
def sortedBy (r : Rows) (orderBy : List StoreOrder) : Rows :=
  ⟨Document.sort orderBy r.documents, orderBy⟩

/-- Applies one operator to targets of a type. The predicate, the key or the count is translated and bound
when the operator is applied, and the rows remember the ordering they are in for the keys that refine it. -/
def perform (m : Model) (bindings : Bindings) (targetType : String) (r : Rows) :
    Restriction → Except QueryError Rows
  | .filter predicate => do
    let filters ← Filter.ofLambda m targetType predicate
    let conditions ← Filter.bindAll m bindings filters
    return r.restrict conditions
  | .orderBy key descending => do
    let key ← SortKey.ofLambda m targetType key descending
    return r.sortedBy [StoreOrder.ofKey key]
  | .thenBy key descending => do
    let key ← SortKey.ofLambda m targetType key descending
    return r.sortedBy (r.orderBy ++ [StoreOrder.ofKey key])
  | .skip count => do
    let operand ← Operand.ofExpr count
    let n ← operand.bindCount bindings "skip"
    return { r with documents := r.documents.drop n }
  | .take count => do
    let operand ← Operand.ofExpr count
    let n ← operand.bindCount bindings "limit"
    return { r with documents := r.documents.take n }

end Rows

/-! ## Operators on includes -/

namespace Filter

/-- The conditions of filters are those of the first ones and those of the last ones. -/
theorem bindAll_append {fs gs : List Filter} {conditions : List Condition}
    (h : bindAll m bindings (fs ++ gs) = .ok conditions) :
    ∃ before added, bindAll m bindings fs = .ok before ∧ bindAll m bindings gs = .ok added ∧
      conditions = before ++ added := by
  induction fs generalizing conditions with
  | nil => exact ⟨[], conditions, rfl, h, rfl⟩
  | cons f fs ih =>
    obtain ⟨_, heach, h⟩ := Except.bind_eq_ok.mp h
    obtain ⟨condition, hf, heach⟩ := Except.bind_eq_ok.mp heach
    obtain ⟨rest, hrest, heach⟩ := Except.bind_eq_ok.mp heach
    cases heach
    cases h
    obtain ⟨before, added, hbefore, hadded, heq⟩ := ih (Except.bind_eq_ok.mpr ⟨rest, hrest, rfl⟩)
    obtain ⟨each, heach, hflat⟩ := Except.bind_eq_ok.mp hbefore
    cases hflat
    refine ⟨condition.conjuncts ++ each.flatMap Condition.conjuncts, added, ?_, hadded, ?_⟩
    · exact Except.bind_eq_ok.mpr ⟨condition :: each, Except.bind_eq_ok.mpr ⟨condition, hf,
        Except.bind_eq_ok.mpr ⟨each, heach, rfl⟩⟩, rfl⟩
    · rw [List.flatMap_cons, heq, List.append_assoc]

end Filter

namespace Inclusion

variable {i i' : Inclusion} {restriction : Restriction} {restrictions : List Restriction}

/-- What one operator does to an include, and when it is let in: filters, orderings and skips before any page,
a limit where there is none, a further key where there is a first one, at any time. -/
inductive Restricts (m : Model) (target : String) (i : Inclusion) : Restriction → Inclusion → Prop
  | filter {predicate : Lambda} {added : List Filter} (unpaged : i.isPaged = false)
      (translated : Filter.ofLambda m target predicate = .ok added) :
      Restricts m target i (.filter predicate) { i with filters := i.filters ++ added }
  | orderBy {lambda : Lambda} {descending : Bool} {key : SortKey} (unpaged : i.isPaged = false)
      (translated : SortKey.ofLambda m target lambda descending = .ok key) :
      Restricts m target i (.orderBy lambda descending) { i with orderBy := [key] }
  | thenBy {lambda : Lambda} {descending : Bool} {key : SortKey} (ordered : i.orderBy ≠ [])
      (translated : SortKey.ofLambda m target lambda descending = .ok key) :
      Restricts m target i (.thenBy lambda descending) { i with orderBy := i.orderBy ++ [key] }
  | skip {expr : Expr} {count : Operand} (unpaged : i.isPaged = false)
      (translated : Operand.ofExpr expr = .ok count) :
      Restricts m target i (.skip expr) { i with skip := some count }
  | take {expr : Expr} {count : Operand} (unlimited : i.limit = none)
      (translated : Operand.ofExpr expr = .ok count) :
      Restricts m target i (.take expr) { i with limit := some count }

/-- An operator that is let in does what is said of it and nothing else. -/
theorem restrict_spec (h : i.restrict m target restriction = .ok i') :
    Restricts m target i restriction i' := by
  cases restriction with
  | filter predicate =>
    rw [restrict] at h
    split at h
    · exact nomatch h
    next hpaged =>
      obtain ⟨added, hadded, h⟩ := Except.bind_eq_ok.mp h
      cases h
      exact .filter (eq_false_of_ne_true hpaged) hadded
  | orderBy lambda descending =>
    rw [restrict] at h
    split at h
    · exact nomatch h
    next hpaged =>
      obtain ⟨key, hkey, h⟩ := Except.bind_eq_ok.mp h
      cases h
      exact .orderBy (eq_false_of_ne_true hpaged) hkey
  | thenBy lambda descending =>
    rw [restrict] at h
    split at h
    · exact nomatch h
    next hordered =>
      obtain ⟨key, hkey, h⟩ := Except.bind_eq_ok.mp h
      cases h
      exact .thenBy (fun hnil => hordered (List.isEmpty_iff.mpr hnil)) hkey
  | skip expr =>
    rw [restrict] at h
    split at h
    · exact nomatch h
    next hpaged =>
      obtain ⟨count, hcount, h⟩ := Except.bind_eq_ok.mp h
      cases h
      exact .skip (eq_false_of_ne_true hpaged) hcount
  | take expr =>
    rw [restrict] at h
    split at h
    · exact nomatch h
    next hlimit =>
      obtain ⟨count, hcount, h⟩ := Except.bind_eq_ok.mp h
      cases h
      exact .take (Option.not_isSome_iff_eq_none.mp hlimit) hcount

/-- An include is paged if one of its operators pages. -/
theorem isPaged_of_run (h : restrictions.foldlM (restrict m target) i = .ok i') :
    i'.isPaged = (i.isPaged || restrictions.any Restriction.pages) := by
  induction restrictions generalizing i with
  | nil =>
    cases h
    exact (Bool.or_false _).symm
  | cons restriction restrictions ih =>
    rw [List.foldlM_cons] at h
    obtain ⟨next, hnext, h⟩ := Except.bind_eq_ok.mp h
    have hpaged : next.isPaged = (i.isPaged || restriction.pages) := by
      cases restrict_spec hnext <;> simp [isPaged, Restriction.pages]
    rw [ih h, hpaged, List.any_cons, Bool.or_assoc]

/-! ## Selections of includes -/

/-- The selection of an include for given parameters. -/
def bindSelection (m : Model) (bindings : Bindings) (i : Inclusion) : Except QueryError Selection := do
  let conditions ← Filter.bindAll m bindings i.filters
  let limit ← Operand.bindCount? bindings "limit" i.limit
  let skip ← Operand.bindCount? bindings "skip" i.skip
  return ⟨conditions, i.orderBy.map StoreOrder.ofKey, Window.ofCounts skip limit none⟩

/-- A selection has the conditions, the keys and the counts that the include is bound to. -/
theorem bindSelection_eq_ok {sel : Selection} :
    i.bindSelection m bindings = .ok sel ↔ ∃ conditions skip limit,
      Filter.bindAll m bindings i.filters = .ok conditions ∧
      Operand.bindCount? bindings "skip" i.skip = .ok skip ∧
      Operand.bindCount? bindings "limit" i.limit = .ok limit ∧
      sel = ⟨conditions, i.orderBy.map StoreOrder.ofKey, Window.ofCounts skip limit none⟩ := by
  simp only [bindSelection, Except.bind_eq_ok, pure, Except.pure, Except.ok.injEq]
  constructor
  · rintro ⟨conditions, hconditions, limit, hlimit, skip, hskip, rfl⟩
    exact ⟨conditions, skip, limit, hconditions, hskip, hlimit, rfl⟩
  · rintro ⟨conditions, skip, limit, hconditions, hskip, hlimit, rfl⟩
    exact ⟨conditions, hconditions, limit, hlimit, skip, hskip, rfl⟩

/-- A loading selects what its include does. -/
theorem bindSelection_of_bind {typeName : String} {l : Loading}
    (h : i.bind m bindings typeName = .ok l) : i.bindSelection m bindings = .ok l.selection := by
  obtain ⟨name, filters, orderBy, limit, skip, nested⟩ := i
  rw [bind] at h
  obtain ⟨⟨navigation, target⟩, -, h⟩ := Except.bind_eq_ok.mp h
  obtain ⟨children, -, h⟩ := Except.bind_eq_ok.mp h
  obtain ⟨conditions, hconditions, h⟩ := Except.bind_eq_ok.mp h
  obtain ⟨count, hlimit, h⟩ := Except.bind_eq_ok.mp h
  obtain ⟨skipped, hskip, h⟩ := Except.bind_eq_ok.mp h
  cases h
  exact bindSelection_eq_ok.mpr ⟨conditions, skipped, count, hconditions, hskip, hlimit, rfl⟩

end Inclusion

namespace Document

/-- Documents in a given order; without one they stay as they are. -/
def arrange (orderBy : List StoreOrder) (documents : List Document) : List Document :=
  if orderBy.isEmpty then documents else sort orderBy documents

/-- Documents in order are the same documents. -/
theorem arrange_perm (os : List StoreOrder) (ds : List Document) : (arrange os ds).Perm ds := by
  unfold arrange
  split
  · exact .refl ds
  · exact sort_perm os ds

variable {os os' : List StoreOrder} {ds : List Document}

/-- An order by at least one key sorts. -/
theorem arrange_of_ne_nil (h : os ≠ []) : arrange os ds = sort os ds := by
  rw [arrange, if_neg (mt List.isEmpty_iff.mp h)]

/-- Sorting documents that are in another order. What the other order was does not matter, because the paths
decide between documents that no key tells apart. -/
theorem Consistent.sort_arrange (hc : Consistent ds) : sort os (arrange os' ds) = sort os ds :=
  (hc.subset (arrange_perm os' ds).subset).sort_eq_of_perm (arrange_perm os' ds)

/-- Leaving documents out keeps the others in order. -/
theorem Consistent.filter_arrange (hc : Consistent ds) (p : Document → Bool) :
    (arrange os ds).filter p = arrange os (ds.filter p) := by
  unfold arrange
  split
  · rfl
  · exact (hc.sort_filter p).symm

end Document

namespace Selection

/-- The documents that meet the conditions of a selection. -/
def matching (sel : Selection) (documents : List Document) : List Document :=
  documents.filter fun d => (Condition.foldAll sel.conditions).all (·.accepts d)

/-- Of documents with all ordered fields, a selection takes those that meet its conditions, in order, and cuts
them to its window. A document that lacks an ordered field would be left out by the ordering. -/
theorem ofDocuments_eq {sel : Selection} {documents : List Document}
    (h : ∀ d ∈ documents, d.hasOrderFields sel.orderBy = true) :
    sel.ofDocuments documents = sel.window.apply (Document.arrange sel.orderBy (sel.matching documents)) := by
  have hfields : (sel.matching documents).filter (·.hasOrderFields sel.orderBy) = sel.matching documents :=
    List.filter_eq_self.mpr fun d hd => h d (List.mem_filter.mp hd).1
  unfold ofDocuments Document.arrange
  split
  · rfl
  · exact congrArg (fun ds => sel.window.apply (Document.sort sel.orderBy ds)) hfields

end Selection

namespace Inclusion

variable {i i' : Inclusion} {restriction : Restriction} {restrictions : List Restriction}

/-! ## One operator -/

/-- A selection that says of given documents what the rows are: which documents, in which order, and how the
rows are ordered when a further key comes. -/
structure Folds (documents : List Document) (sel : Selection) (r : Rows) : Prop where
  orderBy : r.orderBy = sel.orderBy
  documents : r.documents = sel.window.apply (Document.arrange sel.orderBy (sel.matching documents))

/-- An include is not paged if it has neither of the two counts. -/
theorem isPaged_eq_false_iff : i.isPaged = false ↔ i.skip = none ∧ i.limit = none := by
  rw [isPaged, Bool.or_eq_false_iff, Option.isSome_eq_false_iff, Option.isSome_eq_false_iff,
    Option.isNone_iff_eq_none, Option.isNone_iff_eq_none]

/-- An include that is not paged has no counts. -/
theorem counts_of_unpaged (h : i.isPaged = false) {skip limit : Option Nat}
    (hskip : Operand.bindCount? bindings "skip" i.skip = .ok skip)
    (hlimit : Operand.bindCount? bindings "limit" i.limit = .ok limit) : skip = none ∧ limit = none := by
  obtain ⟨hunskipped, hunlimited⟩ := isPaged_eq_false_iff.mp h
  rw [hunskipped] at hskip
  rw [hunlimited] at hlimit
  cases hskip
  cases hlimit
  exact ⟨rfl, rfl⟩

/-- An ordering sorts documents that were not cut, in whatever order they are. -/
theorem Folds.sort {documents : List Document} {conditions : List Condition} {os os' : List StoreOrder}
    {r : Rows} (h : Folds documents ⟨conditions, os, Window.ofCounts none none none⟩ r)
    (hc : Document.Consistent documents) (hos' : os' ≠ []) :
    Folds documents ⟨conditions, os', Window.ofCounts none none none⟩ (r.sortedBy os') where
  orderBy := rfl
  documents := by
    show Document.sort os' r.documents = Document.arrange os' (documents.filter _)
    rw [h.documents, Window.apply_ofCounts_none, Document.arrange_of_ne_nil hos']
    exact (hc.filter _).sort_arrange

/-- A filter restricts documents that were not cut. -/
theorem Folds.restrict {documents : List Document} {before added : List Condition} {os : List StoreOrder}
    {r : Rows} (h : Folds documents ⟨before, os, Window.ofCounts none none none⟩ r)
    (hc : Document.Consistent documents) :
    Folds documents ⟨before ++ added, os, Window.ofCounts none none none⟩ (r.restrict added) where
  orderBy := h.orderBy
  documents := by
    have haccepts : (fun d => (Condition.foldAll (before ++ added)).all (·.accepts d)) = fun d =>
        (Condition.foldAll added).all (·.accepts d) && (Condition.foldAll before).all (·.accepts d) := by
      funext d
      rw [Condition.foldAll_accepts, Condition.toFilters_append, StoreFilter.allAccept_append,
        Condition.foldAll_accepts, Condition.foldAll_accepts, Bool.and_comm]
    show r.documents.filter _ = Document.arrange os (documents.filter _)
    rw [h.documents, Window.apply_ofCounts_none, haccepts, ← List.filter_filter]
    exact (hc.filter _).filter_arrange _

/-- An operator that does not refine an ordering after a page does to documents what it does to the selection
of an include. The condition is on the operator and the include as it is before, so that a run can be taken
apart operator by operator. -/
theorem Restricts.folds (h : Restricts m target i restriction i')
    (hrefines : restriction.refines = true → i.isPaged = false) {sel' : Selection}
    (hsel' : i'.bindSelection m bindings = .ok sel') :
    ∃ sel, i.bindSelection m bindings = .ok sel ∧
      ∀ documents r, Document.Consistent documents → Folds documents sel r →
        ∃ r', r.perform m bindings target restriction = .ok r' ∧ Folds documents sel' r' := by
  obtain ⟨conditions, skip, limit, hconditions, hskip, hlimit, rfl⟩ := bindSelection_eq_ok.mp hsel'
  -- unless the include has a page already, the counts of its selection are those the operator brings
  cases h with
  | @filter predicate added unpaged translated =>
    obtain ⟨rfl, rfl⟩ := counts_of_unpaged unpaged hskip hlimit
    obtain ⟨before, more, hbefore, hmore, rfl⟩ := Filter.bindAll_append hconditions
    refine ⟨_, bindSelection_eq_ok.mpr ⟨before, none, none, hbefore, hskip, hlimit, rfl⟩,
      fun documents r hc hfolds => ⟨r.restrict more, ?_, hfolds.restrict hc⟩⟩
    exact Except.bind_eq_ok.mpr ⟨added, translated, Except.bind_eq_ok.mpr ⟨more, hmore, rfl⟩⟩
  | @orderBy lambda descending key unpaged translated =>
    obtain ⟨rfl, rfl⟩ := counts_of_unpaged unpaged hskip hlimit
    exact ⟨_, bindSelection_eq_ok.mpr ⟨conditions, none, none, hconditions, hskip, hlimit, rfl⟩,
      fun documents r hc hfolds => ⟨_, Except.bind_eq_ok.mpr ⟨key, translated, rfl⟩,
        hfolds.sort hc (List.cons_ne_nil _ _)⟩⟩
  | @thenBy lambda descending key ordered translated =>
    -- the sibling cases know this from the operator being let in; here it is assumed
    obtain ⟨rfl, rfl⟩ := counts_of_unpaged (hrefines rfl) hskip hlimit
    refine ⟨_, bindSelection_eq_ok.mpr ⟨conditions, none, none, hconditions, hskip, hlimit, rfl⟩,
      fun documents r hc hfolds => ⟨_, Except.bind_eq_ok.mpr ⟨key, translated, rfl⟩, ?_⟩⟩
    rw [hfolds.orderBy, List.map_append]
    exact hfolds.sort hc (List.append_ne_nil_of_right_ne_nil _ (List.cons_ne_nil _ _))
  | @skip expr count unpaged translated =>
    obtain ⟨n, hn, rfl⟩ := Operand.bindCount?_eq_some hskip
    obtain ⟨hunskipped, -⟩ := isPaged_eq_false_iff.mp unpaged
    have hnone : Operand.bindCount? bindings "skip" i.skip = .ok none := by
      rw [hunskipped]
      rfl
    obtain ⟨-, rfl⟩ := counts_of_unpaged unpaged hnone hlimit
    refine ⟨_, bindSelection_eq_ok.mpr ⟨conditions, none, none, hconditions, hnone, hlimit, rfl⟩,
      fun documents r hc hfolds => ⟨{ r with documents := r.documents.drop n }, ?_, hfolds.orderBy, ?_⟩⟩
    · exact Except.bind_eq_ok.mpr ⟨count, translated, Except.bind_eq_ok.mpr ⟨n, hn, rfl⟩⟩
    · show r.documents.drop n = _
      rw [hfolds.documents]
      rfl
  | @take expr count unlimited translated =>
    obtain ⟨n, hn, rfl⟩ := Operand.bindCount?_eq_some hlimit
    have hnone : Operand.bindCount? bindings "limit" i.limit = .ok none := by
      rw [unlimited]
      rfl
    refine ⟨_, bindSelection_eq_ok.mpr ⟨conditions, skip, none, hconditions, hskip, hnone, rfl⟩,
      fun documents r hc hfolds => ⟨{ r with documents := r.documents.take n }, ?_, hfolds.orderBy, ?_⟩⟩
    · exact Except.bind_eq_ok.mpr ⟨count, translated, Except.bind_eq_ok.mpr ⟨n, hn, rfl⟩⟩
    · show r.documents.take n = _
      rw [hfolds.documents, Window.take_apply_ofCounts]
      rfl

/-! ## All operators -/

/-- The operators on a navigation, applied one at a time, leave what the selection says. -/
theorem folds_of_run {name : String} (h : restrictions.foldlM (restrict m target) (plain name) = .ok i)
    (hrefined : Restriction.RefinedFirst restrictions) {sel : Selection}
    (hsel : i.bindSelection m bindings = .ok sel) {documents : List Document}
    (hc : Document.Consistent documents) :
    ∃ r, restrictions.foldlM (Rows.perform m bindings target) ⟨documents, []⟩ = .ok r ∧
      Folds documents sel r := by
  induction restrictions using List.reverseRecOn generalizing i sel with
  | nil =>
    cases h
    cases hsel
    refine ⟨⟨documents, []⟩, rfl, rfl, ?_⟩
    exact (List.filter_eq_self.mpr fun _ _ => rfl).symm
  | append_singleton restrictions restriction ih =>
    rw [List.foldlM_append] at h
    obtain ⟨before, hrun, h⟩ := Except.bind_eq_ok.mp h
    obtain ⟨_, hstep, h⟩ := Except.bind_eq_ok.mp h
    cases h
    obtain ⟨hrefined, -, hlast⟩ := List.pairwise_append.mp hrefined
    -- no operator before one that refines an ordering has made a page
    have hunpaged : restriction.refines = true → before.isPaged = false := by
      intro hrefines
      rw [isPaged_of_run hrun]
      refine Bool.or_eq_false_iff.mpr ⟨rfl, List.any_eq_false.mpr fun a ha hpages => ?_⟩
      exact nomatch hrefines.symm.trans (hlast a ha restriction (List.mem_singleton_self _) hpages)
    obtain ⟨earlier, hearlier, hfolds⟩ := (restrict_spec hstep).folds hunpaged hsel
    obtain ⟨r, hr, hrows⟩ := ih hrun hrefined hearlier
    obtain ⟨r', hr', hrows'⟩ := hfolds documents r hc hrows
    refine ⟨r', ?_, hrows'⟩
    rw [List.foldlM_append]
    exact Except.bind_eq_ok.mpr ⟨r, hr, Except.bind_eq_ok.mpr ⟨r', hr', rfl⟩⟩

/-- The operators on a navigation, none of which refines an ordering after a page, may be applied one at a
time in the order they are written: they leave those documents, in that order, that the loading of the include
selects.

The condition on the operators carries this. Without it the two differ (`restrict_thenBy_after_take`). That
documents have the ordered fields is asked for because a selection leaves out those that do not, as a store
does, and an operator that sorts what is in memory has no reason to. -/
theorem restrict_selects {name typeName : String} {l : Loading}
    (h : restrictions.foldlM (restrict m target) (plain name) = .ok i)
    (hrefined : Restriction.RefinedFirst restrictions) (hbind : i.bind m bindings typeName = .ok l)
    {documents : List Document} (hc : Document.Consistent documents)
    (hfields : ∀ d ∈ documents, d.hasOrderFields l.selection.orderBy = true) :
    ∃ r, restrictions.foldlM (Rows.perform m bindings target) ⟨documents, []⟩ = .ok r ∧
      r.documents = l.selection.ofDocuments documents := by
  obtain ⟨r, hr, hfolds⟩ := folds_of_run h hrefined (bindSelection_of_bind hbind) hc
  exact ⟨r, hr, hfolds.documents.trans (Selection.ofDocuments_eq hfields).symm⟩

end Inclusion

/-- Boards with notes. -/
def Model.boards : Model :=
  Model.notes.withType
    ⟨"Board", .entity "boards" "Id", [.named "Id" (.scalar .string)],
      [.childCollection "Notes" "Note" .list "notes"], []⟩

namespace Inclusion

/-- The rank of a note. -/
def rankKey : Lambda :=
  ⟨"n", .member (.param "n") "Rank"⟩

/-- The tag of a note. -/
def tagKey : Lambda :=
  ⟨"n", .member (.param "n") "Tag"⟩

/-- The field of a tag. -/
def tagField : FieldRef :=
  ⟨"tag", "Tag", .scalar .string, false, none⟩

/-- Some of the notes that rank above 0 without the first one, by tags from the last on and by ranks. -/
def laterByTag : List Restriction :=
  [.orderBy tagKey true, .thenBy rankKey false,
    .filter ⟨"n", .binary .greaterThan (.member (.param "n") "Rank") (.constant (.int 0))⟩,
    .skip (.constant (.int 1)), .take (.variable "count")]

/-- The include of `laterByTag`. -/
def laterByTagInclude : Inclusion where
  navigation := "Notes"
  filters := [.clause ⟨BoundQuery.rank, .greaterThan, .constant (.int 0)⟩]
  orderBy := [⟨tagField, .descending⟩, ⟨BoundQuery.rank, .ascending⟩]
  limit := some (.parameter "count")
  skip := some (.constant (.int 1))
  nested := []

/-- The loading of `laterByTag` with one note. -/
def laterByTagLoading : Loading where
  navigation := .childCollection "Notes" "Note" .list "notes"
  targetType := "Note"
  conditions := [.compare ⟨BoundQuery.rank, .greaterThan, .int 0⟩]
  orderBy := [⟨tagField, .descending⟩, ⟨BoundQuery.rank, .ascending⟩]
  limit := some 1
  skip := some 1
  children := []

/-- All kinds of operators on one navigation, with a parameter for the count, select what they leave one at a
time. -/
theorem restrict_selects_laterByTag :
    ∃ r, laterByTag.foldlM (Rows.perform Model.boards [("count", .int 1)] "Note")
        ⟨(Store.notes true).documents "notes", []⟩ = .ok r ∧
      r.documents = laterByTagLoading.selection.ofDocuments ((Store.notes true).documents "notes") := by
  have hrestrict : laterByTag.foldlM (restrict Model.boards "Note") (plain "Notes") =
      .ok laterByTagInclude := rfl
  have hbind : laterByTagInclude.bind Model.boards [("count", .int 1)] "Board" = .ok laterByTagLoading :=
    rfl
  exact restrict_selects hrestrict (by decide) hbind
    ((Store.notes_wellFormed true).distinctPaths "notes").consistent (by decide)

/-- A note of a board with the later tag. -/
def lateNote : Document :=
  ⟨"boards/b/notes/x", .obj [("rank", .int 1), ("tag", .str "y")]⟩

/-- A note of a board with the earlier tag and the same rank. -/
def earlyNote : Document :=
  ⟨"boards/b/notes/y", .obj [("rank", .int 1), ("tag", .str "x")]⟩

/-- Boards with the first of their notes by rank, which is then ordered by tag. -/
def firstByRank : Lambda :=
  ⟨"b", .call .thenBy
    (some (.call .take
      (some (.call .orderBy (some (.member (.param "b") "Notes")) [.lambda "n" rankKey.body]))
      [.constant (.int 1)]))
    [.lambda "n" tagKey.body]⟩

/-- The loading of `firstByRank`. -/
def firstByRankLoading : Loading where
  navigation := .childCollection "Notes" "Note" .list "notes"
  targetType := "Note"
  conditions := []
  orderBy := [⟨BoundQuery.rank, .ascending⟩, ⟨tagField, .ascending⟩]
  limit := some 1
  skip := none
  children := []

/-- An ordering that is refined after a page is refined before it: of two notes of one rank, the first one
by path is taken and then ordered, and the loading takes the other one, which has the earlier tag. -/
theorem restrict_thenBy_after_take :
    NavigationChain.ofExpr firstByRank.parameter firstByRank.body =
        .ok ⟨["Notes"], [.orderBy rankKey false, .take (.constant (.int 1)), .thenBy tagKey false]⟩ ∧
      (Pipeline.compile Model.boards ⟨"Board", [.include firstByRank]⟩ >>=
          Template.bind Model.boards []).map BoundQuery.includes = .ok [firstByRankLoading] ∧
      Document.DistinctPaths [lateNote, earlyNote] ∧
      (∀ d ∈ [lateNote, earlyNote], d.hasOrderFields firstByRankLoading.selection.orderBy = true) ∧
      (∃ r, [Restriction.orderBy rankKey false, .take (.constant (.int 1)), .thenBy tagKey false].foldlM
          (Rows.perform Model.boards [] "Note") ⟨[lateNote, earlyNote], []⟩ = .ok r ∧
        r.documents = [lateNote]) ∧
      firstByRankLoading.selection.ofDocuments [lateNote, earlyNote] = [earlyNote] := by
  have hrank : Document.sort [⟨"rank", .ascending⟩] [lateNote, earlyNote] = [lateNote, earlyNote] :=
    Document.sort_of_sorted (by decide)
  have hboth : Document.sort [⟨"rank", .ascending⟩, ⟨"tag", .ascending⟩] [lateNote, earlyNote] =
      [earlyNote, lateNote] :=
    (Document.sort_eq_of_perm (by decide) (.swap _ _ _)).trans (Document.sort_of_sorted (by decide))
  refine ⟨rfl, rfl, by decide, by decide, ⟨_, rfl, ?_⟩, ?_⟩
  · show Document.sort _ ((Document.sort [⟨"rank", .ascending⟩] [lateNote, earlyNote]).take 1) = _
    rw [hrank]
    exact Document.sort_of_length_le_one (Nat.le_refl 1)
  · show (Document.sort [⟨"rank", .ascending⟩, ⟨"tag", .ascending⟩] [lateNote, earlyNote]).take 1 = _
    rw [hboth]
    rfl

end Inclusion

end DocumentQuery
