import DocumentQuery.Proofs.Plan.Emulation
import DocumentQuery.Proofs.Run.Requests

/-!
# Include trees in another order

Two include trees that differ in the order of siblings ask for the same targets. What changes is only in
which order, so the documents that a run meets and the objects that it makes are the same
(`Execution.Siblings.reaches`, `Execution.Siblings.meets`).

The relation on include trees is generated by exchanging neighbours, as `List.Perm` is, with one more rule for
what lies below. It keeps the restrictions of every navigation as they are, down to the order of its
conditions, because restrictions that are written differently are answered by different calls.

## Main definitions

* `Loading.Shuffled` — loadings that differ in the order of siblings, at any level
* `Execution.Siblings` — executions whose includes do
-/

namespace DocumentQuery

namespace Loading

/-- Loadings of the same targets, whatever is loaded below them. All that a call for the targets depends on is
the same. -/
structure SameTargets (l l' : Loading) : Prop where
  navigation : l.navigation = l'.navigation
  targetType : l.targetType = l'.targetType
  conditions : l.conditions = l'.conditions
  orderBy : l.orderBy = l'.orderBy
  limit : l.limit = l'.limit
  skip : l.skip = l'.skip

namespace SameTargets

variable {l l' l'' : Loading}

theorem refl (l : Loading) : SameTargets l l :=
  ⟨rfl, rfl, rfl, rfl, rfl, rfl⟩

theorem symm (h : SameTargets l l') : SameTargets l' l :=
  ⟨h.navigation.symm, h.targetType.symm, h.conditions.symm, h.orderBy.symm, h.limit.symm, h.skip.symm⟩

theorem trans (h : SameTargets l l') (h' : SameTargets l' l'') : SameTargets l l'' :=
  ⟨h.navigation.trans h'.navigation, h.targetType.trans h'.targetType,
    h.conditions.trans h'.conditions, h.orderBy.trans h'.orderBy, h.limit.trans h'.limit,
    h.skip.trans h'.skip⟩

theorem answer_eq (h : SameTargets l l') (limits : QueryLimits) (s : Store) (owner : Document) :
    l.answer limits s owner = l'.answer limits s owner := by
  refine answer_congr h.navigation ?_ limits s owner
  rw [selection, selection, h.conditions, h.orderBy, h.limit, h.skip]

end SameTargets

/-- Loadings that differ in the order of siblings, at any level. Two siblings may be exchanged, and what is
loaded below one may be put in another order. -/
inductive Shuffled : List Loading → List Loading → Prop
  | nil : Shuffled [] []
  | cons {l l' : Loading} {ls ls' : List Loading} (same : SameTargets l l')
      (below : Shuffled l.children l'.children) (rest : Shuffled ls ls') :
      Shuffled (l :: ls) (l' :: ls')
  | swap (l l' : Loading) (ls : List Loading) : Shuffled (l :: l' :: ls) (l' :: l :: ls)
  | trans {ls ls' ls'' : List Loading} (h : Shuffled ls ls') (h' : Shuffled ls' ls'') : Shuffled ls ls''

mutual

theorem Shuffled.children : (l : Loading) → Shuffled l.children l.children
  | ⟨_, _, _, _, _, _, children⟩ => Shuffled.refl children

theorem Shuffled.refl : (ls : List Loading) → Shuffled ls ls
  | [] => .nil
  | l :: ls => .cons (.refl l) (Shuffled.children l) (Shuffled.refl ls)

end

theorem Shuffled.symm {ls ls' : List Loading} (h : Shuffled ls ls') : Shuffled ls' ls := by
  induction h with
  | nil => exact .nil
  | cons same _ _ below rest => exact .cons same.symm below rest
  | swap l l' ls => exact .swap l' l ls
  | trans _ _ ih ih' => exact ih'.trans ih

/-- A loading has a counterpart that differs at most in the order of what is loaded below. So what is
requested on one side is requested on the other. -/
theorem Shuffled.exists_mem {ls ls' : List Loading} (h : Shuffled ls ls') {l : Loading} (hl : l ∈ ls) :
    ∃ l' ∈ ls', SameTargets l l' ∧ Shuffled l.children l'.children := by
  induction h generalizing l with
  | nil => cases hl
  | @cons first first' _ _ same below _ _ ih =>
    rcases List.mem_cons.mp hl with rfl | hl
    · exact ⟨first', List.mem_cons_self, same, below⟩
    · obtain ⟨l', hl', hrest⟩ := ih hl
      exact ⟨l', List.mem_cons_of_mem _ hl', hrest⟩
  | swap first second rest =>
    refine ⟨l, ?_, .refl l, Shuffled.children l⟩
    simp only [List.mem_cons] at hl ⊢
    exact or_left_comm.mp hl
  | trans _ _ ih ih' =>
    obtain ⟨l', hl', hsame, hbelow⟩ := ih hl
    obtain ⟨l'', hl'', hsame', hbelow'⟩ := ih' hl'
    exact ⟨l'', hl'', hsame.trans hsame', hbelow.trans hbelow'⟩

end Loading

namespace BoundQuery

/-- The order of includes does not matter for the documents of the query itself: they are fetched before
anything is loaded, and planning does not look at the includes. -/
theorem outcome_with_includes {q : BoundQuery} {includes : List Loading} {limits : QueryLimits}
    {s : Store} {fetched fetched' : Fetched} (h : q.outcome limits s = .ok fetched)
    (h' : ({ q with includes := includes } : BoundQuery).outcome limits s = .ok fetched') :
    fetched = fetched' := by
  obtain ⟨plan, hplan, hfetched⟩ := outcome_eq_ok.mp h
  obtain ⟨plan', hplan', hfetched'⟩ := outcome_eq_ok.mp h'
  obtain ⟨-, sel, reduction, source, hreduction, hsource, rfl⟩ := plan_eq_ok.mp hplan
  obtain ⟨-, sel', reduction', source', hreduction', hsource', rfl⟩ := plan_eq_ok.mp hplan'
  obtain ⟨rfl, rfl⟩ := Prod.ext_iff.mp (Except.ok.inj (hreduction.symm.trans hreduction'))
  obtain rfl := Except.ok.inj (hsource.symm.trans hsource')
  exact Except.ok.inj (hfetched.symm.trans hfetched')

end BoundQuery

namespace Execution

/-- Executions of a query and of the query with its includes in another order, both of which are answered.
Engine, contents and plans that may be kept are shared. -/
structure Siblings (x x' : Execution) : Prop where
  engine : x'.engine = x.engine
  store : x'.store = x.store
  plans : x'.plans = x.plans
  query : x'.query = { x.query with includes := x'.query.includes }
  includes : Loading.Shuffled x.query.includes x'.query.includes
  answered : ∃ fetched, x.query.outcome x.limits x.store = .ok fetched
  answered' : ∃ fetched, x'.query.outcome x'.limits x'.store = .ok fetched

variable {x x' : Execution}

namespace Siblings

theorem symm (h : x.Siblings x') : x'.Siblings x where
  engine := h.engine.symm
  store := h.store.symm
  plans := h.plans.symm
  query := by rw [h.query]
  includes := h.includes.symm
  answered := h.answered'
  answered' := h.answered

theorem model (h : x.Siblings x') : x'.model = x.model :=
  congrArg Engine.model h.engine

theorem limits (h : x.Siblings x') : x'.limits = x.limits :=
  congrArg (fun e : Engine => e.settings.limits) h.engine

/-- Both queries are answered with the same documents. -/
theorem outcome_eq (h : x.Siblings x') :
    x'.query.outcome x'.limits x'.store = x.query.outcome x.limits x.store := by
  obtain ⟨fetched, hfetched⟩ := h.answered
  obtain ⟨fetched', hfetched'⟩ := h.answered'
  have hother := hfetched'
  rw [h.query, h.limits, h.store] at hother
  rw [hfetched, hfetched', BoundQuery.outcome_with_includes hfetched hother]

theorem isRoot (h : x.Siblings x') {d : Document} (hd : x.IsRoot d) : x'.IsRoot d := by
  obtain ⟨documents, hdocuments, hd⟩ := hd
  exact ⟨documents, h.outcome_eq.trans hdocuments, hd⟩

/-- Both read the same documents and request the same on them, up to the order. By induction on how a document
is reached on one side. -/
theorem reaches (h : x.Siblings x') {typeName : String} {loadings : List Loading} {d : Document}
    (hr : x.Reaches typeName loadings d) :
    ∃ loadings', Loading.Shuffled loadings loadings' ∧ x'.Reaches typeName loadings' d := by
  induction hr with
  | root hd =>
    have htype : x.query.entityType = x'.query.entityType := by rw [h.query]
    exact ⟨x'.query.includes, h.includes, htype ▸ .root (h.isRoot hd)⟩
  | @target _ _ owner _ _ _ _ hl answered hd ih =>
    obtain ⟨loadings', hshuffled, hreaches⟩ := ih
    obtain ⟨l', hl', hsame, hbelow⟩ := hshuffled.exists_mem hl
    rw [hsame.targetType]
    rw [hsame.answer_eq, ← h.limits, ← h.store] at answered
    exact ⟨l'.children, hbelow, .target hreaches hl' answered hd⟩

/-- Both make instances of the same objects. -/
theorem meets (h : x.Siblings x') {typeName : String} {item : ShapedItem} (hm : x.Meets typeName item) :
    x'.Meets typeName item := by
  induction hm with
  | @root d item object hd shaped hobject =>
    have hshaped : x'.query.projection.shape x'.model x'.query.entityType d = .ok item := by
      rw [h.query, h.model]
      exact shaped
    refine .root (h.isRoot hd) hshaped ?_
    rw [h.query]
    exact hobject
  | @target _ _ owner _ _ _ _ hr hl answered hd shaped =>
    obtain ⟨loadings', hshuffled, hreaches⟩ := h.reaches hr
    obtain ⟨l', hl', hsame, -⟩ := hshuffled.exists_mem hl
    rw [hsame.targetType] at shaped ⊢
    rw [hsame.answer_eq, ← h.limits, ← h.store] at answered
    exact .target hreaches hl' answered hd (h.model ▸ shaped)
  | embedded _ hvalue hobject ih => exact .embedded ih hvalue hobject

end Siblings

end Execution

end DocumentQuery
