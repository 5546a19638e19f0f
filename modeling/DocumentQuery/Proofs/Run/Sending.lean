import DocumentQuery.Proofs.Run.Keeping

/-!
# What a run sends

A query is planned before the first call is made, and the plan is checked against the rules of the store
with everything that will be loaded. From there on a run cannot be refused any more. The invariant of its
connection is that every query sent since then conforms (`Connection.Sends`), and its failures are those
of `Failure.AfterPlan`: a query is refused only for a type that the model lacks, and the store rejects
nothing unless the connection is disturbed by a rejection.

What has to be shown of this invariant is that calls keep it and that the queries of a plan conform, those for
the navigations included. How it is carried through a run is the same for every invariant of connections, so
it is not gone through here again (`Run.Ends`); what is left is the two ends of a run, its plan and its element
(`Engine.planned_executeBound`).

Nothing is said of results here. The invariant holds at every moment of a run, so it does not matter which
documents an answer has or which branch is carried out first; a rule for two parts of a run is enough for
parts one after the other and for branches that are started together.
-/

namespace DocumentQuery

/-- What a planned run leaves of a connection: it goes on from the queries sent before, and every further one
conforms. Whether the store knows disjunctions and what disturbs the connection is as it was. -/
structure Connection.Sends (limits : QueryLimits) (c₀ c : Connection) : Prop where
  nativeOr : c.store.nativeOr = c₀.store.nativeOr
  disturbed : c.disturbed = c₀.disturbed
  /-- The queries since the start are a list of their own, and all of them conform. -/
  queries : ∃ sent, c.store.queries = c₀.store.queries ++ sent ∧
    ∀ q ∈ sent, q.Conforms limits c₀.store.nativeOr

theorem Connection.Sends.refl (limits : QueryLimits) (c : Connection) : c.Sends limits c :=
  ⟨rfl, rfl, [], (List.append_nil _).symm, fun _ hq => nomatch hq⟩

/-- What is left waiting does not matter for what is sent. -/
theorem Connection.Sends.giveUp {limits : QueryLimits} {c₀ c : Connection} (h : c₀.Sends limits c) :
    c₀.Sends limits (Awaiting.giveUp c) :=
  ⟨h.nativeOr, h.disturbed, h.queries⟩

/-- How a planned run may fail: a query is refused only for a type that the model lacks, a rejection by the
store is one that the connection is disturbed by, and any other failure is allowed. -/
def Failure.AfterPlan (c₀ : Connection) : Failure → Prop
  | .query error => ∃ name, error = .unknownType name
  | .store (.rejected reason) => ∃ n disturbance, c₀.disturbed = some (n, disturbance) ∧
    disturbance.failure? = some (.store (.rejected reason))
  | _ => True

theorem Failure.IsFault.afterPlan {e : Failure} (h : e.IsFault) (c₀ : Connection) :
    e.AfterPlan c₀ := by
  cases e with
  | query error =>
    cases error with
    | unknownType name => exact ⟨name, rfl⟩
    | _ => exact nomatch h
  | materialization fault => trivial
  | _ => exact nomatch h

/-- A planned run may fail as one of its calls does when it is disturbed, whatever the disturbance. -/
theorem Disturbance.afterPlan (disturbance : Disturbance) {e : Failure} {c₀ : Connection} {n : Nat}
    (hfailure : disturbance.failure? = some e) (hdisturbed : c₀.disturbed = some (n, disturbance)) :
    e.AfterPlan c₀ := by
  have hstore (error : StoreError) (h : disturbance.failure? = some (.store error)) :
      (Failure.store error).AfterPlan c₀ := by
    cases error with
    | rejected reason => exact ⟨n, disturbance, hdisturbed, h⟩
    | _ => trivial
  cases disturbance with
  | cancel => exact nomatch hfailure
  | stall | hang =>
    cases hfailure
    trivial
  | fail error | failLate error =>
    cases hfailure
    exact hstore error rfl

/-! ## Calls -/

namespace Connected

variable {limits : QueryLimits} {c₀ : Connection} {α : Type}

/-- A computation that sends only what conforms and fails only as planned runs do. -/
def Planned (limits : QueryLimits) (c₀ : Connection) (x : Connected α) : Prop :=
  Respects (Connection.Sends limits c₀) (Failure.AfterPlan c₀) x fun _ => True

/-- A call sends conforming queries if its request does, and it is not rejected if its request is not. A call
that is disturbed sends nothing. -/
theorem planned_call {request : Store.Call α}
    (h : ∀ s : Store, s.nativeOr = c₀.store.nativeOr → (request s).2.nativeOr = s.nativeOr ∧
      (∃ sent, (request s).2.queries = s.queries ++ sent ∧
        ∀ q ∈ sent, q.Conforms limits c₀.store.nativeOr) ∧
      ∀ reason, (request s).1 ≠ .error (.rejected reason)) :
    (call request).Planned limits c₀ := by
  intro c hc
  obtain ⟨hdisturbed, hcases⟩ := call_cases c request
  -- either the store has not seen the call, or it has answered its request
  rcases hcases with ⟨-, ⟨e, hresult, hwhy⟩, hstore⟩ | ⟨hresult, hstore, -⟩
  · refine ⟨⟨hstore ▸ hc.nativeOr, hdisturbed.trans hc.disturbed, hstore ▸ hc.queries⟩,
      fun _ _ => trivial, fun e' he' => ?_⟩
    obtain rfl := Except.error.inj (hresult.symm.trans he')
    rcases hwhy with rfl | ⟨n, disturbance, hdisturbed, hfailure⟩
    · trivial
    · exact disturbance.afterPlan hfailure (hc.disturbed.symm.trans hdisturbed)
  · obtain ⟨hnativeOr, ⟨sent, hsent, hconforms⟩, hanswered⟩ := h c.store hc.nativeOr
    obtain ⟨before, hbefore, hall⟩ := hc.queries
    refine ⟨⟨by rw [hstore, hnativeOr, hc.nativeOr], hdisturbed.trans hc.disturbed,
      before ++ sent, ?_, fun q hq => ?_⟩, fun _ _ => trivial, fun e he => ?_⟩
    · rw [hstore, hsent, hbefore, List.append_assoc]
    · exact (List.mem_append.mp hq).elim (hall q) (hconforms q)
    · rw [hresult] at he
      cases hanswer : (request c.store).1 with
      | ok a => exact nomatch (hanswer ▸ he)
      | error error =>
        rw [hanswer] at he
        cases he
        cases error with
        | rejected reason => exact absurd hanswer (hanswered reason)
        | _ => trivial

theorem planned_checkCancelled :
    checkCancelled.Planned limits c₀ := by
  refine Respects.get_bind fun c _ => ?_
  split
  · exact Respects.throw trivial _
  · exact ends_pure _

theorem planned_getDocument (collection id : String) :
    (getDocument collection id).Planned limits c₀ :=
  planned_call fun _ _ =>
    ⟨rfl, ⟨[], (List.append_nil _).symm, fun _ hq => (nomatch hq)⟩, fun _ h => nomatch h⟩

theorem planned_getByPath (path : String) :
    (getByPath path).Planned limits c₀ := by
  refine planned_call fun s _ =>
    ⟨rfl, ⟨[], (List.append_nil _).symm, fun _ hq => (nomatch hq)⟩, fun reason h => ?_⟩
  unfold Store.getByPath at h
  cases hsplit : Document.splitPath path <;> rw [hsplit] at h <;> cases h

theorem evaluate_of_conforms {s : Store} {q : StoreQuery} (h : q.Conforms limits s.nativeOr) :
    s.evaluate q = .ok (s.answer q) := by
  simp only [Store.evaluate, h.rejection?_eq_none]

theorem planned_runQuery {q : StoreQuery} (h : q.Conforms limits c₀.store.nativeOr) :
    (runQuery q).Planned limits c₀ := by
  refine planned_call fun s hs =>
    ⟨rfl, ⟨[q], rfl, fun _ hq => List.mem_singleton.mp hq ▸ h⟩, fun reason hrejected => ?_⟩
  cases (evaluate_of_conforms (hs ▸ h)).symm.trans hrejected

theorem planned_aggregate {q : StoreQuery} (h : q.Conforms limits c₀.store.nativeOr)
    (reduction : StoreReduction) :
    (aggregate q reduction).Planned limits c₀ := by
  refine planned_call fun s hs =>
    ⟨rfl, ⟨[q], rfl, fun _ hq => List.mem_singleton.mp hq ▸ h⟩, fun reason hrejected => ?_⟩
  have hanswer : (Store.aggregate q reduction s).1 = .ok (Store.reduce (s.answer q) reduction) := by
    rw [Store.aggregate, evaluate_of_conforms (hs ▸ h)]
    rfl
  cases hanswer.symm.trans hrejected

end Connected

/-- Asking for single documents sends no query, and faults do not come from the plan. -/
theorem Connection.kept_sends (limits : QueryLimits) (c₀ : Connection) :
    Connection.Kept (c₀.Sends limits) (Failure.AfterPlan c₀) where
  giveUp _ h := h.giveUp
  checkCancelled := Connected.planned_checkCancelled
  getDocument := Connected.planned_getDocument
  getByPath := Connected.planned_getByPath
  fault _ h := h.afterPlan c₀

/-! ## Plans -/

section

open Connected

variable {limits : QueryLimits} {c₀ : Connection}

theorem Source.planned_fetch {source : Source}
    (h : ∀ q ∈ source.queries, q.Conforms limits c₀.store.nativeOr) (orderBy : List StoreOrder)
    (window : Window) (parallel : Bool) : (source.fetch parallel orderBy window).Planned limits c₀ :=
  source.ends_fetch (Connection.kept_sends limits c₀) (fun q hq => planned_runQuery (h q hq)) orderBy window
    parallel

theorem Reduction.fold_failsOnly (kind : AggregateKind) (path : Option String) (nullable : Bool)
    (documents : List Document) :
    Except.FailsOnly (Failure.AfterPlan c₀) (Reduction.fold kind path nullable documents) := by
  unfold Reduction.fold Reduction.extremum
  repeat' split
  all_goals first | exact Except.failsOnly_ok _ | exact Except.failsOnly_error trivial

theorem Reduction.finish_failsOnly (reduction : StoreReduction) (skip : Nat) (value : Json) :
    Except.FailsOnly (Failure.AfterPlan c₀) (Reduction.finish reduction skip value) := by
  unfold Reduction.finish
  repeat' split
  all_goals first | exact Except.failsOnly_ok _ | exact Except.failsOnly_error trivial

/-- The calls of a plan are those of its source. -/
theorem ExecutionPlan.planned_run {plan : ExecutionPlan}
    (h : ∀ q ∈ plan.source.queries, q.Conforms limits c₀.store.nativeOr) (parallel : Bool) :
    (plan.run parallel).Planned limits c₀ := by
  show (plan.run parallel).Ends (c₀.Sends limits) (Failure.AfterPlan c₀)
  unfold run
  split
  next reduction q _ hsource =>
    rw [hsource] at h
    have haggregate : (aggregate q reduction).Ends (c₀.Sends limits) (Failure.AfterPlan c₀) :=
      planned_aggregate (h q List.mem_cons_self) reduction
    refine haggregate.bind fun answer => ?_
    exact (ends_ofExcept (Reduction.finish_failsOnly _ _ _)).bind fun _ => ends_pure _
  next =>
    have hfetch : (plan.source.fetch parallel plan.orderBy plan.window).Ends (c₀.Sends limits)
        (Failure.AfterPlan c₀) := Source.planned_fetch h plan.orderBy plan.window parallel
    refine hfetch.bind fun documents => ?_
    split
    · exact (ends_ofExcept (Reduction.fold_failsOnly _ _ _ _)).bind fun _ => ends_pure _
    · exact ends_pure _

end

/-! ## Navigations -/

namespace Run

variable {α : Type}

/-- A run that sends only what conforms and fails only as planned runs do. -/
def Planned (limits : QueryLimits) (c₀ : Connection) (x : Run α) : Prop :=
  Respects (fun s => c₀.Sends limits s.connection) (Failure.AfterPlan c₀) x fun _ => True

theorem run_connected (x : Connected α) (s : RunState) : (connected x).run s =
    ((x.run s.connection).1, { s with connection := (x.run s.connection).2 }) :=
  rfl

theorem run_ofExcept (r : Except Failure α) (s : RunState) :
    (ofExcept r).run s = (r, s) := by
  cases r <;> rfl

end Run

namespace Loading

variable {limits : QueryLimits} {c₀ : Connection} {l : Loading}

theorem childSelection_spec (l : Loading) : l.childSelection.conditions = l.conditions ∧
    l.childSelection.orderBy = l.orderBy.map StoreOrder.ofKey ∧
      l.childSelection.window.limitToLast = none := by
  unfold childSelection
  split <;> exact ⟨rfl, rfl, rfl⟩

/-- The targets of a sound loading are selected by the rules: its conditions keep to the limits, its
inequalities are on the field that leads its order, and it has no tail. -/
theorem Sound.conforms (h : l.Sound limits) : l.childSelection.Conforms limits := by
  obtain ⟨hconditions, horderBy, hlast⟩ := l.childSelection_spec
  have hordered : l.childSelection.window.limitToLast.isSome = true → l.orderBy ≠ [] := fun hsome => by
    simp [hlast] at hsome
  have hchecked := Selection.conforms_of_checkConditions h.checked hordered
  rwa [← hconditions, ← horderBy] at hchecked

/-- The calls for the targets of a sound loading can be planned, for every collection and on every store. So
the record that a navigation is loaded for has no say in whether it can be. -/
theorem Sound.exists_source (h : l.Sound limits) (nativeOr : Bool) (collection : String) :
    ∃ source, Source.ofSelection limits nativeOr collection l.childSelection = .ok source := by
  have hsize : Condition.checkSize limits.maxDisjunctions l.childSelection.conditions = .ok () := by
    rw [l.childSelection_spec.1]
    exact h.size
  by_cases hquery : (!Condition.anyHasOr l.childSelection.conditions || nativeOr) = true
  · exact ⟨_, Except.bind_eq_ok.mpr ⟨(), hsize, if_pos hquery⟩⟩
  · exact ⟨_, Except.bind_eq_ok.mpr ⟨(), hsize, if_neg hquery⟩⟩

open Run

variable {settings : Settings}

/-- The children of a sound loading are fetched by queries that conform. -/
theorem planned_fetchChildren (h : l.Sound settings.limits) (owner : Document) (subcollection : String) :
    (l.fetchChildren settings owner subcollection).Planned settings.limits c₀ := by
  unfold fetchChildren
  have hnative : Respects (fun s => c₀.Sends settings.limits s.connection) (Failure.AfterPlan c₀) Run.nativeOr
      fun nativeOr => nativeOr = c₀.store.nativeOr :=
    Respects.get_bind fun s hs => Respects.pure hs.nativeOr
  refine Respects.bind hnative ?_
  rintro _ rfl
  obtain ⟨source, hsource⟩ := h.exists_source c₀.store.nativeOr (Document.pathOf owner.path subcollection)
  dsimp only
  rw [hsource]
  exact ends_connected (Source.planned_fetch (Source.conforms_ofSelection h.conforms hsource) _ _ _)

end Loading

/-! ## Queries -/

namespace Engine

open Run

variable {e : Engine} {c₀ : Connection} {q : BoundQuery}

theorem reductionValue_failsOnly (value : Json) :
    Except.FailsOnly Failure.IsFault (e.reductionValue q value) := by
  unfold reductionValue
  split
  · exact Except.failsOnly_error trivial
  next aggregation _ =>
    refine Except.FailsOnly.bind ?_ fun type _ => type.convert_failsOnly e.model value
    unfold Aggregation.resultType
    repeat' split
    all_goals first | exact Except.failsOnly_ok _ | exact Except.failsOnly_error trivial

theorem checkSingle_failsOnly (documents : List Document) :
    Except.FailsOnly (Failure.AfterPlan c₀) (q.checkSingle documents) := by
  unfold BoundQuery.checkSingle
  repeat' split
  all_goals first | exact Except.failsOnly_ok _ | exact Except.failsOnly_error trivial

theorem pick_failsOnly (values : List Value) :
    Except.FailsOnly (Failure.AfterPlan c₀) (q.pick values) := by
  unfold BoundQuery.pick BoundQuery.missing
  repeat' split
  all_goals first | exact Except.failsOnly_ok _ | exact Except.failsOnly_error trivial

theorem planned_outcomeOf (h : ∀ l, Loading.Below q.includes l → l.Sound e.settings.limits)
    (documents : List Document) : (e.outcomeOf q documents).Planned e.settings.limits c₀ := by
  have kept := Connection.kept_sends e.settings.limits c₀
  show (e.outcomeOf q documents).Ends (c₀.Sends e.settings.limits) (Failure.AfterPlan c₀)
  unfold outcomeOf
  refine (ends_ofExcept (checkSingle_failsOnly documents)).bind fun _ => ?_
  refine (ends_valuesOf kept (fun l hl => Loading.planned_fetchChildren (h l hl)) documents).bind
    fun values => ?_
  refine (ends_connected kept.checkCancelled).bind fun _ => ?_
  exact ends_ofExcept (pick_failsOnly values)

/-- A query that cannot be planned fails at once, and nothing is done: the connection and the workspace are
those of the start. -/
theorem executeBound_of_error {f : Failure} {s : RunState}
    (h : q.plan e.settings.limits s.connection.store.nativeOr = .error f) :
    (e.executeBound q).run s = (.error f, s) := by
  have hfetch : (q.fetch e.settings).run s.connection = (.error f, s.connection) := by
    unfold BoundQuery.fetch
    rw [run_bind_state]
    show (Connected.ofExcept (q.plan e.settings.limits s.connection.store.nativeOr) >>= _).run _ = _
    rw [h]
    rfl
  unfold executeBound
  rw [run_bind_state, run_connected, hfetch]

/-- Once a query is planned, its run sends only what conforms. The plan was checked with everything that is
loaded below it, and a query for the last element has an order by which to find it. -/
theorem planned_executeBound {plan : ExecutionPlan}
    (hplan : q.plan e.settings.limits c₀.store.nativeOr = .ok plan) (hlast : q.LastOrdered) :
    (e.executeBound q).Planned e.settings.limits c₀ := by
  have hfetch : (q.fetch e.settings).Planned e.settings.limits c₀ := by
    unfold BoundQuery.fetch
    refine Respects.get_bind fun c hc => ?_
    dsimp only
    rw [hc.nativeOr, hplan]
    exact ExecutionPlan.planned_run (BoundQuery.plan_conforms hplan hlast) _
  obtain ⟨hcheck, -⟩ := BoundQuery.plan_eq_ok.mp hplan
  have hsound := (BoundQuery.check_eq_ok hcheck).2.2
  show (e.executeBound q).Ends (c₀.Sends e.settings.limits) (Failure.AfterPlan c₀)
  unfold executeBound
  refine (ends_connected hfetch).bind fun fetched => ?_
  split
  · exact (ends_ofFault (Connection.kept_sends _ c₀) (reductionValue_failsOnly _)).bind fun _ => ends_pure _
  · exact planned_outcomeOf hsound _

end Engine

end DocumentQuery
