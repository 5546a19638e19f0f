import DocumentQuery.Proofs.Compile.Root
import DocumentQuery.Proofs.Run.Identity
import DocumentQuery.Proofs.Run.Sending

/-!
# Queries that are refused, and queries that are sent

A compiled query is refused before anything is done, or not at all: a run that fails because of its query
leaves the state in which it starts, and what is loaded is planned without fail once the query is
(`Engine.execute_refused`). Every query that a run sends keeps to the rules of the store, so the store
rejects none of them (`Engine.execute_conforms`).

Both rest on one case distinction (`Engine.execute_cases`): a compiled query either cannot be bound or
planned, and then nothing has been done when this is noticed, or it is planned, and from there on the run
keeps to `Run.Planned`. Compiling is needed for one thing only. The last element of a query needs an order,
and it is the compiler that refuses to leave it out.
-/

namespace DocumentQuery

/-- The failures of queries that cannot be planned. No call has a part in them, so they are known before the
store is asked for anything. -/
def Failure.IsRefusal : Failure → Prop
  | .query _ => True
  | .materialization _ => True
  | _ => False

open DocumentQuery.Except (FailsOnly failsOnly_ok failsOnly_error)

theorem Aggregation.prepare_failsOnly (a : Aggregation) (s : Selection) :
    FailsOnly Failure.IsRefusal (a.prepare s) := by
  have hsummation (native : StoreReduction) : FailsOnly Failure.IsRefusal (a.summation s native) := by
    unfold summation
    repeat' split
    all_goals first | exact failsOnly_ok _ | exact failsOnly_error trivial
  unfold prepare
  repeat' split
  all_goals first | exact failsOnly_ok _ | exact hsummation _ | exact failsOnly_error trivial

theorem BoundQuery.plan_failsOnly (limits : QueryLimits) (nativeOr : Bool) (q : BoundQuery) :
    FailsOnly Failure.IsRefusal (q.plan limits nativeOr) := by
  have hquery {α : Type} (r : Except QueryError α) :
      FailsOnly Failure.IsRefusal (r.mapError Failure.query) := by
    have hall : FailsOnly (fun _ => True) r := fun _ _ => trivial
    exact hall.mapError fun _ _ => trivial
  have hreduction : FailsOnly Failure.IsRefusal q.reduction := by
    unfold BoundQuery.reduction
    split
    · exact failsOnly_ok _
    · exact Aggregation.prepare_failsOnly _ _
  refine (hquery _).bind fun _ _ => hreduction.bind fun _ _ => ?_
  exact (hquery _).bind fun _ _ => failsOnly_ok _

namespace Engine

variable {e : Engine} {pipeline : Pipeline} {t : Template} {bindings : Bindings} {q : BoundQuery}

/-- A compiled query for the last element is ordered when it is bound. Without an order the pipeline would not
have been compiled, and binding keeps the order as it is. -/
theorem lastOrdered_of_compile (ht : e.compile pipeline = .ok t)
    (hbind : t.bind e.model bindings = .ok q) : q.LastOrdered := by
  have hbound := Template.bind_eq_ok hbind
  intro orDefault hlast
  rw [hbound.orderBy]
  exact Pipeline.ordered_of_last (compile_spec ht).1 (hbound.cardinality.symm.trans hlast)

/-- A run of a compiled query fails because the query cannot be bound or planned, and then nothing is
done, or its query is planned, and the run goes on as a planned one. -/
theorem execute_cases (ht : e.compile pipeline = .ok t) (bindings : Bindings) (s : RunState) :
    (∃ f, f.IsRefusal ∧ (e.execute t bindings).run s = (.error f, s)) ∨
      ∃ q plan, t.bind e.model bindings = .ok q ∧
        q.plan e.settings.limits s.connection.store.nativeOr = .ok plan ∧
        (e.execute t bindings).Planned e.settings.limits s.connection := by
  unfold execute
  cases hbind : t.bind e.model bindings with
  | error f => exact Or.inl ⟨.query f, trivial, rfl⟩
  | ok q =>
    cases hplan : q.plan e.settings.limits s.connection.store.nativeOr with
    | error f =>
      exact Or.inl ⟨f, q.plan_failsOnly _ _ f hplan, executeBound_of_error hplan⟩
    | ok plan =>
      refine Or.inr ⟨q, plan, rfl, hplan, ?_⟩
      exact planned_executeBound hplan (lastOrdered_of_compile ht hbind)

/-- Every query that a run of a compiled query sends keeps to the rules of the store: the lists of candidates
keep to the limits, inequalities are on one field, which leads the ordering if there is one, only an ordered
query is cut to its last documents, and a store without disjunctions is sent none. Hence the store rejects
none of them, and a run fails because of a rejection only where the connection is disturbed by one.

That the template was compiled carries the part about last documents. The rest holds of every template, since
a query is checked against the limits whenever it is planned. The store, the connection and the plans that are
kept are any, and the queries are those of the whole run, the nested ones included. -/
theorem execute_conforms (ht : e.compile pipeline = .ok t) (bindings : Bindings) (c : Connection)
    (plans : PlanCache) :
    ∃ sent,
      ((e.execute t bindings).run (start c plans)).2.connection.store.queries =
        c.store.queries ++ sent ∧
      (∀ q ∈ sent, q.Conforms e.settings.limits c.store.nativeOr ∧ c.store.rejection? q = none) ∧
      ∀ reason, ((e.execute t bindings).run (start c plans)).1 = .error (.store (.rejected reason)) →
        ∃ n disturbance, c.disturbed = some (n, disturbance) ∧
          disturbance.failure? = some (.store (.rejected reason)) := by
  rcases execute_cases ht bindings (start c plans) with ⟨f, hrefusal, hrun⟩ | ⟨q, plan, -, -, hplanned⟩
  · rw [hrun]
    refine ⟨[], (List.append_nil _).symm, fun _ hq => (nomatch hq), fun reason hreason => ?_⟩
    rw [Except.error.inj hreason] at hrefusal
    exact hrefusal.elim
  · obtain ⟨⟨-, -, sent, hsent, hconforms⟩, -, hfails⟩ :=
      hplanned (start c plans) (Connection.Sends.refl _ c)
    exact ⟨sent, hsent, fun sq hsq => ⟨hconforms sq hsq, (hconforms sq hsq).rejection?_eq_none⟩,
      fun reason hreason => hfails _ hreason⟩

/-- The engine for notes, with a limit on disjunctions. -/
def notes (maxDisjunctions : Nat) : Engine :=
  ⟨Model.notes, { Settings.standard with limits := ⟨30, 10, maxDisjunctions⟩ }⟩

/-- The pipeline for the last note, by rank, that has a positive rank and one of two tags. -/
def lastTagged : Pipeline :=
  ⟨"Note",
    [.filter ⟨"n", .binary .orElse (.equalTo (.member (.param "n") "Tag") (.str "x"))
        (.equalTo (.member (.param "n") "Tag") (.str "y"))⟩,
      .filter ⟨"n", .binary .greaterThan (.member (.param "n") "Rank") (.constant (.int 0))⟩,
      .orderBy ⟨"n", .member (.param "n") "Rank"⟩ false, .element .last false none]⟩

/-- The template of `lastTagged`. -/
def lastTaggedTemplate : Template :=
  { Template.all "notes" "Note" "Id" with
    filters :=
      [.or [.clause ⟨⟨"tag", "Tag", .scalar .string, false, none⟩, .equalTo, .constant (.str "x")⟩,
          .clause ⟨⟨"tag", "Tag", .scalar .string, false, none⟩, .equalTo, .constant (.str "y")⟩],
        .clause ⟨⟨"rank", "Rank", .scalar .int, false, none⟩, .greaterThan, .constant (.int 0)⟩]
    orderBy := [⟨⟨"rank", "Rank", .scalar .int, false, none⟩, .ascending⟩]
    cardinality := .last false }

theorem compile_lastTagged (maxDisjunctions : Nat) :
    (notes maxDisjunctions).compile lastTagged = .ok lastTaggedTemplate :=
  rfl

/-- On a store without disjunctions, the last note with one of two tags takes several queries; none of them is
rejected. -/
theorem execute_conforms_lastTagged :
    (notes 2).compile lastTagged = .ok lastTaggedTemplate ∧ ∃ sent,
      (((notes 2).execute lastTaggedTemplate []).run
        (start (.ofStore (Store.notes false)) default)).2.connection.store.queries = [] ++ sent ∧
      (∀ q ∈ sent, q.Conforms ⟨30, 10, 2⟩ false ∧ (Store.notes false).rejection? q = none) ∧
      ∀ reason, (((notes 2).execute lastTaggedTemplate []).run
          (start (.ofStore (Store.notes false)) default)).1 = .error (.store (.rejected reason)) →
        ∃ n disturbance, (none : Option (Nat × Disturbance)) = some (n, disturbance) ∧
          disturbance.failure? = some (.store (.rejected reason)) :=
  ⟨rfl, execute_conforms (compile_lastTagged 2) [] (.ofStore (Store.notes false)) default⟩

/-- A run of a compiled query that fails because the query is refused, for another cause than a type that the
model lacks, has done nothing: it ends in the state in which it started, and the store was not called. Once
the query is planned, everything that is loaded below it passes the same checks, and the calls for it can be
planned for every collection.

A missing type has to be left out, because types are looked up once more when documents are shaped, after
calls were made; every other refusal is found in binding or planning. The second half is why no refusal can
come later: what is checked for a nested navigation does not depend on the record that it is loaded for. -/
theorem execute_refused (ht : e.compile pipeline = .ok t) (bindings : Bindings) (c : Connection)
    (plans : PlanCache) :
    (∀ error, ((e.execute t bindings).run (start c plans)).1 = .error (.query error) →
        (∀ name, error ≠ .unknownType name) →
          ((e.execute t bindings).run (start c plans)).2 = start c plans) ∧
      ∀ q plan, t.bind e.model bindings = .ok q →
        q.plan e.settings.limits c.store.nativeOr = .ok plan → ∀ l, Loading.Below q.includes l →
          e.settings.limits.checkConditions l.conditions l.orderBy = .ok () ∧
            ∀ collection, ∃ source,
              Source.ofSelection e.settings.limits c.store.nativeOr collection l.childSelection =
                .ok source := by
  refine ⟨fun error herror hknown => ?_, fun q plan _ hplan l hl => ?_⟩
  · rcases execute_cases ht bindings (start c plans) with ⟨f, -, hrun⟩ | ⟨q, plan, -, -, hplanned⟩
    · exact congrArg Prod.snd hrun
    · obtain ⟨-, -, hfails⟩ := hplanned (start c plans) (Connection.Sends.refl _ c)
      obtain ⟨name, hname⟩ := hfails _ herror
      exact absurd hname (hknown name)
  · obtain ⟨hcheck, -⟩ := BoundQuery.plan_eq_ok.mp hplan
    have hsound := (BoundQuery.check_eq_ok hcheck).2.2 l hl
    exact ⟨hsound.checked, hsound.exists_source c.store.nativeOr⟩

/-- Under a limit of one conjunction the two tags are refused at once; the rooms of places are planned. -/
theorem execute_refused_lastTagged :
    ((notes 1).compile lastTagged = .ok lastTaggedTemplate ∧
      (((notes 1).execute lastTaggedTemplate []).run
        (start (.ofStore (Store.notes false)) default)).1 =
          .error (.query (.unsupported (.tooManyDisjuncts 2 1))) ∧
      (((notes 1).execute lastTaggedTemplate []).run
        (start (.ofStore (Store.notes false)) default)).2 =
          start (.ofStore (Store.notes false)) default) ∧
    (⟨Model.places, .standard⟩ : Engine).compile .people = .ok .people ∧
      Template.people.bind Model.places [] = .ok .people ∧ ∀ collection, ∃ source,
        Source.ofSelection .standard true collection Loading.rooms.childSelection = .ok source := by
  have hrefused := execute_refused (compile_lastTagged 1) [] (.ofStore (Store.notes false)) default
  have hpeople : (⟨Model.places, .standard⟩ : Engine).compile .people = .ok .people := rfl
  have hplanned := execute_refused hpeople [] (.ofStore (Store.places "a" "b")) default
  have hrooms : Loading.Below BoundQuery.people.includes Loading.rooms :=
    .child (.here List.mem_cons_self) List.mem_cons_self
  refine ⟨⟨rfl, rfl, ?_⟩, rfl, rfl, ?_⟩
  · exact hrefused.1 (.unsupported (.tooManyDisjuncts 2 1)) rfl nofun
  · exact (hplanned.2 BoundQuery.people _ rfl rfl Loading.rooms hrooms).2

end Engine

end DocumentQuery
