import DocumentQuery.Proofs.Compile.Inclusions
import DocumentQuery.Proofs.Compile.Root
import DocumentQuery.Proofs.Run.Execution
import DocumentQuery.Proofs.Store.Contents

/-!
# One instance for each identity

Objects of one type with the same key are one instance, however often they are met and wherever they are
referred to from: the identity map is asked before an object is made, and once more when its members are
made, because one of them may have taken the identity. What holds of the graph at the end of a run says
little, since an instance could be replaced on the way and be restored; the statement here is about the
history of the run. The moments of the run are the beginnings of that history, one for each change that
the run makes to the graph and for each value that it produces. A run that is cancelled or whose call
fails has a history like any other, so the state in which any call leaves the graph is the end of a
history as well.

## Main results

* `Engine.execute_identityUnique` — at every moment of a run of a compiled query
-/

namespace DocumentQuery

namespace Outcome

/-- The values of an outcome. -/
def values : Outcome → List Value
  | .sequence values => values
  | .single value => [value]
  | .scalar value => [value]

/-- The object that comes first in a result, if there is one. -/
def root? (result : Except Failure Outcome) : Option InstanceId :=
  result.toOption.bind fun outcome => outcome.values.head?.bind Value.toObject?

theorem exists_of_root? {result : Except Failure Outcome} {root : InstanceId}
    (h : root? result = some root) : ∃ outcome, result = .ok outcome ∧ .object root ∈ outcome.values := by
  obtain ⟨outcome, houtcome, hfirst⟩ := Option.bind_eq_some_iff.mp h
  obtain ⟨first, hhead, hobject⟩ := Option.bind_eq_some_iff.mp hfirst
  rw [Value.toObject?_eq_some] at hobject
  exact ⟨outcome, Except.mem_toOption.mp houtcome, hobject ▸ List.mem_of_head? hhead⟩

end Outcome

namespace BoundQuery

/-- What is picked is among the values, or it is null. So nothing is returned that the run has not produced. -/
theorem mem_of_pick {q : BoundQuery} {values : List Value} {outcome : Outcome}
    (h : q.pick values = .ok outcome) {v : Value} (hv : v ∈ outcome.values) : v ∈ values ∨ v = .null := by
  unfold pick at h
  split at h
  · cases h
    exact Or.inl hv
  · cases helement : q.element? values with
    | some value =>
      simp only [helement] at h
      cases h
      rw [List.mem_singleton.mp hv]
      refine Or.inl ?_
      unfold element? at helement
      split at helement
      · exact List.mem_of_getLast? helement
      · exact List.mem_of_head? helement
    | none =>
      simp only [helement] at h
      split at h
      · cases h
        exact Or.inr (List.mem_singleton.mp hv)
      · cases h

end BoundQuery

/-! ## People and their places -/

/-- The model of people and of the places where they live and work; places have rooms. -/
def Model.places : Model :=
  ((empty.withType
    ⟨"Person", .entity "people" "Id", [.named "Id" (.scalar .string)],
      [.reference "Home" "Place" "home", .reference "Work" "Place" "work"], []⟩).withType
    ⟨"Place", .entity "places" "Id", [.named "Id" (.scalar .string)],
      [.childCollection "Rooms" "Room" .list "rooms"], []⟩).withType
    ⟨"Room", .entity "rooms" "Id",
      [.named "Id" (.scalar .string), (Property.named "Size" (.scalar .int)).inField "size"], [], []⟩

/-- A person with a home and a place of work, each of which is one of two places; both have a room of the
same name. -/
def Store.places (home work : String) : Store :=
  ((((empty true).insertAll "people"
      [("p", .obj [("home", .str ("places/" ++ home)), ("work", .str ("places/" ++ work))])]).insertAll
    "places" [("a", .obj []), ("b", .obj [])]).insertAll
    "places/a/rooms" [("r", .obj [("size", .int 1)])]).insertAll
    "places/b/rooms" [("r", .obj [("size", .int 2)])]

theorem Store.places_wellFormed (home work : String) : (places home work).WellFormed :=
  ((((wellFormed_empty true).insertAll _ _).insertAll _ _).insertAll _ _).insertAll _ _

/-- The pipeline for people, each with the rooms of both places. -/
def Pipeline.people : Pipeline :=
  ⟨"Person", [.include ⟨"p", .member (.member (.param "p") "Home") "Rooms"⟩,
    .include ⟨"p", .member (.member (.param "p") "Work") "Rooms"⟩]⟩

/-- The template for people, each with the rooms of both places. -/
def Template.people : Template :=
  { Template.all "people" "Person" "Id" with
    includes := [{ Inclusion.plain "Home" with nested := [.plain "Rooms"] },
      { Inclusion.plain "Work" with nested := [.plain "Rooms"] }] }

/-- The rooms of a place. -/
def Loading.rooms : Loading :=
  ⟨.childCollection "Rooms" "Room" .list "rooms", "Room", [], [], none, none, []⟩

/-- The query for people, each with the rooms of both places. -/
def BoundQuery.people : BoundQuery where
  collection := "people"
  entityType := "Person"
  keyProperty := "Id"
  access := .collection []
  orderBy := []
  limit := none
  limitToLast := none
  skip := none
  aggregation := none
  cardinality := .sequence
  projection := .entity
  includes :=
    [⟨.reference "Home" "Place" "home", "Place", [], [], none, none, [.rooms]⟩,
      ⟨.reference "Work" "Place" "work", "Place", [], [], none, none, [.rooms]⟩]

/-! ## What compilation ensures -/

namespace Engine

variable {e : Engine} {pipeline : Pipeline} {template : Template} {bindings : Bindings} {q : BoundQuery}

/-- A compiled query that includes navigations returns the entities themselves. A projection beside includes
is refused by the compiler, so navigations are never loaded on something that is not returned. -/
theorem returns_of_compile (hcompile : e.compile pipeline = .ok template)
    (hbind : template.bind e.model bindings = .ok q) (s : Store)
    (kept : String → InstancePlan → Prop) : (⟨e, q, s, kept⟩ : Execution).Returns := by
  have hbound := Template.bind_eq_ok hbind
  refine (compile_spec hcompile).2.imp (fun hnone => ?_) fun hentity => hbound.projection.trans hentity
  have hincludes := hbound.includes
  rw [hnone] at hincludes
  exact (Except.ok.inj hincludes).symm

/-- The includes of a compiled query are bound on the entity type that it is about. Binding resolves every
name against the type at the end of the path before it. -/
theorem bound_of_compile (hcompile : e.compile pipeline = .ok template)
    (hbind : template.bind e.model bindings = .ok q) {kind : List Inclusion → Prop}
    (hkind : kind template.includes) :
    Inclusion.Bound e.model bindings kind q.entityType q.includes := by
  have hbound := Template.bind_eq_ok hbind
  obtain ⟨type, hnamed, hname⟩ := Pipeline.entityNamed_of_compile (compile_spec hcompile).1
  rw [hbound.entityType]
  exact ⟨hname ▸ Model.namesEntity_of_entityNamed hnamed, template.includes, hkind, hbound.includes⟩

/-- A run of a compiled query is a run of the query that it is bound to, which is recorded: there is a valid
history that ends in the graph of the run, and if the run succeeds the history finishes with its outcome. -/
theorem exists_history (hcompile : e.compile pipeline = .ok template)
    (hbind : template.bind e.model bindings = .ok q) (c : Connection) (plans : PlanCache)
    (kept : String → InstancePlan → Prop) (hplans : (⟨e, q, c.store, kept⟩ : Execution).KeepsPlans)
    (hkept : ∀ entry ∈ plans.entries, kept entry.1 entry.2) :
    ∃ h, (⟨e, q, c.store, kept⟩ : Execution).Valid h ∧
      h.graph = ((e.execute template bindings).run (start c plans)).2.workspace.graph ∧
      ∀ outcome, ((e.execute template bindings).run (start c plans)).1 = .ok outcome →
        (⟨e, q, c.store, kept⟩ : Execution).Finishes h outcome := by
  have hrun : (e.execute template bindings).run (start c plans) =
      (e.executeBound q).run (start c plans) := by
    unfold execute
    rw [run_bind_state, hbind]
    rfl
  rw [hrun]
  obtain ⟨h, hrecords, hfinishes⟩ := Execution.exists_history hplans
    (returns_of_compile hcompile hbind c.store kept) c.reads_store hkept
  exact ⟨h, hrecords.workspace.valid, hrecords.workspace.graph.symm, hfinishes⟩

end Engine

/-! ## The result -/

namespace Execution

variable {x : Execution} {h : History} {outcome : Outcome}

/-- The result of a run refers to what the values produced refer to, so everything that is shown of it can be
reached from these values. -/
theorem Finishes.references (hf : x.Finishes h outcome) {v : Value} (hv : v ∈ outcome.values)
    {id : InstanceId} (hid : id ∈ v.references) : h.graph.Reachable h.produced id := by
  rcases hf.result with ⟨raw, value, -, hvalue, rfl⟩ | ⟨documents, values, -, hvalues, hpick⟩
  · rw [List.mem_singleton.mp hv, references_reductionValue hvalue] at hid
    cases hid
  · rcases BoundQuery.mem_of_pick hpick hv with hv | rfl
    · obtain ⟨d, -, hproduces⟩ := exists_of_forall₂ hvalues.flip hv
      exact .value hproduces.produced hid
    · cases hid

/-- An object in the result is that of a document the query is answered with. -/
theorem Finishes.root (hf : x.Finishes h outcome) {root : InstanceId}
    (hroot : .object root ∈ outcome.values) : ∃ d, x.IsRoot d ∧ x.Produces h d (.object root) := by
  rcases hf.result with ⟨raw, value, -, hvalue, rfl⟩ | ⟨documents, values, hdocuments, hvalues, hpick⟩
  · have hnone := references_reductionValue hvalue
    rw [← List.mem_singleton.mp hroot, Value.references_object] at hnone
    cases hnone
  · rcases BoundQuery.mem_of_pick hpick hroot with hroot | hnull
    · obtain ⟨d, hd, hproduces⟩ := exists_of_forall₂ hvalues.flip hroot
      exact ⟨d, ⟨documents, hdocuments, hd⟩, hproduces⟩
    · cases hnull

end Execution

namespace Engine

/-- A run of a compiled query has one instance for each identity at every moment, and an entry of its identity
map is never replaced.

The history carries the statement. It is valid, which says that each of its events was admitted after those
before it, it replays to the graph of the run, and what the run returns can be reached from the values it
produced; the moments are its beginnings, and uniqueness is said of each. The connection is any: it may be
disturbed or cancelled, and the run may fail, in which case the history ends where the run did. That the
template was compiled is needed because includes below a projection would attach targets to instances that
stand for no document. -/
theorem execute_identityUnique (e : Engine) {pipeline : Pipeline} {template : Template}
    (hcompile : e.compile pipeline = .ok template) (bindings : Bindings) (c : Connection)
    (plans : PlanCache) :
    ∃ h : History,
      h.graph = ((e.execute template bindings).run (start c plans)).2.workspace.graph ∧
      (∀ q, template.bind e.model bindings = .ok q →
        (⟨e, q, c.store, fun _ _ => True⟩ : Execution).Valid h) ∧
      (∀ outcome, ((e.execute template bindings).run (start c plans)).1 = .ok outcome →
        ∀ v ∈ outcome.values, ∀ id ∈ v.references, h.graph.Reachable h.produced id) ∧
      ∀ h₁ h₂ : History, h₁ <+: h₂ → h₂ <+: h →
        h₁.graph.IdentityUnique h₁.produced ∧
        ∀ typeName key id, h₁.graph.find? typeName key = some id →
          h₂.graph.find? typeName key = some id := by
  cases hbind : template.bind e.model bindings with
  -- nothing is run for parameters that do not fit, and nothing is in the history
  | error fault =>
    have hrun : (e.execute template bindings).run (start c plans) =
        (.error (.query fault), start c plans) := by
      unfold execute
      rw [run_bind_state, hbind]
      rfl
    rw [hrun]
    refine ⟨[], rfl, fun q hq => (by cases hq), fun outcome ho => (by cases ho), ?_⟩
    intro h₁ h₂ hp hp'
    obtain rfl := List.prefix_nil.mp hp'
    obtain rfl := List.prefix_nil.mp hp
    exact ⟨History.identityUnique .nil, fun _ _ _ hfound => hfound⟩
  | ok q =>
    obtain ⟨h, hvalid, hgraph, hfinishes⟩ := exists_history hcompile hbind c plans (fun _ _ => True)
      (fun _ _ _ _ _ => trivial) fun _ _ => trivial
    refine ⟨h, hgraph, fun q' hq' => ?_, fun outcome ho v hv id hid => ?_, ?_⟩
    · cases hq'
      exact hvalid
    · exact (hfinishes outcome ho).references hv hid
    · intro h₁ h₂ hp hp'
      have hearlier := hvalid.grounded.earlier hp'
      exact ⟨History.identityUnique (hearlier.earlier hp), fun _ _ _ => History.find?_stays hearlier hp⟩

/-- Somebody who works at home: both references lead to one place, and its room is one instance. So there are
three instances in the end, and one for each identity all along. -/
theorem execute_identityUnique_people :
    ∃ h : History,
      h.graph = (((⟨.places, .standard⟩ : Engine).execute .people []).run
        (start (.ofStore (.places "a" "a")) (.ofCapacity 10))).2.workspace.graph ∧
      h.graph.instances.size = 3 ∧
      ∀ h₁ h₂ : History, h₁ <+: h₂ → h₂ <+: h →
        h₁.graph.IdentityUnique h₁.produced ∧
        ∀ typeName key id, h₁.graph.find? typeName key = some id →
          h₂.graph.find? typeName key = some id := by
  obtain ⟨h, hgraph, -, -, hmoments⟩ := execute_identityUnique ⟨.places, .standard⟩
    (rfl : compile ⟨.places, .standard⟩ .people = .ok .people) []
    (.ofStore (.places "a" "a")) (.ofCapacity 10)
  have hsize : (((⟨.places, .standard⟩ : Engine).execute .people []).run
      (start (.ofStore (.places "a" "a")) (.ofCapacity 10))).2.workspace.graph.instances.size = 3 := by
    decide +kernel
  exact ⟨h, hgraph, hgraph ▸ hsize, hmoments⟩

end Engine

end DocumentQuery
