import DocumentQuery.Proofs.Run.Loading

/-!
# Runs are traced

Every run of a bound query, whether it succeeds or not, ends in a state that is recorded by a valid
history (`Execution.exists_history`). A run that succeeds has closed everything it opened, and its values
are those of the documents the query is answered with: for a query for entities, instances that stand
for these documents and on which everything that is included was opened.

A query that includes navigations returns entities; `Execution.Returns` is this condition, which
compilation ensures.

The statements are about every connection that reads the contents of one store, so they hold of disturbed runs
too: a run that fails has a history that stops somewhere, and only `Execution.Finishes` speaks of runs that do
not.
-/

namespace DocumentQuery

namespace Execution

variable {x : Execution} {h : History}

/-- A query that includes navigations returns the entities themselves. With a projection, targets would be
attached to objects that stand for no document, and no event admits that. -/
def Returns (x : Execution) : Prop :=
  x.query.includes = [] ∨ x.query.projection = .entity

/-- What is known of the value of a document in a result: it is noted in the history, and for a query for
entities it is the instance for the document, on which everything that is included was opened. -/
structure Produces (x : Execution) (h : History) (d : Document) (v : Value) : Prop where
  produced : v ∈ h.produced
  entity : x.query.projection = .entity → ∃ id, v = .object id ∧
    h.Represents x.model x.query.entityType d id ∧ ∀ l ∈ x.query.includes, h.Opened id l.label

theorem Produces.mono {d : Document} {v : Value} {h' : History} (hv : x.Produces h d v)
    (hp : h <+: h') : x.Produces h' d v where
  produced := History.produced_subset hp hv.produced
  entity := fun he => by
    obtain ⟨id, rfl, hrepresents, hopened⟩ := hv.entity he
    exact ⟨id, rfl, hrepresents.mono hp, fun l hl => (hopened l hl).mono hp⟩

/-- What is known at the end of a run that succeeds. -/
structure Finishes (x : Execution) (h : History) (outcome : Outcome) : Prop where
  /-- Everything that was opened has its targets attached. -/
  closed : ∀ o ∈ h.openings, ∃ a ∈ h.attachments, a.owner = o.1 ∧ a.loading = o.2
  /-- The outcome is the converted value of a reduction, or what is picked of the values of the documents. -/
  result : (∃ raw value, x.query.outcome x.limits x.store = .ok (.value raw) ∧
      x.engine.reductionValue x.query raw = .ok value ∧ outcome = .scalar value) ∨
    ∃ documents values, x.query.outcome x.limits x.store = .ok (.documents documents) ∧
      List.Forall₂ (x.Produces h) documents values ∧ x.query.pick values = .ok outcome

/-- The result of a document is made of its objects. Whatever the projection, nothing is opened or attached by
it, and a result that is an entity is the instance for the document. -/
theorem traced_projection (hplans : x.KeepsPlans) {item : ShapedItem}
    (hmet : ∀ o ∈ x.query.projection.objects x.query.entityType item, x.Meets o.1 o.2) (h : History) :
    Traced x.Records (x.query.projection.materialize x.model x.query.entityType item) h fun v h' =>
      (∀ id ∈ v.references, id < h'.births.length) ∧ h.Spares h' ∧
        (x.query.projection = .entity →
          ∃ id, v = .object id ∧ h'.StandsFor x.model x.query.entityType item id) := by
  generalize x.query.projection = projection at hmet ⊢
  have hobject : ∀ typeName, x.Meets typeName item → Traced x.Records
      (do let id ← ShapedItem.materialize x.model typeName item; return Value.object id) h fun v h' =>
        (∀ id ∈ v.references, id < h'.births.length) ∧ h.Spares h' ∧
          ∃ id, v = .object id ∧ h'.StandsFor x.model typeName item id := by
    intro typeName hmet
    refine Traced.map (traced_item hplans hmet h) ?_
    rintro id (h' : History) - ⟨hstands, hspares⟩
    refine ⟨fun id' hid' => ?_, hspares, id, rfl, hstands⟩
    rw [Value.references_object, List.mem_singleton] at hid'
    exact hid' ▸ hstands.lt
  -- entities and new objects are made alike, of different types; a single member may be anything
  cases projection with
  | entity =>
    refine (hobject _ (hmet (x.query.entityType, item) List.mem_cons_self)).mono ?_
    rintro v h' - ⟨hlt, hspares, hstands⟩
    exact ⟨hlt, hspares, fun _ => hstands⟩
  | members resultType parts =>
    refine (hobject _ (hmet (resultType, item) List.mem_cons_self)).mono ?_
    rintro v h' - ⟨hlt, hspares, -⟩
    exact ⟨hlt, hspares, fun he => by cases he⟩
  | field member =>
    rw [Projection.materialize]
    simp only [Projection.objects] at hmet
    cases hvalue : item.lookup member.resultName with
    | none =>
      refine Traced.pure ⟨fun id hid => ?_, History.Spares.refl h, fun he => by cases he⟩
      cases hid
    | some value =>
      rw [hvalue] at hmet
      refine (traced_value hplans value hmet h).mono ?_
      rintro v h' - ⟨hmade, hspares, -⟩
      exact ⟨fun id hid => hmade.lt hid, hspares, fun he => by cases he⟩

/-- A value that is produced is noted. The note changes neither the graph nor the connection, so the state is
recorded by the longer history as well. -/
theorem RecordsRun.produced {s : RunState} (hs : x.RecordsRun h s) {v : Value}
    (hv : ∀ id ∈ v.references, id < h.births.length) : x.RecordsRun (h ++ [.produced v]) s where
  workspace := ⟨.snoc hs.workspace.valid hv, by
    rw [History.graph_concat, hs.workspace.graph]
    rfl, hs.workspace.plans⟩
  reads := hs.reads

/-- The value of a document is made and its navigations are loaded. If nothing is included the value may be of
any kind; otherwise it is the instance for the document. -/
theorem traced_valueOf (hplans : x.KeepsPlans) (hreturns : x.Returns) {d : Document}
    (hd : x.IsRoot d) (h : History) :
    Traced x.RecordsRun (x.engine.valueOf x.query d) h fun v h' =>
      x.Produces h' d v ∧ h.Closes h' := by
  unfold Engine.valueOf
  refine Traced.bind traced_runOfExcept ?_
  rintro item _ - ⟨rfl, hitem⟩
  refine Traced.bind (traced_making (traced_projection hplans
    (fun o ho => .root hd hitem ho) h)) ?_
  rintro v (h₁ : History) hp₁ ⟨hlt, hspares, hentity⟩
  refine Traced.note (List.prefix_append h₁ [.produced v]) (fun s hs => hs.produced hlt) ?_
  have hp : h₁ <+: h₁ ++ [.produced v] := List.prefix_append _ _
  have hproduced : v ∈ History.produced (h₁ ++ [.produced v]) := by simp [Event.value?]
  have hcloses : h.Closes (h₁ ++ [.produced v]) := by
    refine hspares.closes.trans hp fun o ho => Or.inl ?_
    simpa [Event.opening?] using ho
  rcases hreturns with hnone | he
  · -- nothing is included
    have hdone : Traced x.RecordsRun (pure v) (h₁ ++ [.produced v]) fun v h' =>
        x.Produces h' d v ∧ h.Closes h' := by
      refine Traced.pure ⟨⟨hproduced, fun he => ?_⟩, hcloses⟩
      obtain ⟨id, rfl, hstands⟩ := hentity he
      rw [he] at hitem
      exact ⟨id, rfl, ⟨item, hitem, hstands.mono hp⟩, fun l hl => by rw [hnone] at hl; cases hl⟩
    rw [hnone]
    cases v.toObject? with
    | none => exact hdone
    | some owner => exact hdone
  · obtain ⟨id, rfl, hstands⟩ := hentity he
    rw [he] at hitem
    have hrepresents : History.Represents x.model (h₁ ++ [.produced (.object id)]) x.query.entityType d id :=
      ⟨item, hitem, hstands.mono hp⟩
    refine Traced.map (traced_loadAll hplans x.query.includes id d _ fun l hl =>
      ⟨x.query.entityType, x.query.includes, .root hd, hl, hrepresents⟩) ?_
    rintro - h₂ hp₂ ⟨hopened, hcloses₂⟩
    exact ⟨⟨History.produced_subset hp₂ hproduced, fun _ => ⟨id, rfl, hrepresents.mono hp₂, hopened⟩⟩,
      hcloses.trans hp₂ hcloses₂⟩

/-- The values of documents are made in order, each going on from the history of those before it. -/
theorem traced_valuesOf (hplans : x.KeepsPlans) (hreturns : x.Returns) (documents : List Document)
    (hroots : ∀ d ∈ documents, x.IsRoot d) (h : History) :
    Traced x.RecordsRun (x.engine.valuesOf x.query documents) h fun values h' =>
      List.Forall₂ (x.Produces h') documents values ∧ h.Closes h' := by
  induction documents generalizing h with
  | nil => exact Traced.pure ⟨.nil, History.Closes.refl h⟩
  | cons d documents ih =>
    refine Traced.bind (traced_valueOf hplans hreturns (hroots d List.mem_cons_self) h) ?_
    rintro v h₁ - ⟨hv, hcloses⟩
    refine Traced.map (ih (fun d hd => hroots d (List.mem_cons_of_mem _ hd)) h₁) ?_
    rintro values h₂ hp₂ ⟨hvalues, hcloses₂⟩
    exact ⟨.cons (hv.mono hp₂) hvalues, hcloses.trans hp₂ hcloses₂⟩

theorem references_reductionValue {e : Engine} {q : BoundQuery} {value : Json} {v : Value}
    (h : e.reductionValue q value = .ok v) : v.references = [] := by
  unfold Engine.reductionValue at h
  split at h
  · cases h
  · obtain ⟨type, -, h⟩ := Except.bind_eq_ok.mp h
    exact ScalarType.references_convert h

/-- A run of the query is traced from the empty history, and one that succeeds has finished. -/
theorem traced_executeBound (hplans : x.KeepsPlans) (hreturns : x.Returns) :
    Traced x.RecordsRun (x.engine.executeBound x.query) [] fun outcome h => x.Finishes h outcome := by
  unfold Engine.executeBound
  refine Traced.bind (traced_connected (x.query.fetch_answers _)) ?_
  rintro fetched _ - ⟨rfl, houtcome⟩
  cases fetched with
  | value value =>
    refine Traced.map traced_runOfExcept ?_
    rintro v _ - ⟨rfl, hv⟩
    exact ⟨fun o ho => (by cases ho), Or.inl ⟨value, v, houtcome, hv, rfl⟩⟩
  | documents documents =>
    refine Traced.bind traced_runOfExcept ?_
    rintro - _ - ⟨rfl, -⟩
    refine Traced.bind (traced_valuesOf hplans hreturns documents
      (fun d hd => ⟨documents, houtcome, hd⟩) []) ?_
    rintro values h₁ - ⟨hvalues, hcloses⟩
    refine Traced.bind (traced_connected Connected.answers_checkCancelled) ?_
    rintro - _ - ⟨rfl, -⟩
    refine traced_runOfExcept.mono ?_
    rintro outcome _ - ⟨rfl, hpick⟩
    refine ⟨fun o ho => (hcloses o ho).resolve_left fun hnone => ?_,
      Or.inr ⟨documents, values, houtcome, hvalues, hpick⟩⟩
    cases hnone

/-- Every run of the query ends in a state that is recorded by a history, and if it succeeds, it has finished.
The plans kept from earlier runs have to be ones that the execution allows for; the connection may be any that
reads the contents of the store. -/
theorem exists_history (hplans : x.KeepsPlans) (hreturns : x.Returns) {c : Connection}
    {plans : PlanCache} (hc : c.Reads x.store) (hkept : ∀ entry ∈ plans.entries, x.plans entry.1 entry.2) :
    ∃ h, x.RecordsRun h ((x.engine.executeBound x.query).run (Engine.start c plans)).2 ∧
      ∀ outcome, ((x.engine.executeBound x.query).run (Engine.start c plans)).1 = .ok outcome →
        x.Finishes h outcome := by
  have hstart : x.RecordsRun [] (Engine.start c plans) := ⟨⟨.nil, rfl, hkept⟩, hc⟩
  obtain ⟨h, -, hrecords, hfinishes⟩ := traced_executeBound hplans hreturns _ hstart
  exact ⟨h, hrecords, hfinishes⟩

end Execution

end DocumentQuery
