import DocumentQuery.Proofs.Run.Identity
import DocumentQuery.Proofs.Run.Paths
import DocumentQuery.Proofs.Run.Twins

/-!
# The order of siblings

A query returns the same whichever of two siblings of its include tree comes first, as long as the order
decides nothing (`Execution.Determined`). When siblings load one navigation of a shared instance under
different restrictions it does decide something: the navigation holds the targets of the sibling that was
loaded last (`Engine.executeBound_restrictedRooms`).

The two runs are compared at their ends, through what was requested and answered in each of them: neither is
followed step by step, and neither has to start with the same plans or to be free of disturbances. What makes
the comparison possible is `Execution.Determined`, which leaves no choice to the order, and that both runs
succeed, since a run that fails shows nothing.

## Main results

* `Engine.executeBound_shuffled` — runs of a query with its includes in two orders return the same
-/

namespace DocumentQuery

namespace BoundQuery

theorem map_element? (q : BoundQuery) (values : List Value) (f : Value → Json) :
    (q.element? values).map f =
      match q.cardinality with
      | .last _ => (values.map f).getLast?
      | _ => (values.map f).head? := by
  unfold element?
  cases q.cardinality <;> simp

/-- What is picked of values that are shown alike is shown alike. The same element is picked on both sides,
because picking looks at positions only. -/
theorem toJson_of_pick {q : BoundQuery} {g g' : Graph} {values values' : List Value}
    (hvalues : values.map g.render = values'.map g'.render) {outcome outcome' : Outcome}
    (h : q.pick values = .ok outcome) (h' : q.pick values' = .ok outcome') :
    outcome.toJson g = outcome'.toJson g' := by
  have helement : (q.element? values).map g.render = (q.element? values').map g'.render := by
    rw [map_element?, map_element?, hvalues]
  unfold pick at h h'
  split at h
  next hsequence =>
    rw [if_pos hsequence] at h'
    cases h
    cases h'
    exact congrArg Json.arr hvalues
  next hsequence =>
    rw [if_neg hsequence] at h'
    cases hfirst : q.element? values with
    | some value =>
      rw [hfirst] at h helement
      obtain ⟨value', hfirst', hvalue⟩ := Option.map_eq_some_iff.mp helement.symm
      rw [hfirst'] at h'
      cases h
      cases h'
      exact hvalue.symm
    | none =>
      rw [hfirst] at h helement
      rw [Option.map_eq_none_iff.mp helement.symm] at h'
      cases hnone : q.allowsNone with
      | true =>
        simp only [hnone, if_true] at h h'
        cases h
        cases h'
        simp only [Outcome.toJson, Graph.render, Value.toJsonWith]
      | false =>
        simp only [hnone, Bool.false_eq_true, if_false] at h
        cases h

end BoundQuery

namespace Execution

namespace Sides

variable {x x' : Execution} {h h' : History}

/-- The values of a document are shown alike. Each of them is an object for the document, with the fields that
its own plan gives it and the targets that were attached, and the graphs agree on both. -/
theorem render_eq (hs : Sides x x' h h') {d : Document} (hd : x.IsRoot d) {v v' : Value}
    (hv : x.Produces h d v) (hv' : x'.Produces h' d v') : h.graph.render v = h'.graph.render v' := by
  obtain ⟨id, rfl, hrepresents, -⟩ := hv.entity hs.entity
  obtain ⟨id', rfl, hrepresents', -⟩ := hv'.entity hs.symm.entity
  have hkeyed := hs.determined.not_keyless (.root hd) hrepresents
  obtain ⟨item, hitem, hstands⟩ := hrepresents
  obtain ⟨item', hitem', hstands'⟩ := hrepresents'
  have htype : x'.query.entityType = x.query.entityType := by rw [hs.siblings.query]
  rw [hs.siblings.model, htype] at hitem' hstands'
  cases hitem.symm.trans hitem'
  have hshaped : x.query.projection.shape x.model x.query.entityType d = .ok item := by
    rw [hs.entity]
    exact hitem
  have hobject : (x.query.entityType, item) ∈ x.query.projection.objects x.query.entityType item := by
    rw [hs.entity]
    exact List.mem_singleton.mpr rfl
  have htwin : x.Twin h h' id id' := ⟨_, item, .root hd hshaped hobject, hstands, hstands'⟩
  refine hs.twins.render_eq (.object htwin) fun id' hid' => ?_
  rw [Value.references_object, List.mem_singleton] at hid'
  exact hid' ▸ hkeyed

/-- Both runs return the same: they make values of the same documents in the same order, and of these values
they pick the same. -/
theorem toJson_eq (hs : Sides x x' h h') {outcome outcome' : Outcome} (hf : x.Finishes h outcome)
    (hf' : x'.Finishes h' outcome') : outcome.toJson h.graph = outcome'.toJson h'.graph := by
  have hquery := hs.siblings.query
  have houtcome := hs.siblings.outcome_eq
  rcases hf.result with ⟨raw, value, hraw, hvalue, rfl⟩ | ⟨documents, values, hdocuments, hvalues, hpick⟩
  · rcases hf'.result with ⟨raw', value', hraw', hvalue', rfl⟩ | ⟨documents', values', hdocuments', -⟩
    · cases houtcome.symm.trans hraw' |>.symm.trans hraw
      rw [hquery, hs.siblings.engine] at hvalue'
      cases hvalue.symm.trans hvalue'
      exact hs.twins.render_eq (.of_references_eq_nil (references_reductionValue hvalue)) fun id hid => by
        rw [references_reductionValue hvalue] at hid
        cases hid
    · cases houtcome.symm.trans hdocuments' |>.symm.trans hraw
  · rcases hf'.result with ⟨raw', value', hraw', -⟩ | ⟨documents', values', hdocuments', hvalues', hpick'⟩
    · cases houtcome.symm.trans hraw' |>.symm.trans hdocuments
    · cases houtcome.symm.trans hdocuments' |>.symm.trans hdocuments
      rw [hquery] at hpick'
      refine BoundQuery.toJson_of_pick ?_ hpick hpick'
      obtain ⟨pairs, rfl, rfl, hpairs⟩ := exists_pairs_of_forall₂ hvalues hvalues'
      rw [List.map_map, List.map_map]
      refine List.map_congr_left fun p hp => ?_
      obtain ⟨d, hd, hproduces, hproduces'⟩ := hpairs p hp
      exact hs.render_eq ⟨documents, hdocuments, hd⟩ hproduces hproduces'

end Sides

end Execution

/-! ## The places of people in either order -/

namespace Execution

variable {kept : String → InstancePlan → Prop} {typeName : String} {item : ShapedItem}

/-- The objects that are met where somebody works at home: the person, the one place that is home and place of
work, and its room. -/
def peopleItems : List (String × ShapedItem) :=
  [("Person", [("Id", ⟨.scalar .string, .str "p", .scalar⟩)]),
    ("Place", [("Id", ⟨.scalar .string, .str "a", .scalar⟩)]),
    ("Room", [("Id", ⟨.scalar .string, .str "r", .scalar⟩), ("Size", ⟨.scalar .int, .int 1, .scalar⟩)])]

/-- The plans for these objects. -/
def PeoplePlans (key : String) (plan : InstancePlan) : Prop :=
  ∃ typeName item, peopleItems.lookup typeName = some item ∧
    PlanCache.key typeName item.names = key ∧ InstancePlan.build .places typeName item.names = .ok plan

theorem shape_people {loadings : List Loading} {d : Document}
    (hr : (people kept).Reaches typeName loadings d)
    (hitem : d.shapeEntity .places typeName = .ok item) : peopleItems.lookup typeName = some item := by
  have hcases := mem_of_lookup (reaches_people hr)
  simp only [List.mem_cons, Prod.mk.injEq, List.not_mem_nil, or_false] at hcases
  rcases hcases with ⟨rfl, -, rfl⟩ | ⟨rfl, -, rfl⟩ | ⟨rfl, -, rfl⟩ <;> cases hitem <;> rfl

/-- Only these objects are met. -/
theorem meets_people (h : (people kept).Meets typeName item) :
    peopleItems.lookup typeName = some item := by
  induction h with
  | root hd hitem hobject =>
    rw [List.mem_singleton.mp hobject]
    exact shape_people (.root hd) hitem
  | target hr hl answered hd hitem => exact shape_people (.target hr hl answered hd) hitem
  | embedded _ hvalue hobject ih =>
    have hscalar : ∀ object ∈ peopleItems, ∀ member ∈ object.2, member.2.objects = [] := by
      simp only [peopleItems, List.forall_mem_cons, ShapedValue.objects]
      simp
    rw [hscalar _ (mem_of_lookup ih) _ hvalue] at hobject
    cases hobject

/-- Where somebody works at home, the order of the places decides nothing. Both navigations lead to one place,
and they load the same rooms on it under the same restrictions, which are none. -/
theorem determined_people : (people PeoplePlans).Determined where
  toUnambiguous := unambiguous_of_plain (Model.keyed_of_forall (by decide))
    (Engine.bound_of_compile (rfl : Engine.compile ⟨.places, .standard⟩ .people = .ok .people)
      (rfl : Template.people.bind .places [] = .ok .people) rfl)
    fun typeName loadings loadings' d d' hr hr' _ =>
      congrArg Prod.snd (Option.some.inj ((reaches_people hr).symm.trans (reaches_people hr')))
  object typeName item item' key hm hm' _ _ :=
    Option.some.inj ((meets_people hm).symm.trans (meets_people hm'))
  plan typeName item plan hm := by
    have hitem := meets_people hm
    refine ⟨?_, fun hplan => ⟨typeName, item, hitem, rfl, hplan⟩⟩
    rintro ⟨typeName', item', hitem', hkey, hplan⟩
    have hnames : ∀ object ∈ peopleItems, ':' ∉ object.1.toList := by decide
    have htype := congrArg (fun key : String => key.toList.takeWhile (· != ':')) hkey
    simp only [PlanCache.takeWhile_key (hnames _ (mem_of_lookup hitem)),
      PlanCache.takeWhile_key (hnames _ (mem_of_lookup hitem'))] at htype
    obtain rfl := String.toList_inj.mp htype
    cases hitem.symm.trans hitem'
    exact hplan

end Execution

/-! ## The result -/

namespace Engine

/-- A query whose run succeeds is answered: whatever the connection, there is an answer from the contents of
its store, which is what the run has fetched. -/
theorem answered_of_run {e : Engine} {q : BoundQuery} {c : Connection} {plans : PlanCache}
    {outcome : Outcome} (hrun : ((e.executeBound q).run (start c plans)).1 = .ok outcome) :
    ∃ fetched, q.outcome e.settings.limits c.store = .ok fetched := by
  obtain ⟨-, hresult, -⟩ := q.fetch_answers e.settings c c.reads_store
  unfold executeBound at hrun
  rw [run_bind_state] at hrun
  rcases hfetch : (Run.connected (q.fetch e.settings)).run (start c plans) with ⟨fetched | fetched, s⟩
  · rw [hfetch] at hrun
    cases hrun
  · exact ⟨fetched, hresult fetched (congrArg Prod.fst hfetch)⟩

/-- Runs of a query with its includes in two orders return the same, if the order decides nothing. The runs
may be on different connections to stores with the same contents, with different plans kept from earlier runs,
and disturbed as they may be, as long as both succeed.

The hypothesis that carries this is `Execution.Determined`: the answers for one navigation of a shared
instance agree whichever sibling loads it. Without it the statement fails (`executeBound_restrictedRooms`).
The includes must not be empty because a compiled query with includes returns the entities themselves, and
only values which are entities are compared here. -/
theorem executeBound_shuffled {e : Engine} {pipeline : Pipeline} {template : Template}
    (hcompile : e.compile pipeline = .ok template) {bindings : Bindings} {q : BoundQuery}
    (hbind : template.bind e.model bindings = .ok q) (hincludes : q.includes ≠ [])
    {includes : List Loading} (hshuffled : Loading.Shuffled q.includes includes) {c c' : Connection}
    (hstore : c'.store = c.store) {kept : String → InstancePlan → Prop} {plans plans' : PlanCache}
    (hkept : ∀ entry ∈ plans.entries, kept entry.1 entry.2)
    (hkept' : ∀ entry ∈ plans'.entries, kept entry.1 entry.2)
    (hdetermined : (⟨e, q, c.store, kept⟩ : Execution).Determined) {outcome outcome' : Outcome}
    (hrun : ((e.executeBound q).run (start c plans)).1 = .ok outcome)
    (hrun' : ((e.executeBound { q with includes := includes }).run (start c' plans')).1 = .ok outcome') :
    outcome.toJson ((e.executeBound q).run (start c plans)).2.workspace.graph =
      outcome'.toJson
        ((e.executeBound { q with includes := includes }).run (start c' plans')).2.workspace.graph := by
  let x : Execution := ⟨e, q, c.store, kept⟩
  let x' : Execution := ⟨e, { q with includes := includes }, c.store, kept⟩
  have hanswered' := answered_of_run hrun'
  have hreads' := c'.reads_store
  rw [hstore] at hanswered' hreads'
  have hsiblings : x.Siblings x' :=
    ⟨rfl, rfl, rfl, rfl, hshuffled, answered_of_run hrun, hanswered'⟩
  have hentity : x.query.projection = .entity :=
    (returns_of_compile hcompile hbind c.store kept).resolve_left hincludes
  obtain ⟨h, hrecords, hfinishes⟩ := Execution.exists_history hdetermined.keepsPlans
    (.inr hentity) c.reads_store hkept
  obtain ⟨h', hrecords', hfinishes'⟩ := Execution.exists_history (x := x')
    (hsiblings.determined hdetermined).keepsPlans (.inr hentity) hreads' hkept'
  -- from here on only the two histories are compared, not the runs
  have hsides : Execution.Sides x x' h h' := ⟨hsiblings, hdetermined, hentity, hrecords.workspace.valid,
    hrecords'.workspace.valid, ⟨outcome, hfinishes outcome hrun⟩, ⟨outcome', hfinishes' outcome' hrun'⟩⟩
  have hgraph := hrecords.workspace.graph
  have hgraph' := hrecords'.workspace.graph
  rw [hgraph, hgraph']
  exact hsides.toJson_eq (hfinishes outcome hrun) (hfinishes' outcome' hrun')

/-- A query with its includes in the opposite order. -/
def opposite (q : BoundQuery) : BoundQuery :=
  { q with includes := q.includes.reverse }

/-- A run where somebody works at home. -/
def runAtHome (q : BoundQuery) : Except Failure Outcome × RunState :=
  ((⟨.places, .standard⟩ : Engine).executeBound q).run
    (start (.ofStore (.places "a" "a")) (.ofCapacity 10))

/-- The text of what a run returns. -/
def returned (run : Except Failure Outcome × RunState) : Option String :=
  run.1.toOption.map fun outcome => (outcome.toJson run.2.workspace.graph).text

theorem exists_of_returned {run : Except Failure Outcome × RunState}
    (h : (returned run).isSome = true) : ∃ outcome, run.1 = .ok outcome := by
  rw [returned, Option.isSome_map, Option.isSome_iff_exists] at h
  obtain ⟨outcome, houtcome⟩ := h
  exact ⟨outcome, Except.mem_toOption.mp houtcome⟩

/-- The places may be loaded in either order: both runs succeed, and they show the same person at one place
with one room. -/
theorem executeBound_shuffled_people :
    ∃ outcome outcome', (runAtHome .people).1 = .ok outcome ∧
      (runAtHome (opposite .people)).1 = .ok outcome' ∧
      outcome.toJson (runAtHome .people).2.workspace.graph =
        outcome'.toJson (runAtHome (opposite .people)).2.workspace.graph := by
  have hrun : (returned (runAtHome .people)).isSome = true := by decide +kernel
  have hrun' : (returned (runAtHome (opposite .people))).isSome = true := by decide +kernel
  obtain ⟨outcome, hrun⟩ := exists_of_returned hrun
  obtain ⟨outcome', hrun'⟩ := exists_of_returned hrun'
  have hshuffled : Loading.Shuffled BoundQuery.people.includes (opposite .people).includes :=
    .swap _ _ []
  refine ⟨outcome, outcome', hrun, hrun', ?_⟩
  exact executeBound_shuffled (q := .people) (c := .ofStore (.places "a" "a"))
    (rfl : compile ⟨.places, .standard⟩ .people = .ok .people)
    (rfl : Template.people.bind .places [] = .ok .people) (List.cons_ne_nil _ _) hshuffled rfl
    (fun _ he => by cases he) (fun _ he => by cases he) Execution.determined_people hrun hrun'

/-- The query for people with the large rooms of the place of work and all rooms of the home. For somebody who
works at home the two ask for different rooms of one place. -/
def restrictedRooms : BoundQuery :=
  { BoundQuery.people with
    includes :=
      [⟨.reference "Work" "Place" "work", "Place", [], [], none, none,
          [{ Loading.rooms with
            conditions :=
              [.compare ⟨⟨"size", "Size", .scalar .int, false, none⟩, .greaterThan, .int 5⟩] }]⟩,
        ⟨.reference "Home" "Place" "home", "Place", [], [], none, none, [.rooms]⟩] }

/-- When the home is the place of work, it shows the rooms that were loaded last: all of them, or only the
large ones, of which there are none. The query is compiled from an ordinary pipeline, and no setting or
disturbance is needed for the difference. -/
theorem executeBound_restrictedRooms :
    ((compile ⟨.places, .standard⟩ ⟨"Person",
        [.include ⟨"p", .apply (.member (.member (.param "p") "Work") "Rooms") .filter
            ⟨"r", .binary .greaterThan (.member (.param "r") "Size") (.constant (.int 5))⟩⟩,
          .include ⟨"p", .member (.member (.param "p") "Home") "Rooms"⟩]⟩).toOption.bind
      fun template => (template.bind .places []).toOption) = some restrictedRooms ∧
    Loading.Shuffled restrictedRooms.includes (opposite restrictedRooms).includes ∧
    ∃ outcome outcome', (runAtHome restrictedRooms).1 = .ok outcome ∧
      (runAtHome (opposite restrictedRooms)).1 = .ok outcome' ∧
      outcome.toJson (runAtHome restrictedRooms).2.workspace.graph ≠
        outcome'.toJson (runAtHome (opposite restrictedRooms)).2.workspace.graph := by
  refine ⟨rfl, .swap _ _ [], ?_⟩
  have hne : returned (runAtHome restrictedRooms) ≠ returned (runAtHome (opposite restrictedRooms)) := by
    decide +kernel
  have hrun : (returned (runAtHome restrictedRooms)).isSome = true := by decide +kernel
  have hrun' : (returned (runAtHome (opposite restrictedRooms))).isSome = true := by decide +kernel
  obtain ⟨outcome, hrun⟩ := exists_of_returned hrun
  obtain ⟨outcome', hrun'⟩ := exists_of_returned hrun'
  refine ⟨outcome, outcome', hrun, hrun', fun he => hne ?_⟩
  rw [returned, returned, hrun, hrun']
  exact congrArg (fun json => some (Json.text json)) he

end Engine

end DocumentQuery
