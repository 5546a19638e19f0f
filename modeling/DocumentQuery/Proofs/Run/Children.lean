import DocumentQuery.Proofs.Plan.Disjunction
import DocumentQuery.Proofs.Run.Coverage
import DocumentQuery.Proofs.Run.Identity

/-!
# Targets in nested collections

The targets of a navigation to a nested collection are the documents below one record, but what is
attached are the instances for their types and identities, and these are shared by the whole run. A
document of another record with the same identity is taken for the same object, so an instance may show
the members of a document that lies elsewhere (`Engine.execute_sharedRoom`). What does hold in general: the
documents are exactly the selected ones below a record that the owner stands for, in order, each with the
instance for its type and identity, and the fields of that instance are made of one object which was met
with this type and identity. If no other object is met with them, that is the document itself.

Several branches of an include tree may restrict a navigation of a shared instance in different ways. The
navigation then holds the targets of one of them, and what is loaded below the targets is what that
branch asks for. So what is loaded on an instance is not a matter of the branch that one comes from, and
the statement is about a relation between instances and loadings (`Execution.Loaded`) that holds at the
roots and is kept on the way to the targets.

What carries these statements is that the run succeeds. A run that fails may leave a navigation opened on an
instance and nothing attached to it, whereas at the end of a run that succeeds every opening is closed by an
attachment. The store enters by two conditions only: its collections are listed by identity, and none of them
is longer than a count can be.

## Main definitions

* `Execution.Shows` — what became of a document that is read as an entity
* `Execution.Loaded` — relations between instances and what is loaded on them

## Main results

* `Engine.execute_children` — the targets of the navigations of a run
-/

namespace DocumentQuery

/-- The documents that a navigation to a nested collection is answered with are the selected ones of those
below the record, in the order of the selection. The answer may have been put together from several queries;
the store being well-formed is what makes this the same as a single one. -/
theorem Loading.answer_childCollection {limits : QueryLimits} {s : Store} (hs : s.WellFormed)
    (hcount : ∀ collection, (s.documents collection).length ≤ Number.maxCount) {l : Loading}
    {subcollection : String} (hstorage : l.navigation.storage = .childCollection subcollection)
    {record : Document} {documents : List Document} (h : l.answer limits s record = .ok documents) :
    documents = l.childSelection.ofDocuments
      (s.documents (Document.pathOf record.path subcollection)) := by
  simp only [answer, hstorage] at h
  obtain ⟨source, hsource, h⟩ := Except.bind_eq_ok.mp h
  rw [Except.mapError_eq_ok] at hsource h
  have hlimit : l.childSelection.window.limitToLast = none := by
    unfold childSelection
    split <;> rfl
  have hanswer := Source.answer_ofSelection hs (hcount _) (by simp [hlimit])
    (fun _ _ n k hn => by simp [hlimit] at hn) hsource
  exact Except.ok.inj (h.symm.trans hanswer)

/-- Whether a plan may come out of a cache under a key: it is an entry, or it is what is built for members
with that key. Keys are not injective, so under one key there may be several such plans. -/
def PlanCache.Offers (m : Model) (c : PlanCache) (key : String) (plan : InstancePlan) : Prop :=
  (key, plan) ∈ c.entries ∨
    ∃ typeName names, PlanCache.key typeName names = key ∧ InstancePlan.build m typeName names = .ok plan

namespace Execution

/-- Whether a navigation of a name is included on entities of a type, at any depth and in any branch of the
include tree. Only such navigations are ever attached to instances of the type. -/
def Includes (x : Execution) (typeName name : String) : Prop :=
  ∃ loadings d, x.Reaches typeName loadings d ∧ ∃ l ∈ loadings, l.navigation.name = name

/-- Whether an instance is made of an object that is met: its fields, included navigations aside, are the
members that a plan assigns, and scalars among them are converted. -/
structure MadeOf (x : Execution) (typeName : String) (source : ShapedItem) (i : Instance) : Prop where
  /-- The object is met in the run, at the roots, in an answer or inside another object. -/
  met : x.Meets typeName source
  /-- Apart from navigations, the fields are the members that the plan assigns and the object has. -/
  assigned : ∃ plan, x.plans (PlanCache.key typeName source.names) plan ∧
    ∀ name, ¬ x.Includes typeName name → ((i.fields.lookup name).isSome ↔
      name ∈ plan.assigned ∧ (source.lookup name).isSome)
  /-- A scalar field holds the stored value of the member, converted to its type. -/
  scalars : ∀ name type raw v, ¬ x.Includes typeName name →
    source.lookup name = some ⟨.scalar type, raw, .scalar⟩ → i.fields.lookup name = some v →
    type.convert x.model raw = .ok v

/-- What became of a document that is read as an entity: the instance for its type and identity, made of an
object that has both. The object need not be the document, because whichever is met first with an identity
makes the instance. It is the document itself if there is no identity, or if no other object is met that has
the same one. -/
def Shows (x : Execution) (g : Graph) (typeName : String) (d : Document) (id : InstanceId) : Prop :=
  ∃ item source i, d.shapeEntity x.model typeName = .ok item ∧ g.instances[id]? = some i ∧
    i.typeName = typeName ∧ i.key = item.identity? x.model typeName ∧
    source.identity? x.model typeName = i.key ∧
    (i.key = none ∨ (∀ other, x.Meets typeName other → other.identity? x.model typeName = i.key →
      other = item) → source = item) ∧
    x.MadeOf typeName source i

/-- The targets that are attached to an instance at the end of a run: the instances for the documents that a
loading is answered with for a record of the instance, one for one and in the order of the answer. In a nested
collection these are the selected ones of the documents below the record. -/
structure Attached (x : Execution) (g : Graph) (owner : InstanceId) (record : Document) (l : Loading)
    (targets : List InstanceId) : Prop where
  /-- The loading was asked for on entities of the owner's type, and the owner stands for the record. -/
  requested : ∃ typeName loadings, x.Reaches typeName loadings record ∧ l ∈ loadings ∧
    x.Shows g typeName record owner
  /-- Each target is the instance for the document at its place in the answer. -/
  answered : ∃ documents, l.answer x.limits x.store record = .ok documents ∧
    List.Forall₂ (x.Shows g l.targetType) documents targets
  /-- In a nested collection the answer is what is selected of the documents below the record. -/
  children : ∀ subcollection, l.navigation.storage = .childCollection subcollection →
    List.Forall₂ (x.Shows g l.targetType) (l.childSelection.ofDocuments
      (x.store.documents (Document.pathOf record.path subcollection))) targets
  /-- What the owner holds under the name of the navigation are these targets. -/
  field : g.field? owner l.navigation.name = some (Loading.targetValue l.navigation targets)

/-- Relations between instances and what is loaded on them: every navigation that is asked for is set to the
targets of some loading of it, and on the targets everything is loaded that this loading asks for. The loading
need not be the one that asks, since branches that restrict a navigation differently share the instance. -/
def Loaded (x : Execution) (g : Graph) (loaded : InstanceId → List Loading → Prop) : Prop :=
  ∀ owner loadings, loaded owner loadings → ∀ asked ∈ loadings, ∃ record l targets,
    l.navigation = asked.navigation ∧ x.Attached g owner record l targets ∧
      ∀ target ∈ targets, loaded target l.children

variable {x : Execution} {h : History} {typeName : String} {d : Document} {id : InstanceId}

/-- A field is the one an instance was born with, unless a navigation of that name is included. So what
loading does to instances can be read off the include tree without looking at the run. -/
theorem Valid.field_eq (hv : x.Valid h) {b : Birth} (hb : h.births[id]? = some b) {name : String}
    (hnone : ¬ x.Includes b.typeName name) : h.graph.field? id name = b.fields.lookup name := by
  refine History.field?_of_not_attached hv.grounded hb fun a ha howner hname => hnone ?_
  obtain ⟨typeName, loadings, hreaches, hl, item, -, b', hb', htype, -⟩ := (hv.attachment ha).requested
  rw [howner] at hb'
  cases hb.symm.trans hb'
  exact ⟨loadings, a.record, htype ▸ hreaches, a.loading, hl, hname⟩

/-- An instance shows every document that it stands for. The object it was born from has the type and the
identity of the document, because an instance is only ever found again by these. -/
theorem Valid.shows (hv : x.Valid h) (hr : h.Represents x.model typeName d id) :
    x.Shows h.graph typeName d id := by
  obtain ⟨item, hitem, b, hb, rfl, hkey, hsame⟩ := hr
  obtain ⟨before, hp, -, hborn⟩ := hv.birth hb
  have hinstance : h.graph.instances[id]? = some (h.current id b) := by
    rw [History.getElem?_instances hv.grounded, hb]
    rfl
  have hfield : ∀ name, (h.current id b).fields.lookup name = h.graph.field? id name := by
    intro name
    rw [Graph.field?, hinstance]
    rfl
  refine ⟨item, b.item, h.current id b, hitem, hinstance, rfl, hkey, hborn.key.symm, fun hown => ?_,
    hborn.met, ⟨b.plan, hborn.plan, fun name hnone => ?_⟩,
    fun name type raw v hnone hsource hlookup => ?_⟩
  · exact hown.elim hsame fun hunique => hunique b.item hborn.met hborn.key.symm
  · rw [hfield, hv.field_eq hb hnone]
    exact hborn.assigned name
  · rw [hfield, hv.field_eq hb hnone] at hlookup
    obtain ⟨value, hvalue, hmade⟩ := hborn.made name v hlookup
    cases hsource.symm.trans hvalue
    cases hmade with
    | scalar hconverted => exact hconverted

/-- What was attached last under a name stays attached: the field still holds it at the end of the run, and
the documents are those that the unchanged store answers with. -/
theorem Valid.attached (hv : x.Valid h) (hs : x.store.WellFormed)
    (hcount : ∀ collection, (x.store.documents collection).length ≤ Number.maxCount) {a : Attachment}
    (ha : a ∈ h.attachments) (hfield : h.graph.field? a.owner a.name = some a.value) :
    x.Attached h.graph a.owner a.record a.loading a.targets := by
  have hadmitted := hv.attachment ha
  obtain ⟨typeName, loadings, hreaches, hl, hrepresents⟩ := hadmitted.requested
  have hshows : List.Forall₂ (x.Shows h.graph a.loading.targetType) a.documents a.targets :=
    hadmitted.targets.imp fun _ _ ht => hv.shows ht
  refine ⟨⟨typeName, loadings, hreaches, hl, hv.shows hrepresents⟩,
    ⟨a.documents, hadmitted.answered, hshows⟩, fun subcollection hstorage => ?_, hfield⟩
  rw [← Loading.answer_childCollection hs hcount hstorage hadmitted.answered]
  exact hshows

/-- What was opened on instances is loaded at the end of a run, if every opening was closed. The relation is
the one of openings: a loading counts as loaded on an instance once it was opened there. -/
theorem Valid.loaded (hv : x.Valid h) (hs : x.store.WellFormed)
    (hcount : ∀ collection, (x.store.documents collection).length ≤ Number.maxCount)
    (hclosed : ∀ o ∈ h.openings, ∃ a ∈ h.attachments, a.owner = o.1 ∧ a.loading = o.2)
    {bindings : Bindings}
    (hroot : Inclusion.Bound x.model bindings (fun _ => True) x.query.entityType x.query.includes) :
    x.Loaded h.graph fun owner loadings => ∀ l ∈ loadings, h.Opened owner l.label := by
  intro owner loadings hloaded asked hasked
  -- the loading that was opened for what is asked, and the one that set the field last
  obtain ⟨opened, hopened, hlabel⟩ := hloaded asked hasked
  obtain ⟨first, hfirst, rfl, rfl⟩ := hclosed _ hopened
  obtain ⟨last, hlast, hlastOwner, hlastName, hfield⟩ := History.field?_of_attached hv.grounded hfirst
  rw [← hlastOwner, ← hlastName] at hfield
  have hadmitted := hv.attachment hlast
  -- both were requested on entities of one type, so that the name tells the navigation
  obtain ⟨typeName, requested, hreaches, hl, -, -, b, hb, rfl, -⟩ := hadmitted.requested
  obtain ⟨typeName', requested', hreaches', hl', -, -, b', hb', rfl, -⟩ :=
    (hv.attachment hfirst).requested
  rw [hlastOwner] at hb
  cases hb.symm.trans hb'
  obtain ⟨hnavigation, -⟩ := (hreaches.bound hroot fun _ _ _ _ => trivial).navigation_eq
    (hreaches'.bound hroot fun _ _ _ _ => trivial) hl hl' hlastName
  exact ⟨last.record, last.loading, last.targets,
    hnavigation.trans (Loading.same_of_label hlabel).1,
    hlastOwner ▸ hv.attached hs hcount hlast hfield, hadmitted.below⟩

end Execution

namespace Engine

/-- After a run that succeeds, every navigation that is included is set to the instances for exactly the
documents that are selected for a record of its owner, in their order. This holds from the roots on all the
way down, and the fields of the instances are made of objects with the type and the identity of the documents.

That the run succeeds carries the statement; a run that fails may leave navigations opened and not set. That
the store is well-formed and no collection longer than a count can be makes the selection a matter of the
documents alone. Nothing is asked of the model, of the settings or of what disturbs the connection. -/
theorem execute_children {e : Engine} {pipeline : Pipeline} {template : Template}
    (hcompile : e.compile pipeline = .ok template) {bindings : Bindings} {q : BoundQuery}
    (hbind : template.bind e.model bindings = .ok q) {c : Connection} (hs : c.store.WellFormed)
    (hcount : ∀ collection, (c.store.documents collection).length ≤ Number.maxCount)
    {plans : PlanCache} {outcome : Outcome}
    (hrun : ((e.execute template bindings).run (start c plans)).1 = .ok outcome) {g : Graph}
    (hg : g = ((e.execute template bindings).run (start c plans)).2.workspace.graph) :
    ∃ loaded, (⟨e, q, c.store, plans.Offers e.model⟩ : Execution).Loaded g loaded ∧
      ∀ root, .object root ∈ outcome.values → loaded root q.includes := by
  let x : Execution := ⟨e, q, c.store, plans.Offers e.model⟩
  obtain ⟨h, hvalid, hgraph, hfinishes⟩ := exists_history hcompile hbind c plans (plans.Offers e.model)
    (fun typeName item plan _ hplan => Or.inr ⟨typeName, item.names, rfl, hplan⟩) fun _ => Or.inl
  obtain rfl : g = h.graph := hg.trans hgraph.symm
  have hfinishes : x.Finishes h outcome := hfinishes outcome hrun
  refine ⟨_, hvalid.loaded hs hcount hfinishes.closed (bound_of_compile hcompile hbind trivial),
    fun root hroot => ?_⟩
  obtain ⟨d, -, hproduces⟩ := hfinishes.root hroot
  rcases returns_of_compile hcompile hbind c.store (plans.Offers e.model) with hnone | hentity
  · intro l hl
    have hnone : q.includes = [] := hnone
    rw [hnone] at hl
    cases hl
  · obtain ⟨_, hobject, -, hopened⟩ := hproduces.entity hentity
    cases hobject
    exact hopened

/-- The rooms of two places, which have the same name. The run succeeds, so what was asked for on the person
at its root is loaded, down to the rooms of both places. -/
theorem execute_children_rooms :
    ∃ loaded, (⟨⟨.places, .standard⟩, .people, .places "a" "b",
        (PlanCache.ofCapacity 10).Offers .places⟩ : Execution).Loaded
          (((⟨.places, .standard⟩ : Engine).execute .people []).run
            (start (.ofStore (.places "a" "b")) (.ofCapacity 10))).2.workspace.graph loaded ∧
      loaded 0 BoundQuery.people.includes := by
  have hroot : Outcome.root? (((⟨.places, .standard⟩ : Engine).execute .people []).run
      (start (.ofStore (.places "a" "b")) (.ofCapacity 10))).1 = some 0 := by
    decide +kernel
  obtain ⟨outcome, hrun, hroot⟩ := Outcome.exists_of_root? hroot
  obtain ⟨loaded, hloaded, hall⟩ := execute_children
    (rfl : compile ⟨.places, .standard⟩ .people = .ok .people)
    (rfl : Template.people.bind .places [] = .ok .people)
    (Store.places_wellFormed "a" "b") (fun _ => Store.length_documents_le _ (by decide)) hrun rfl
  exact ⟨loaded, hloaded, hall 0 hroot⟩

/-- The room of the second place shows the size of the room of the first place. Both are entities of one type
with one identity, and the first of them that is met makes the instance. -/
theorem execute_sharedRoom :
    let g := (((⟨.places, .standard⟩ : Engine).execute .people []).run
      (start (.ofStore (.places "a" "b")) (.ofCapacity 10))).2.workspace.graph
    (g.field? 0 "Work").bind Value.toObject? = some 3 ∧
      (g.field? 3 "Rooms").map Value.references = some [2] ∧
      (Store.places "a" "b").documents "places/b/rooms" =
        [⟨"places/b/rooms/r", .obj [("size", .int 2)]⟩] ∧
      ScalarType.int.convert .places (.int 2) = .ok (.int 2) ∧
      (g.field? 2 "Size").bind Value.toInt? = some 1 := by
  refine ⟨?_, ?_, rfl, rfl, ?_⟩ <;> decide +kernel

end Engine

end DocumentQuery
