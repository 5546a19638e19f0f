import DocumentQuery.Proofs.Compile.Inclusions
import DocumentQuery.Proofs.Plan.Emulation
import DocumentQuery.Proofs.Run.Coverage
import DocumentQuery.Proofs.Run.Identity
import DocumentQuery.Proofs.Schema.Keys

/-!
# Every included path is there

A query that includes navigations without restricting them finds every one of them at the end of a run:
whoever follows a path of the include tree from a root through the fields of the graph comes to instances
on which the next navigation is set. An instance that several branches of the tree lead to is loaded with
the union of what they ask for.

Restrictions are excluded, since a branch that restricts a navigation replaces the targets of another
branch that does not. So are keys that documents do not hold, and documents of one type that share an
identity: two branches then load targets of their own, or a document is taken for another one.

Each of the three conditions is needed for this. They enter through `Execution.unambiguous_of_plain` and
nowhere else: without restrictions two loadings of one navigation differ only in what lies below, so their
answers for one document agree, and the identities make sure that it is one document.

## Main definitions

* `Graph.Follows` — what a path of fields leads to
* `Loading.Path` — the paths of an include tree

## Main results

* `Engine.execute_included` — every path of the include tree is there
-/

namespace DocumentQuery

/-- The instances that a path of fields leads to. A field may hold an object or a collection of objects, and
the path goes on from any of them. -/
inductive Graph.Follows (g : Graph) : InstanceId → List String → InstanceId → Prop
  | here (id : InstanceId) : Follows g id [] id
  | step {owner target id : InstanceId} {name : String} {names : List String} {v : Value}
      (hv : g.field? owner name = some v) (htarget : target ∈ v.references)
      (rest : Follows g target names id) : Follows g owner (name :: names) id

/-- The loadings in an include tree, each with the navigations that lead to it. Siblings have different names,
so a path of names leads to one loading. -/
inductive Loading.Path : List Loading → List String → Loading → Prop
  | here {ls : List Loading} {l : Loading} (hl : l ∈ ls) : Path ls [] l
  | deeper {ls : List Loading} {l l' : Loading} {names : List String} (hl : l ∈ ls)
      (rest : Path l.children names l') : Path ls (l.navigation.name :: names) l'

/-- The values that a navigation may be set to: an object or null if it leads to one, and a collection of its
kind if it leads to many. An empty collection is a value like any other, a missing field is not. -/
def Multiplicity.Admits : Multiplicity → Value → Prop
  | .singular, v => v = .null ∨ ∃ id, v = .object id
  | .collection kind, v => ∃ items, v = .collection kind items

theorem Value.collect_eq (kind : CollectionKind) (items : List Value) :
    ∃ kept, Value.collect kind items = .collection kind kept := by
  cases kind with
  | set => exact ⟨_, rfl⟩
  | _ => exact ⟨items, rfl⟩

theorem Loading.admits_targetValue (navigation : Navigation) (targets : List InstanceId) :
    navigation.multiplicity.Admits (targetValue navigation targets) := by
  unfold targetValue
  cases navigation.multiplicity with
  | singular =>
    cases targets with
    | nil => exact Or.inl rfl
    | cons target _ => exact Or.inr ⟨target, rfl⟩
  | collection kind => exact Value.collect_eq kind _

namespace Execution

variable {x : Execution} {h : History}

/-- A path of loadings that is followed from a covered instance leads to covered instances, on which the last
navigation is set. By induction on the path: what is loaded on a covered instance covers its targets. -/
theorem Covers.path (hu : x.Unambiguous) (hv : x.Valid h)
    (hclosed : ∀ o ∈ h.openings, ∃ a ∈ h.attachments, a.owner = o.1 ∧ a.loading = o.2)
    {loadings : List Loading} {names : List String} {l : Loading} (hpath : Loading.Path loadings names l)
    {typeName : String} {d : Document} {root id : InstanceId}
    (hc : x.Covers h typeName loadings d root) (hf : h.graph.Follows root names id) :
    ∃ v, h.graph.field? id l.navigation.name = some v ∧ l.navigation.multiplicity.Admits v := by
  induction hpath generalizing typeName d root with
  | here hl =>
    cases hf
    obtain ⟨documents, targets, -, hfield, -⟩ := hc.loaded hu hv hclosed hl
    exact ⟨_, hfield, Loading.admits_targetValue _ targets⟩
  | deeper hl _ ih =>
    cases hf with
    | step hvalue htarget rest =>
      obtain ⟨documents, targets, -, hfield, hcovers⟩ := hc.loaded hu hv hclosed hl
      cases hvalue.symm.trans hfield
      obtain ⟨d', -, hd'⟩ :=
        exists_of_forall₂ hcovers.flip (Loading.mem_of_mem_references htarget)
      exact ih hd' rest

/-! ## Includes without restrictions -/

/-- An execution whose includes carry no restrictions is unambiguous if documents are told apart by their
identities. That the model is keyed makes an identity of every document's name, and loadings that share a
navigation and have no restrictions are answered alike. -/
theorem unambiguous_of_plain (hkeyed : x.model.Keyed) {bindings : Bindings}
    (hroot : Inclusion.Bound x.model bindings (Inclusion.allPlain · = true) x.query.entityType
      x.query.includes)
    (hunique : ∀ typeName loadings loadings' d d', x.Reaches typeName loadings d →
      x.Reaches typeName loadings' d' → d.id = d'.id → d = d') : x.Unambiguous where
  identity typeName loadings d item hr hitem := by
    obtain ⟨⟨name, type, htype, hentity, rfl⟩, -⟩ := hr.bound hroot fun _ h _ => Inclusion.allPlain_nested h
    exact Document.identity?_of_shapeEntity (hkeyed name type htype hentity) hitem
  document := hunique
  target typeName loadings loadings' d l l' hr hl hr' hl' hname := by
    have hb := hr.bound hroot fun _ h _ => Inclusion.allPlain_nested h
    have hb' := hr'.bound hroot fun _ h _ => Inclusion.allPlain_nested h
    obtain ⟨hnavigation, htype⟩ := hb.navigation_eq hb' hl hl' hname
    have hselection := (hb.selection_eq hl).trans (hb'.selection_eq hl').symm
    exact ⟨hnavigation, htype, Loading.answer_congr hnavigation hselection _ _ _⟩

end Execution

namespace Engine

/-- Every path of the include tree is there at the end of a run that succeeds: an instance that the first
navigations of the path lead to has the next one set. This holds for each instance the path may be followed
to, whichever branch of the tree has loaded it, and for a path of any length.

The includes are plain, the entity types of the model have keys that documents hold by their names, and no two
documents that are met have one identity; these three make the run unambiguous. The last one is about what the
query reaches, not about the whole store. Nothing is asked of the connection but that the run succeeds. -/
theorem execute_included {e : Engine} {pipeline : Pipeline} {template : Template}
    (hcompile : e.compile pipeline = .ok template)
    (hplain : Inclusion.allPlain template.includes = true) (hkeyed : e.model.Keyed) {bindings : Bindings}
    {q : BoundQuery} (hbind : template.bind e.model bindings = .ok q) {c : Connection} {plans : PlanCache}
    (hunique : ∀ typeName loadings loadings' d d',
      (⟨e, q, c.store, fun _ _ => True⟩ : Execution).Reaches typeName loadings d →
      (⟨e, q, c.store, fun _ _ => True⟩ : Execution).Reaches typeName loadings' d' →
      d.id = d'.id → d = d')
    {outcome : Outcome}
    (hrun : ((e.execute template bindings).run (start c plans)).1 = .ok outcome) {g : Graph}
    (hg : g = ((e.execute template bindings).run (start c plans)).2.workspace.graph)
    {root id : InstanceId} (hroot : .object root ∈ outcome.values) {names : List String} {l : Loading}
    (hpath : Loading.Path q.includes names l) (hf : g.Follows root names id) :
    ∃ v, g.field? id l.navigation.name = some v ∧ l.navigation.multiplicity.Admits v := by
  let x : Execution := ⟨e, q, c.store, fun _ _ => True⟩
  obtain ⟨h, hvalid, hgraph, hfinishes⟩ := exists_history hcompile hbind c plans (fun _ _ => True)
    (fun _ _ _ _ _ => trivial) fun _ _ => trivial
  obtain rfl : g = h.graph := hg.trans hgraph.symm
  have hfinishes : x.Finishes h outcome := hfinishes outcome hrun
  have hentity : x.query.projection = .entity := by
    refine (returns_of_compile hcompile hbind c.store _).resolve_left fun hnone => ?_
    rw [hnone] at hpath
    cases hpath with
    | here hl | deeper hl => cases hl
  have hu : x.Unambiguous :=
    Execution.unambiguous_of_plain hkeyed (bound_of_compile hcompile hbind hplain) hunique
  -- the root stands for a document the query brought, and from there the path is followed
  obtain ⟨d, hd, hproduces⟩ := hfinishes.root hroot
  obtain ⟨_, hobject, hrepresents, hopened⟩ := hproduces.entity hentity
  cases hobject
  exact Execution.Covers.path hu hvalid hfinishes.closed hpath ⟨.root hd, hrepresents, hopened⟩ hf

end Engine

/-! ## Somebody who works at home -/

namespace Execution

/-- The query for people and their places where somebody works at home. -/
def people (kept : String → InstancePlan → Prop) : Execution :=
  ⟨⟨.places, .standard⟩, .people, .places "a" "a", kept⟩

variable {kept : String → InstancePlan → Prop}

/-- One document of each type is met, each with the same loadings whichever way it is reached. -/
theorem reaches_people {typeName : String} {loadings : List Loading} {d : Document}
    (h : (people kept).Reaches typeName loadings d) :
    [("Person", BoundQuery.people.includes,
        ⟨"people/p", .obj [("home", .str "places/a"), ("work", .str "places/a")]⟩),
      ("Place", [.rooms], ⟨"places/a", .obj []⟩),
      ("Room", [], ⟨"places/a/rooms/r", .obj [("size", .int 1)]⟩)].lookup typeName =
        some (loadings, d) := by
  have hqueries : ∀ collection, (people kept).store.evaluate ⟨collection, none, [], none, none⟩ =
      .ok ((people kept).store.documents collection) :=
    (Store.places_wellFormed "a" "a").evaluate_all
  induction h with
  | root hd =>
    obtain ⟨documents, houtcome, hd⟩ := hd
    have hpeople : (people kept).query.outcome (people kept).limits (people kept).store =
        .ok (.documents ((people kept).store.documents "people")) := by
      rw [BoundQuery.outcome_of_documents rfl]
      exact ⟨rfl, _, _, rfl, hqueries "people", rfl⟩
    cases houtcome.symm.trans hpeople
    rw [List.mem_singleton.mp hd]
    rfl
  | target _ hl answered hd ih =>
    have hcases := mem_of_lookup ih
    simp only [List.mem_cons, Prod.mk.injEq, List.not_mem_nil, or_false] at hcases
    rcases hcases with ⟨-, rfl, rfl⟩ | ⟨-, rfl, rfl⟩ | ⟨-, rfl, rfl⟩
    · -- both references lead to the place
      have hplaces : ∀ l ∈ BoundQuery.people.includes,
          l.answer (people kept).limits (people kept).store
            ⟨"people/p", .obj [("home", .str "places/a"), ("work", .str "places/a")]⟩ =
            .ok [⟨"places/a", .obj []⟩] ∧ l.targetType = "Place" ∧ l.children = [.rooms] :=
        List.forall_mem_cons.mpr ⟨⟨rfl, rfl, rfl⟩,
          List.forall_mem_cons.mpr ⟨⟨rfl, rfl, rfl⟩, fun _ hl => (by cases hl)⟩⟩
      obtain ⟨hanswer, htype, hchildren⟩ := hplaces _ hl
      cases answered.symm.trans hanswer
      rw [List.mem_singleton.mp hd, htype, hchildren]
      rfl
    · rw [List.mem_singleton.mp hl] at answered ⊢
      have hrooms : Loading.rooms.answer (people kept).limits (people kept).store ⟨"places/a", .obj []⟩ =
          (((people kept).store.evaluate ⟨"places/a/rooms", none, [], none, none⟩).map
            Loading.rooms.childSelection.window.apply).mapError .store := rfl
      rw [hrooms, hqueries "places/a/rooms"] at answered
      cases answered
      rw [List.mem_singleton.mp hd]
      rfl
    · cases hl

end Execution

namespace Engine

/-- The rooms of the place are set, which both references lead to. The two branches meet at one instance, and
each of them asks for its rooms. -/
theorem execute_included_people :
    ∃ v, (((⟨.places, .standard⟩ : Engine).execute .people []).run
        (start (.ofStore (.places "a" "a")) (.ofCapacity 10))).2.workspace.graph.field? 1 "Rooms" =
          some v ∧ (Multiplicity.collection .list).Admits v := by
  let run := ((⟨.places, .standard⟩ : Engine).execute .people []).run
    (start (.ofStore (.places "a" "a")) (.ofCapacity 10))
  have hroot : Outcome.root? run.1 = some 0 := by decide +kernel
  have hhome : (run.2.workspace.graph.field? 0 "Home").bind Value.toObject? = some 1 := by
    decide +kernel
  obtain ⟨outcome, hrun, hroot⟩ := Outcome.exists_of_root? hroot
  obtain ⟨home, hhome, hplace⟩ := Option.bind_eq_some_iff.mp hhome
  rw [Value.toObject?_eq_some] at hplace
  subst hplace
  refine execute_included (rfl : compile ⟨.places, .standard⟩ .people = .ok .people) rfl
    (Model.keyed_of_forall (by decide)) (rfl : Template.people.bind .places [] = .ok .people)
    (fun typeName loadings loadings' d d' hr hr' _ => ?_) hrun rfl
    hroot (.deeper List.mem_cons_self (.here (List.mem_singleton.mpr rfl)))
    (.step hhome (List.mem_singleton.mpr rfl) (.here 1))
  have hd := Execution.reaches_people hr
  have hd' := Execution.reaches_people hr'
  exact congrArg Prod.snd (Option.some.inj (hd.symm.trans hd'))

end Engine

end DocumentQuery
