import DocumentQuery.Proofs.Instance.PlanCache
import DocumentQuery.Proofs.Run.Faults
import DocumentQuery.Proofs.Run.Making
import DocumentQuery.Shape.Shaping

/-!
# Fresh instances

An object whose identity is new to a workspace is made of its own members, one by one, before the instance
for it is born. The members may be objects themselves, and each of them is born on the way, so an object
inside it that has its own identity comes first: then that instance stands for the identity, and what was
made of the object is given up (`ShapedItem.materialize_sameInside`). Otherwise the instance has a field for
every member that its plan assigns, with the value that is made of this member
(`ShapedItem.materialize_fresh`).

Making instances only ever adds to a graph. What is added for an identity is added for one of the objects
that are made (`Making.kept_since`).

The members are made in the workspace that the ones before them have left, so what a field is made of is said
with the graphs in between (`ShapedItem.MakesField`): the member was made in some workspace whose graph lies
between the graph before the object and the graph after it. This is enough to read the value later, because
nothing is taken away from a graph.

## Main definitions

* `Graph.GrowsTo` — graphs that go on from another one
* `Instance.MadeOf` — instances with the fields that a plan makes of an object
-/

namespace DocumentQuery

/-! ## Growing graphs -/

namespace Graph

/-- Whether a graph goes on from another one: its instances are still there, and they still stand for their
identities. Growth is reflexive and transitive, and so holds of a whole run if it holds of its steps. -/
structure GrowsTo (g g' : Graph) : Prop where
  /-- The instances that were there keep their numbers and what they are. -/
  instances : g.instances.toList <+: g'.instances.toList
  /-- The identities that were there keep their instances. -/
  identities : g.identities <+: g'.identities

variable {g g' g'' : Graph}

namespace GrowsTo

theorem refl (g : Graph) : g.GrowsTo g :=
  ⟨List.prefix_rfl, List.prefix_rfl⟩

theorem trans (h : g.GrowsTo g') (h' : g'.GrowsTo g'') : g.GrowsTo g'' :=
  ⟨h.instances.trans h'.instances, h.identities.trans h'.identities⟩

theorem size_le (h : g.GrowsTo g') : g.instances.size ≤ g'.instances.size := by
  simpa using h.instances.length_le

end GrowsTo

/-- An instance that is born for a new identity stands for it from then on. -/
theorem identities_bear {i : Instance} (h : i.key.bind (g.find? i.typeName) = none) :
    (g.bear i).identities =
      g.identities ++ (i.key.map fun key => ((i.typeName, key), g.instances.size)).toList := by
  unfold bear
  cases hkey : i.key with
  | none => exact (List.append_nil _).symm
  | some key =>
    have hnone : (g.add i).2.find? i.typeName key = none := by
      rw [hkey] at h
      exact h
    simp only [register, hnone]
    rfl

/-- A graph in which an instance is born for a new identity goes on from the one before. -/
theorem growsTo_bear {i : Instance} (h : i.key.bind (g.find? i.typeName) = none) :
    g.GrowsTo (g.bear i) where
  instances := by
    rw [instances_bear, Array.toList_push]
    exact List.prefix_append _ _
  identities := by
    rw [identities_bear h]
    exact List.prefix_append _ _

end Graph

namespace Making

variable {α : Type} {m : Model} {w w' : Workspace} {allowed : String × Option String → Prop}

/-- Whether a workspace goes on from a graph, with new entries for given identities only, each of them for an
instance that is new as well. The identities are those of the objects that are made on the way. -/
structure Since (g : Graph) (allowed : String × Option String → Prop) (w : Workspace) : Prop where
  /-- Nothing that was there is lost. -/
  grows : g.GrowsTo w.graph
  /-- An identity was there, or it is allowed and stands for a new instance. -/
  entries : ∀ entry ∈ w.graph.identities, entry ∈ g.identities ∨
    g.instances.size ≤ entry.2 ∧ allowed (entry.1.1, some entry.1.2)

theorem since_self (w : Workspace) : Since w.graph allowed w :=
  ⟨.refl w.graph, fun _ he => .inl he⟩

/-- Everything that is done to a workspace while instances are made keeps this. -/
theorem kept_since (g : Graph) : Kept (Since g allowed) allowed where
  plans _ _ h := ⟨h.grows, h.entries⟩
  bear w i h hi hnew := by
    refine ⟨h.grows.trans (Graph.growsTo_bear hnew), fun entry he => ?_⟩
    rw [Graph.identities_bear hnew] at he
    rcases List.mem_append.mp he with he | he
    · exact h.entries entry he
    · obtain ⟨key, hkey, rfl⟩ := Option.map_eq_some_iff.mp (Option.mem_toList.mp he)
      exact .inr ⟨h.grows.size_le, hkey ▸ hi⟩

/-- What a computation adds to a graph, if it keeps what is so added to any graph. -/
theorem Keeps.since {x : Making α} (hx : ∀ g, x.Keeps (Since g allowed)) {r : Except Failure α}
    (hrun : x.run w = (r, w')) : Since w.graph allowed w' := by
  have h := (hx w.graph w (since_self w)).1
  rwa [hrun] at h

/-- What succeeds, does so in a member as well, and nothing else does. -/
theorem run_inMember_eq_ok {typeName member : String} {x : Making α} {a : α} :
    (inMember typeName member x).run w = (.ok a, w') ↔ x.run w = (.ok a, w') := by
  rw [inMember, run_rethrow]
  rcases x.run w with ⟨_ | _, _⟩
  · exact ⟨nofun, nofun⟩
  · rfl

/-- Making a value adds the objects in it to the graph. -/
theorem since_value {value : ShapedValue} {r : Except Failure Value}
    (hrun : (value.materialize m).run w = (r, w')) :
    Since w.graph (· ∈ value.identities m) w' :=
  Keeps.since (fun g => keeps_value (kept_since g) value fun _ h => h) hrun

/-- Making the members of an object adds the objects in it to the graph. -/
theorem since_assignFields {typeName : String} {item : ShapedItem} {fields : Table Value}
    {names : List String} {r : Except Failure (Table Value)}
    (hrun : (assignFields typeName (ShapedItem.members m item) fields names).run w = (r, w')) :
    Since w.graph (· ∈ ShapedItem.embedded m item) w' :=
  Keeps.since (fun g => keeps_assignFields (keeps_members (kept_since g) item fun _ h => h) fields names)
    hrun

end Making

/-! ## The members of an object -/

namespace ShapedItem

variable {m : Model} {typeName : String} {item : ShapedItem} {w w' : Workspace}

/-- Whether a value is made of the member of a name while a graph grows to another one. In between is the
workspace in which the member is made. -/
def MakesField (m : Model) (item : ShapedItem) (g g' : Graph) (name : String) (v : Value) : Prop :=
  ∃ value w w', item.lookup name = some value ∧ (value.materialize m).run w = (.ok v, w') ∧
    g.GrowsTo w.graph ∧ w'.graph.GrowsTo g'

/-- What is made between two graphs is made between graphs further apart. -/
theorem MakesField.mono {g₀ g g' g₁ : Graph} {name : String} {v : Value}
    (h : MakesField m item g g' name v) (h₀ : g₀.GrowsTo g) (h₁ : g'.GrowsTo g₁) :
    MakesField m item g₀ g₁ name v := by
  obtain ⟨value, w, w', hvalue, hrun, hw, hw'⟩ := h
  exact ⟨value, w, w', hvalue, hrun, h₀.trans hw, hw'.trans h₁⟩

/-- What is known of fields while the members of an object are made. -/
structure Assigned (m : Model) (item : ShapedItem) (g g' : Graph) (names : List String)
    (fields : Table Value) : Prop where
  /-- The fields are in the order of their names. -/
  ascending : fields.Ascending
  /-- There is a field for every name that the object has a member of, and for no other. -/
  names : ∀ name, (fields.lookup name).isSome ↔ name ∈ names ∧ (item.lookup name).isSome
  /-- Every field is made of the member of its name. -/
  values : ∀ name v, fields.lookup name = some v → MakesField m item g g' name v

variable {g g' g'' : Graph} {names : List String} {fields fields' : Table Value}

/-- What is known of fields stays known when the graph grows. -/
theorem Assigned.mono (h : Assigned m item g g' names fields) (hg : g'.GrowsTo g'') :
    Assigned m item g g'' names fields where
  ascending := h.ascending
  names := h.names
  values name v hv := (h.values name v hv).mono (.refl g) hg

/-- A member that was made becomes a field. -/
theorem Assigned.insert (h : Assigned m item g g' names fields) {name : String} {v : Value}
    (hv : MakesField m item g g' name v) :
    Assigned m item g g' (names ++ [name]) (fields.insert name v) := by
  obtain ⟨value, -, -, hvalue, -⟩ := id hv
  refine ⟨h.ascending.insert name v, fun other => ?_, fun other v' hv' => ?_⟩
  · rw [Table.lookup_insert]
    split
    next he => simp [he, hvalue]
    next hne => simp [h.names, hne]
  · rw [Table.lookup_insert] at hv'
    split at hv'
    next he =>
      cases hv'
      exact he ▸ hv
    next => exact h.values other v' hv'

/-- A member that is missing becomes no field. -/
theorem Assigned.skip (h : Assigned m item g g' names fields) {name : String}
    (hnone : item.lookup name = none) : Assigned m item g g' (names ++ [name]) fields := by
  refine ⟨h.ascending, fun other => ?_, h.values⟩
  rw [h.names, List.mem_append, List.mem_singleton]
  constructor
  · rintro ⟨hmem, hsome⟩
    exact ⟨.inl hmem, hsome⟩
  · rintro ⟨hmem | rfl, hsome⟩
    · exact ⟨hmem, hsome⟩
    · rw [hnone] at hsome
      cases hsome

/-- The members that a plan assigns become fields one after the other. -/
theorem assigned_of_run (rest : List String) (h : Assigned m item g w.graph names fields)
    (hg : g.GrowsTo w.graph)
    (hrun : (assignFields typeName (ShapedItem.members m item) fields rest).run w = (.ok fields', w')) :
    Assigned m item g w'.graph (names ++ rest) fields' := by
  induction rest generalizing names fields w with
  | nil =>
    rw [assignFields] at hrun
    cases hrun
    rwa [List.append_nil]
  | cons name rest ih =>
    rw [assignFields, Execution.lookup_members] at hrun
    rw [List.append_cons]
    cases hvalue : item.lookup name with
    | none =>
      rw [hvalue] at hrun
      exact ih (h.skip hvalue) hg hrun
    | some value =>
      rw [hvalue] at hrun
      obtain ⟨v, w₁, hmember, hrest⟩ := run_bind_eq_ok hrun
      have hmade : (value.materialize m).run w = (.ok v, w₁) := Making.run_inMember_eq_ok.mp hmember
      have hgrows := (Making.since_value hmade).grows
      refine ih ((h.mono hgrows).insert ?_) (hg.trans hgrows) hrest
      exact ⟨value, w, w₁, hvalue, hmade, hg, .refl w₁.graph⟩

end ShapedItem

/-! ## Objects -/

/-- An instance with the fields that a plan makes of an object while a graph grows to another one. -/
structure Instance.MadeOf (m : Model) (typeName : String) (item : ShapedItem) (plan : InstancePlan)
    (g g' : Graph) (i : Instance) : Prop where
  /-- It is an instance of the type of the object. -/
  type : i.typeName = typeName
  /-- It has the identity of the object, or none if the object has none. -/
  key : i.key = item.identity? m typeName
  /-- It is made by the constructor of the plan. -/
  constructor : i.constructor? = plan.constructor?
  /-- Its fields are those that the plan assigns, made of the members of the object. -/
  fields : item.Assigned m g g' plan.assigned i.fields
  /-- A plan that is built for the members of the object assigns no others. -/
  assigned : InstancePlan.build m typeName item.names = .ok plan →
    ∀ name, (i.fields.lookup name).isSome ↔ name ∈ plan.assigned

namespace ShapedItem

variable {m : Model} {typeName : String} {item : ShapedItem} {w w' : Workspace} {id : InstanceId}

/-- An object with a new identity is made in three steps. -/
theorem run_materialize {key : Option String} {plan : InstancePlan} {fields : Table Value}
    {w₁ w₂ : Workspace} (hkey : item.identity? m typeName = key)
    (hnew : key.bind (w.graph.find? typeName) = none)
    (hplan : (Making.planFor m typeName item.names).run w = (.ok plan, w₁))
    (hfields : (assignFields typeName (ShapedItem.members m item) [] plan.assigned).run w₁ =
      (.ok fields, w₂)) :
    (ShapedItem.materialize m typeName item).run w =
      (Making.addInstance ⟨typeName, key, plan.constructor?, fields, []⟩).run w₂ := by
  have hget : ExceptT.run (get : Making Workspace) w = (.ok w, w) := rfl
  rw [materialize, assemble, run_bind_of_ok hget, hkey, hnew, Execution.names_members,
    run_bind_of_ok hplan, run_bind_of_ok hfields]

/-- An object with a new identity is made of a plan, of the fields that the plan assigns, and of an instance
that is added. -/
theorem parts_of_run (hnew : (item.identity? m typeName).bind (w.graph.find? typeName) = none)
    (hrun : (ShapedItem.materialize m typeName item).run w = (.ok id, w')) :
    ∃ plan fields w₁, (w.plans.planFor m typeName item.names).1 = .ok plan ∧
      (assignFields typeName (ShapedItem.members m item) [] plan.assigned).run
        { w with plans := (w.plans.planFor m typeName item.names).2 } = (.ok fields, w₁) ∧
      (Making.addInstance ⟨typeName, item.identity? m typeName, plan.constructor?, fields, []⟩).run w₁ =
        (.ok id, w') := by
  rw [materialize, assemble] at hrun
  obtain ⟨_, _, hget, hrun⟩ := run_bind_eq_ok hrun
  cases hget
  rw [hnew, Execution.names_members] at hrun
  obtain ⟨plan, w₀, hplanned, hrun⟩ := run_bind_eq_ok hrun
  obtain ⟨fields, w₁, hfields, hadd⟩ := run_bind_eq_ok hrun
  rw [Making.run_planFor] at hplanned
  obtain ⟨hplan, rfl⟩ := Prod.mk.inj hplanned
  exact ⟨plan, fields, w₁, hplan, hfields, hadd⟩

/-- The steps in which an object with a new identity is made. -/
theorem materialize_steps (hnew : (item.identity? m typeName).bind (w.graph.find? typeName) = none)
    (hrun : (ShapedItem.materialize m typeName item).run w = (.ok id, w')) :
    ∃ plan fields w₁, (w.plans.planFor m typeName item.names).1 = .ok plan ∧
      item.Assigned m w.graph w₁.graph plan.assigned fields ∧
      Making.Since w.graph (· ∈ ShapedItem.embedded m item) w₁ ∧
      (Making.addInstance ⟨typeName, item.identity? m typeName, plan.constructor?, fields, []⟩).run w₁ =
        (.ok id, w') := by
  obtain ⟨plan, fields, w₁, hplan, hfields, hadd⟩ := parts_of_run hnew hrun
  generalize hw₀ : ({ w with plans := (w.plans.planFor m typeName item.names).2 } : Workspace) = w₀ at hfields
  -- the plan is kept in the workspace, and the graph is still the same
  have hgraph : w₀.graph = w.graph := by
    rw [← hw₀]
  have hempty : item.Assigned m w.graph w₀.graph [] [] :=
    ⟨List.Pairwise.nil, fun name => by simp, fun _ _ hv => nomatch hv⟩
  have hassigned := assigned_of_run plan.assigned hempty (hgraph ▸ .refl w.graph) hfields
  exact ⟨plan, fields, w₁, hplan, hassigned, hgraph ▸ Making.since_assignFields hfields, hadd⟩

/-- An object whose identity is new to a workspace is made without taking anything away from the graph. The
result is a new instance that stands for the identity. Unless an object inside it has the identity, it is made
of the object: it has exactly the fields that the plan assigns, and each of them is made of the member of its
name.

The condition on the objects inside is needed (`materialize_sameInside`). Whether the plan was found or built
does not matter here; that it is a plan for these members is the cache's part. -/
theorem materialize_fresh (hrun : (ShapedItem.materialize m typeName item).run w = (.ok id, w'))
    (hfresh : ∀ key, item.identity? m typeName = some key → w.graph.find? typeName key = none) :
    w.graph.GrowsTo w'.graph ∧ w.graph.instances.size ≤ id ∧
      (∀ key, item.identity? m typeName = some key → w'.graph.find? typeName key = some id) ∧
      ((∀ key, item.identity? m typeName = some key →
          (typeName, some key) ∉ ShapedItem.embedded m item) →
        ∃ plan i, (w.plans.planFor m typeName item.names).1 = .ok plan ∧
          w'.graph.instances[id]? = some i ∧ i.MadeOf m typeName item plan w.graph w'.graph) := by
  have hnew : (item.identity? m typeName).bind (w.graph.find? typeName) = none :=
    Option.bind_eq_none_iff.mpr hfresh
  obtain ⟨plan, fields, w₁, hplan, hassigned, hsince, hadd⟩ := materialize_steps hnew hrun
  rw [Making.run_addInstance] at hadd
  split at hadd
  next existing hfound =>
    -- an object inside has the identity and was there first
    cases hadd
    obtain ⟨key, hkey, hfound⟩ := Option.bind_eq_some_iff.mp hfound
    have hentry : ((typeName, key), id) ∈ w'.graph.identities := mem_of_lookup hfound
    rcases hsince.entries _ hentry with hold | ⟨hsize, hembedded⟩
    · have hnone := List.lookup_eq_none_iff.mp (hfresh key hkey) _ hold
      exact absurd rfl (bne_iff_ne.mp hnone)
    · refine ⟨hsince.grows, hsize, fun key' hkey' => ?_, fun hapart => absurd hembedded (hapart key hkey)⟩
      cases hkey.symm.trans hkey'
      exact hfound
  next hnone =>
    have hgrows := Graph.growsTo_bear hnone
    obtain ⟨hid, rfl⟩ := Prod.mk.inj hadd
    obtain rfl := Except.ok.inj hid
    refine ⟨hsince.grows.trans hgrows, hsince.grows.size_le, fun key hkey => ?_, fun _ => ?_⟩
    · have hfind := History.find?_bear (g := w₁.graph) (Option.bind_eq_none_iff.mp hnone) typeName key
      exact hfind.trans (if_pos ⟨rfl, hkey⟩)
    · refine ⟨plan, ⟨typeName, item.identity? m typeName, plan.constructor?, fields, []⟩, hplan, ?_,
        rfl, rfl, rfl, hassigned.mono hgrows, fun hbuilt name => ?_⟩
      · rw [Graph.instances_bear]
        exact Array.getElem?_push_size
      · rw [hassigned.names, and_iff_left_iff_imp]
        intro hname
        obtain ⟨member, hmember, rfl⟩ := List.mem_map.mp (InstancePlan.mem_of_mem_assigned hbuilt hname)
        exact List.lookup_isSome_iff.mpr ⟨member, hmember, beq_self_eq_true _⟩

/-! ## Nodes inside nodes -/

end ShapedItem

/-- Nodes with a name, each of which may hold another node. -/
def Model.nodes : Model :=
  Model.empty.withType
    ⟨"Node", .entity "nodes" "Id",
      [.named "Id" (.scalar .string), .named "Name" (.scalar .string), .named "Other" (.entity "Node")],
      [], []⟩

/-- A node. -/
def Instance.node (id name : String) (other : Value) : Instance :=
  ⟨"Node", some id, none, [("Id", .string id), ("Name", .string name), ("Other", other)], []⟩

namespace InstancePlan

/-- The plan for nodes. -/
def node : InstancePlan := ⟨"Node", none, [], ["Id", "Name", "Other"], []⟩

end InstancePlan

namespace PlanCache

/-- The cache in which the plan for nodes was found a number of times. -/
def ofNodes (hits : Nat) : PlanCache :=
  ⟨[("Node:Id,Name,Other", .node)], 1, hits, 1, 0⟩

theorem key_node : key "Node" ["Id", "Name", "Other"] = "Node:Id,Name,Other" := by
  rw [key, List.mergeSort_of_pairwise (by decide)]
  rfl

theorem planFor_node_ofCapacity : (ofCapacity 1).planFor Model.nodes "Node" ["Id", "Name", "Other"] =
    (.ok .node, .ofNodes 0) := by
  rw [planFor, key_node]
  rfl

theorem planFor_node_ofNodes (hits : Nat) :
    (ofNodes hits).planFor Model.nodes "Node" ["Id", "Name", "Other"] = (.ok .node, .ofNodes (hits + 1)) := by
  rw [planFor, key_node]
  rfl

end PlanCache

namespace ShapedItem

/-- A node without another one in it. -/
def single (id name : String) : ShapedItem :=
  [("Id", ⟨.scalar .string, .str id, .scalar⟩), ("Name", ⟨.scalar .string, .str name, .scalar⟩),
    ("Other", ⟨.entity "Node", .null, .absent .entity⟩)]

/-- A node with another one in it. -/
def nested (id name otherId otherName : String) : ShapedItem :=
  [("Id", ⟨.scalar .string, .str id, .scalar⟩), ("Name", ⟨.scalar .string, .str name, .scalar⟩),
    ("Other", ⟨.entity "Node", .obj [("Id", .str otherId), ("Name", .str otherName)],
      .object .entity (single otherId otherName)⟩)]

section

variable {g : Graph} {id otherId : String}

/-- A node without another one in it is born with its name. -/
theorem run_single (name : String) (hnew : (some id).bind (g.find? "Node") = none) :
    (ShapedItem.materialize Model.nodes "Node" (single id name)).run ⟨g, .ofNodes 0⟩ =
      (.ok g.instances.size, ⟨g.bear (.node id name .null), .ofNodes 1⟩) := by
  have hkey : (single id name).identity? Model.nodes "Node" = some id := rfl
  have hplan : (Making.planFor Model.nodes "Node" (single id name).names).run ⟨g, .ofNodes 0⟩ =
      (.ok .node, ⟨g, .ofNodes 1⟩) := by
    rw [Making.run_planFor]
    exact congrArg (fun planned => (planned.1, (⟨g, planned.2⟩ : Workspace)))
      (PlanCache.planFor_node_ofNodes 0)
  rw [run_materialize hkey hnew hplan rfl, Making.run_addInstance, hnew]
  rfl

/-- The node inside is born first. -/
theorem run_nested (name otherName : String) (hnew : (some id).bind (g.find? "Node") = none)
    (hother : (some otherId).bind (g.find? "Node") = none) :
    (ShapedItem.materialize Model.nodes "Node" (nested id name otherId otherName)).run
        ⟨g, .ofCapacity 1⟩ =
      (Making.addInstance (.node id name (.object g.instances.size))).run
        ⟨g.bear (.node otherId otherName .null), .ofNodes 1⟩ := by
  have hkey : (nested id name otherId otherName).identity? Model.nodes "Node" = some id := rfl
  have hplan : (Making.planFor Model.nodes "Node" (nested id name otherId otherName).names).run
      ⟨g, .ofCapacity 1⟩ = (.ok .node, ⟨g, .ofNodes 0⟩) := by
    rw [Making.run_planFor]
    exact congrArg (fun planned => (planned.1, (⟨g, planned.2⟩ : Workspace)))
      PlanCache.planFor_node_ofCapacity
  have hinner := run_bind_of_ok (f := fun id => pure (Value.object id)) (run_single otherName hother)
  have hfields : (assignFields "Node" (ShapedItem.members Model.nodes (nested id name otherId otherName)) []
      ["Id", "Name", "Other"]).run ⟨g, .ofNodes 0⟩ =
      (.ok (Instance.node id name (.object g.instances.size)).fields,
        ⟨g.bear (.node otherId otherName .null), .ofNodes 1⟩) :=
    run_bind_of_ok (Making.run_inMember_eq_ok.mpr hinner)
  rw [run_materialize hkey hnew hplan hfields]
  rfl

end

/-- A node that holds another one is made of its own members, after the other one. -/
theorem materialize_fresh_otherInside :
    ∃ w', (ShapedItem.materialize Model.nodes "Node" (nested "a" "outer" "b" "inner")).run
        ⟨.empty, .ofCapacity 1⟩ = (.ok 1, w') ∧
      Graph.empty.GrowsTo w'.graph ∧ w'.graph.find? "Node" "a" = some 1 ∧
      ∃ plan i, w'.graph.instances[1]? = some i ∧
        i.MadeOf Model.nodes "Node" (nested "a" "outer" "b" "inner") plan .empty w'.graph := by
  have ha : (some "a").bind (Graph.empty.find? "Node") = none := rfl
  have hb : (some "b").bind (Graph.empty.find? "Node") = none := rfl
  have hrun := (run_nested "outer" "inner" ha hb).trans (Making.run_addInstance _ _)
  obtain ⟨hgrows, -, hfind, hmade⟩ := materialize_fresh hrun fun _ _ => rfl
  obtain ⟨plan, i, -, hi, hmade⟩ := hmade fun key hkey => by
    cases hkey
    decide
  exact ⟨_, hrun, hgrows, hfind "a" rfl, plan, i, hi, hmade⟩

/-- Where a node holds a node with its own identity, the result is the node inside, and it is not made of
the object. -/
theorem materialize_sameInside :
    (⟨"nodes/a", .obj [("Name", .str "outer"), ("Other", .obj [("Id", .str "a"), ("Name", .str "inner")])]⟩ :
        Document).shapeEntity Model.nodes "Node" = .ok (nested "a" "outer" "a" "inner") ∧
      ∃ w', (ShapedItem.materialize Model.nodes "Node" (nested "a" "outer" "a" "inner")).run
          ⟨.empty, .ofCapacity 1⟩ = (.ok 0, w') ∧
        ∃ i, w'.graph.instances[0]? = some i ∧ i.fields.lookup "Name" = some (.string "inner") ∧
          ∀ plan g g', ¬ i.MadeOf Model.nodes "Node" (nested "a" "outer" "a" "inner") plan g g' := by
  have ha : (some "a").bind (Graph.empty.find? "Node") = none := rfl
  have hrun := (run_nested "outer" "inner" ha ha).trans (Making.run_addInstance _ _)
  refine ⟨rfl, _, hrun, .node "a" "inner" .null, rfl, rfl, fun plan g g' hmade => ?_⟩
  obtain ⟨value, w, w', hvalue, hmaterialized, -⟩ := hmade.fields.values "Name" (.string "inner") rfl
  cases hvalue
  have hsame : Value.string "outer" = .string "inner" :=
    Except.ok.inj (Prod.mk.inj hmaterialized).1
  exact absurd (Value.string.inj hsame) (by decide)

end ShapedItem

end DocumentQuery
