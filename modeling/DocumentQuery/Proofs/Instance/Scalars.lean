import DocumentQuery.Proofs.Instance.Fresh
import DocumentQuery.Proofs.Instance.Recency

/-!
# Objects of scalars

A projection reads members from a document and makes a new object of them. If all members are scalars, it
always gets the members it reads, and their names are the same for every document. What the object is made of
is then up to the plan for these names, and to the document: a scalar is converted without a look at the
workspace, so the members can be made in any workspace as in any other (`Making.Still`).

Two things in a workspace can matter for such an object. One is the plan, and a cache that has given a plan
for names gives it again. The other is an instance that stands for the identity of the object.

Flatness is what makes the members independent of the workspace. An object with an object inside would look
the inner identity up, and its fields would be others in another workspace; the statements about rows that
repeat are therefore about projections to scalars.

## Main definitions

* `Making.Still` — computations that neither read nor change the workspace
* `ShapedItem.Flat` — objects of scalars
* `ShapedItem.BornBy` — the instance that is born when a plan is carried out for such an object
-/

namespace DocumentQuery

/-! ## Scalars -/

/-- Whether a value is a scalar. -/
def ShapedValue.IsScalar (value : ShapedValue) : Prop :=
  ∃ type raw, value = ⟨.scalar type, raw, .scalar⟩

/-- Whether all members of an object are scalars. -/
def ShapedItem.Flat (item : ShapedItem) : Prop :=
  ∀ name value, item.lookup name = some value → value.IsScalar

namespace Document

variable {m : Model} {d : Document} {members : List ProjectedMember}

/-- The object that members read from a document if all of them are scalars. -/
def scalarItem (d : Document) (members : List ProjectedMember) : ShapedItem :=
  Table.ofList (members.map fun member =>
    (member.resultName, ⟨member.declared, (d.field? member.source).getD .null, .scalar⟩))

/-- A scalar is shaped whatever is stored. -/
theorem shapeMember_of_scalar {member : ProjectedMember} {type : ScalarType}
    (h : member.declared = .scalar type) : d.shapeMember m member =
      .ok ⟨member.declared, (d.field? member.source).getD .null, .scalar⟩ := by
  rw [shapeMember, h]
  cases (d.field? member.source).getD .null <;> rfl

/-- If all members are scalars, shaping succeeds, and the result is the object of what was read. -/
theorem shapeMembers_of_scalar (h : ∀ member ∈ members, ∃ type, member.declared = .scalar type) :
    d.shapeMembers m members = .ok (d.scalarItem members) := by
  refine Except.bind_eq_ok.mpr ⟨_, Except.mapM_eq_ok_iff.mpr ?_, rfl⟩
  rw [List.forall₂_map_right_iff, List.forall₂_same]
  intro member hmember
  obtain ⟨type, htype⟩ := h member hmember
  rw [shapeMember_of_scalar htype]
  rfl

/-- An object that is read by scalar members is flat. -/
theorem flat_scalarItem (h : ∀ member ∈ members, ∃ type, member.declared = .scalar type) :
    (d.scalarItem members).Flat := by
  intro name value hvalue
  obtain ⟨member, hmember, he⟩ := List.mem_map.mp (Table.mem_ofList (mem_of_lookup hvalue))
  obtain ⟨type, htype⟩ := h member hmember
  rw [htype] at he
  exact ⟨type, _, (Prod.mk.inj he).2.symm⟩

/-- The names are those of the members, for every document. -/
theorem names_scalarItem (d d' : Document) (members : List ProjectedMember) :
    (d.scalarItem members).names = (d'.scalarItem members).names := by
  refine Table.names_ofList_congr ?_
  rw [List.map_map, List.map_map]
  rfl

end Document

namespace Making

variable {α β : Type} {x : Making α}

/-- Whether a computation neither reads nor changes the workspace. It then has one result, which may be a
failure. -/
def Still (x : Making α) : Prop :=
  ∃ result, ∀ w, x.run w = (result, w)

theorem run_ofExcept (result : Except Failure α) (w : Workspace) : (ofExcept result).run w = (result, w) := by
  cases result <;> rfl

theorem still_ofExcept (result : Except Failure α) : (ofExcept result).Still :=
  ⟨result, run_ofExcept result⟩

theorem Still.inMember (h : x.Still) (typeName member : String) : (inMember typeName member x).Still := by
  obtain ⟨result, hresult⟩ := h
  cases result with
  | ok a =>
    refine ⟨.ok a, fun w => ?_⟩
    rw [Making.inMember, run_rethrow, hresult]
  | error e =>
    refine ⟨.error (e.inMember typeName member), fun w => ?_⟩
    rw [Making.inMember, run_rethrow, hresult]

/-- Computations one after the other neither read nor change the workspace if none of them does. -/
theorem Still.bind {f : α → Making β} (hx : x.Still) (hf : ∀ a, (f a).Still) : (x >>= f).Still := by
  obtain ⟨result, hresult⟩ := hx
  cases result with
  | ok a =>
    obtain ⟨result', hresult'⟩ := hf a
    refine ⟨result', fun w => ?_⟩
    rw [run_bind_of_ok (hresult w), hresult']
  | error e =>
    refine ⟨.error e, fun w => ?_⟩
    rw [run_bind_state, hresult]

/-- A scalar is converted without the workspace. -/
theorem still_value {m : Model} {value : ShapedValue} (h : value.IsScalar) : (value.materialize m).Still := by
  obtain ⟨type, raw, rfl⟩ := h
  rw [ShapedValue.materialize, ShapedContent.materialize]
  exact still_ofExcept _

/-- The members of an object of scalars are made without a look at the workspace. -/
theorem still_assignFields {m : Model} {typeName : String} {item : ShapedItem} (h : item.Flat)
    (fields : Table Value) (names : List String) :
    (assignFields typeName (ShapedItem.members m item) fields names).Still := by
  induction names generalizing fields with
  | nil => exact still_ofExcept (.ok fields)
  | cons name names ih =>
    rw [assignFields, Execution.lookup_members]
    cases hvalue : item.lookup name with
    | none => exact ih fields
    | some value => exact ((still_value (h name value hvalue)).inMember typeName name).bind fun _ => ih _

end Making

/-! ## Instances -/

namespace ShapedItem

variable {m : Model} {typeName : String} {item : ShapedItem} {plan : InstancePlan} {i : Instance}
  {w w' : Workspace} {id : InstanceId}

/-- An instance that is born when a plan is carried out for an object, in whatever workspace. The fields are
the same in all of them; only the number under which it is born depends on the graph. -/
def BornBy (m : Model) (typeName : String) (item : ShapedItem) (plan : InstancePlan) (i : Instance) : Prop :=
  ∃ fields, i = ⟨typeName, item.identity? m typeName, plan.constructor?, fields, []⟩ ∧
    ∀ w, (assignFields typeName (ShapedItem.members m item) [] plan.assigned).run w = (.ok fields, w)

theorem BornBy.typeName_eq (h : BornBy m typeName item plan i) : i.typeName = typeName := by
  obtain ⟨_, rfl, -⟩ := h
  rfl

theorem BornBy.key_eq (h : BornBy m typeName item plan i) : i.key = item.identity? m typeName := by
  obtain ⟨_, rfl, -⟩ := h
  rfl

/-- If the identity of the object is new to a graph, so is that of the instance. -/
theorem BornBy.unknown {g : Graph} (h : BornBy m typeName item plan i)
    (hnew : (item.identity? m typeName).bind (g.find? typeName) = none) :
    i.key.bind (g.find? i.typeName) = none := by
  rw [h.key_eq, h.typeName_eq]
  exact hnew

/-- Once it is born, an instance stands for the identity of its object, and the other identities stay. -/
theorem BornBy.find?_bear {g : Graph} (h : BornBy m typeName item plan i)
    (hnew : (item.identity? m typeName).bind (g.find? typeName) = none) (key : String) :
    (g.bear i).find? typeName key =
      if item.identity? m typeName = some key then some g.instances.size else g.find? typeName key := by
  rw [History.find?_bear (Option.bind_eq_none_iff.mp (h.unknown hnew)), h.typeName_eq, h.key_eq]
  simp only [true_and]

/-- Its fields refer to no other instance if the object is one of scalars. -/
theorem BornBy.references_eq_nil (h : BornBy m typeName item plan i) (hflat : item.Flat) :
    ∀ field ∈ i.fields, field.2.references = [] := by
  obtain ⟨fields, rfl, hfields⟩ := h
  have hempty : item.Assigned m .empty Graph.empty [] [] :=
    ⟨List.Pairwise.nil, fun name => by simp, fun _ _ hv => nomatch hv⟩
  have hassigned := assigned_of_run plan.assigned hempty (.refl _) (hfields ⟨.empty, .ofCapacity 1⟩)
  rintro ⟨name, v⟩ hfield
  obtain ⟨value, w, w', hvalue, hrun, -⟩ :=
    hassigned.values name v (hassigned.ascending.lookup_of_mem hfield)
  obtain ⟨type, raw, rfl⟩ := hflat name value hvalue
  rw [ShapedValue.materialize, ShapedContent.materialize] at hrun
  obtain ⟨hconvert, -⟩ := Prod.mk.inj ((Making.run_ofExcept _ w).symm.trans hrun)
  exact ScalarType.references_convert hconvert

/-- An object whose identity is new is born by the plan for its members. -/
theorem run_of_bornBy (h : BornBy m typeName item plan i)
    (hplan : (w.plans.planFor m typeName item.names).1 = .ok plan)
    (hnew : (item.identity? m typeName).bind (w.graph.find? typeName) = none) :
    (ShapedItem.materialize m typeName item).run w =
      (.ok w.graph.instances.size, ⟨w.graph.bear i, (w.plans.planFor m typeName item.names).2⟩) := by
  obtain ⟨fields, rfl, hfields⟩ := h
  have hplanned := Making.run_planFor m typeName item.names w
  rw [hplan] at hplanned
  rw [run_materialize rfl hnew hplanned (hfields _), Making.run_addInstance]
  dsimp only
  rw [hnew]

/-- An object of scalars that was made although its identity was new was born by a plan, namely by the one
that the cache gave for its members. -/
theorem bornBy_of_run (hflat : item.Flat)
    (hnew : (item.identity? m typeName).bind (w.graph.find? typeName) = none)
    (hrun : (ShapedItem.materialize m typeName item).run w = (.ok id, w')) :
    ∃ plan i, (w.plans.planFor m typeName item.names).1 = .ok plan ∧ BornBy m typeName item plan i := by
  obtain ⟨plan, fields, w₁, hplan, hfields, -⟩ := parts_of_run hnew hrun
  obtain ⟨result, hresult⟩ : (assignFields typeName (ShapedItem.members m item) [] plan.assigned).Still :=
    Making.still_assignFields hflat [] plan.assigned
  rw [hresult] at hfields
  obtain ⟨rfl, -⟩ := Prod.mk.inj hfields
  exact ⟨plan, _, hplan, fields, rfl, hresult⟩

/-- An object is not made again if an instance stands for its identity. -/
theorem run_of_found (hfound : (item.identity? m typeName).bind (w.graph.find? typeName) = some id) :
    (ShapedItem.materialize m typeName item).run w = (.ok id, w) := by
  have hget : ExceptT.run (get : Making Workspace) w = (.ok w, w) := rfl
  rw [materialize, assemble, run_bind_of_ok hget, hfound]
  rfl

end ShapedItem

end DocumentQuery
