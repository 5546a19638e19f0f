import DocumentQuery.Instance.Materialize
import DocumentQuery.Proofs.Instance.Constructors
import DocumentQuery.Proofs.Lists
import DocumentQuery.Proofs.Run.Respects
import DocumentQuery.Proofs.Shape.Fitting
import DocumentQuery.Shape.Shaping

/-!
# Documents of another form

Once the documents of a query are there, values are made of them: they are shaped, converted and
assembled. None of this asks the store or refuses the query. It fails only because a document does not
have the form that the model declares, or because the model uses a type that it does not hold. The rules
follow the definitions, one for each function; what is said of shaping is said of one step of it, and of all
steps from there (`Shaper.iterate_step`).

Some failures say more: that a value was given a shape that its declared type does not have. A value fails
so only if a value inside of it does not fit (`Making.blames_value`).

Making values changes a workspace in two ways only: plans are kept, and instances are born, each of them
for the identity of an object that is embedded in the value. What these two steps keep true stays true
however far a value is made, also when it cannot be finished (`Making.keeps_value`).

The one induction over values is `Making.blames_value`, and it carries three things at once: the invariant of
the workspace, which failures there are, and what a misfit says of the value. Each of them could be had by an
induction of its own, over the same five functions; `Making.keeps_value` and `Making.faults_item` are what is
left when the other two are forgotten.

## Main definitions

* `Failure.IsFault` — the failures of documents of another form
* `Failure.IsMisfit` — the failures of values that do not have the shape of their declared type
* `Failure.Blames` — what a failure to make a value says of the values in it
* `Shaper.Faults` — a shaper that fails only so
* `ShapedValue.identities` — the identities of the objects in a value, at any depth
* `Making.Kept` — what is kept true by births for given identities
-/

namespace DocumentQuery

/-! ## Failures -/

/-- The failures that say that a document is of another form than the model declares, or that the model lacks
a type. They are the only ones that come from making values of documents. -/
def Failure.IsFault : Failure → Prop
  | .materialization _ => True
  | .query (.unknownType _) => True
  | _ => False

theorem Failure.IsFault.inMember {e : Failure} (h : e.IsFault) (typeName member : String) :
    (e.inMember typeName member).IsFault := by
  cases e <;> exact h

/-- The faults that say that a value does not have the shape of its declared type. Naming the member in which
a fault lies does not change what kind of fault it is. -/
def InstanceFault.IsMisfit : InstanceFault → Prop
  | .notAScalar _ | .notACollection _ | .notAnObject _ | .notAScalarElement => True
  | .inMember _ _ fault => fault.IsMisfit
  | _ => False

/-- The failures that say that a value does not have the shape of its declared type. -/
def Failure.IsMisfit : Failure → Prop
  | .materialization fault => fault.IsMisfit
  | _ => False

theorem Failure.IsMisfit.of_inMember {e : Failure} {typeName member : String}
    (h : (e.inMember typeName member).IsMisfit) : e.IsMisfit := by
  cases e <;> exact h

/-- The faults that are in what is stored or in the model, and not in the shape of a value. A scalar that
cannot be converted is one, and so is a type without a constructor that would do. -/
structure Failure.IsStored (e : Failure) : Prop where
  /-- It is a failure of documents or of the model. -/
  fault : e.IsFault
  /-- It does not say that a value has the wrong shape. -/
  fit : ¬ e.IsMisfit

/-- What a failure to make values says of them: it is a fault, and if it is a misfit, one of the values does
not fit. So where all values fit there is no misfit. -/
structure Failure.Blames (values : ShapedValue → Prop) (e : Failure) : Prop where
  fault : e.IsFault
  misfit : e.IsMisfit → ∃ u, values u ∧ ¬ u.Fits

/-- Failures that are passed on: plans and scalars fail so, and objects fail so with their members. Any class
of failures with these two properties can be carried through making a value. -/
structure Failure.Passed (fails : Failure → Prop) : Prop where
  /-- The faults of what is stored are among them. -/
  stored : ∀ e, e.IsStored → fails e
  /-- They stay among them when a member is named. -/
  inMember : ∀ e typeName member, fails e → fails (e.inMember typeName member)

theorem Failure.passed_isFault : Failure.Passed Failure.IsFault :=
  ⟨fun _ h => h.fault, fun _ typeName member h => h.inMember typeName member⟩

theorem Failure.passed_blames (values : ShapedValue → Prop) : Failure.Passed (Failure.Blames values) :=
  ⟨fun _ h => ⟨h.fault, fun hmisfit => absurd hmisfit h.fit⟩,
    fun _ typeName member h =>
      ⟨h.fault.inMember typeName member, fun hmisfit => h.misfit hmisfit.of_inMember⟩⟩

theorem Failure.Blames.mono {values values' : ShapedValue → Prop} {e : Failure} (h : e.Blames values)
    (hvalues : ∀ u, values u → values' u) : e.Blames values' :=
  ⟨h.fault, fun hmisfit => (h.misfit hmisfit).imp fun u hu => ⟨hvalues u hu.1, hu.2⟩⟩

open DocumentQuery.Except (FailsOnly failsOnly_ok failsOnly_error failsOnly_mapM)

/-! ## Shaping -/

theorem Expectation.refuse_failsOnly {α : Type} (expected : Expectation) (raw : Json) :
    FailsOnly Failure.IsFault (expected.refuse raw : Except Failure α) :=
  failsOnly_error trivial

theorem shapeProperties_failsOnly {typeName : String} {shaper : Property → Shaper}
    {properties : List Property} {item : ShapedItem}
    (h : ∀ p ∈ properties, FailsOnly Failure.IsFault (shaper p p.declared)) :
    FailsOnly Failure.IsFault (shapeProperties typeName shaper item properties) := by
  induction properties generalizing item with
  | nil => exact failsOnly_ok item
  | cons p ps ih =>
    rw [shapeProperties]
    have hp := h p List.mem_cons_self
    split
    · exact ih fun p' hp' => h p' (List.mem_cons_of_mem p hp')
    next e he => exact failsOnly_error ((hp e he).inMember typeName p.name)

theorem shapeType_failsOnly {m : Model} {typeName : String} {shaper : TypeDecl → Property → Shaper}
    (h : ∀ type p, FailsOnly Failure.IsFault (shaper type p p.declared)) :
    FailsOnly Failure.IsFault (shapeType m typeName shaper) := by
  unfold shapeType Model.typeNamed
  cases m.type? typeName with
  | none => exact failsOnly_error trivial
  | some type => exact shapeProperties_failsOnly fun p _ => h type p

namespace Shaper

/-- A shaper that fails only because the stored value is of another form. -/
def Faults (shaper : Shaper) : Prop :=
  ∀ declared, FailsOnly Failure.IsFault (shaper declared)

theorem faults_ofLeaf (raw : Json) : (ofLeaf raw).Faults := by
  intro declared
  unfold ofLeaf
  repeat' split
  all_goals first | exact failsOnly_ok _ | exact failsOnly_error trivial

variable {m : Model} {inner : Json → Shaper}

theorem objectWith_failsOnly (h : ∀ raw, (inner raw).Faults) (typeName : String) (members : Table Json) :
    FailsOnly Failure.IsFault (objectWith m inner typeName members) :=
  shapeType_failsOnly fun _ p => h _ p.declared

theorem elementWith_failsOnly (h : ∀ raw, (inner raw).Faults) (typeName : String) (raw : Json) :
    FailsOnly Failure.IsFault (elementWith m inner typeName raw) := by
  cases raw with
  | obj members => exact objectWith_failsOnly h typeName members
  | _ => exact Expectation.refuse_failsOnly _ _

theorem itemsOf_failsOnly (raw : Json) : FailsOnly Failure.IsFault (itemsOf raw) := by
  cases raw with
  | arr items => exact failsOnly_ok _
  | null => exact failsOnly_ok _
  | _ => exact Expectation.refuse_failsOnly _ _

theorem listWith_failsOnly (h : ∀ raw, (inner raw).Faults) (items : List Json) (element : DeclaredType) :
    FailsOnly Failure.IsFault (listWith m inner items element) := by
  cases element with
  | scalar _ => exact failsOnly_ok _
  | complex typeName | entity typeName =>
    exact (failsOnly_mapM fun raw _ => elementWith_failsOnly h typeName raw).map _
  | collection _ _ => exact failsOnly_error trivial

/-- A step fails only because the value is of another form, if the shapers of the fields do. Every case of a
step either refuses the value or hands its parts on. -/
theorem faults_step (h : ∀ raw, (inner raw).Faults) (raw : Json) : (step m inner raw).Faults := by
  intro declared
  cases declared with
  | scalar _ => exact failsOnly_ok _
  | complex typeName =>
    cases raw with
    | obj members => exact (objectWith_failsOnly h typeName members).bind fun _ _ => failsOnly_ok _
    | null => exact failsOnly_ok _
    | _ => exact Expectation.refuse_failsOnly _ _
  | entity typeName =>
    cases raw with
    | obj members => exact (objectWith_failsOnly h typeName members).bind fun _ _ => failsOnly_ok _
    | _ => exact failsOnly_ok _
  | collection _ element =>
    refine (itemsOf_failsOnly raw).bind fun items _ => ?_
    exact (listWith_failsOnly h items element).bind fun _ _ => failsOnly_ok _

/-- A stored value cannot be shaped only because it is of another form. All steps follow from one, since the
shaper of a value is what enough steps make of any other. -/
theorem faults_ofJson (m : Model) (raw : Json) : (ofJson m raw).Faults := by
  have hsteps : ∀ n raw, ((step m)^[n] ofLeaf raw).Faults := by
    intro n
    induction n with
    | zero => exact faults_ofLeaf
    | succ n ih =>
      rw [Function.iterate_succ_apply']
      exact faults_step ih
  rw [← iterate_step ofLeaf (Nat.lt_succ_self raw.depth)]
  exact hsteps _ raw

end Shaper

namespace Document

theorem shapeEntity_failsOnly (m : Model) (d : Document) (typeName : String) :
    FailsOnly Failure.IsFault (d.shapeEntity m typeName) := by
  refine shapeType_failsOnly fun type p => ?_
  split
  · exact Shaper.faults_ofLeaf _ _
  · rw [fieldShapers, Shaper.ofField_ofMembers]
    exact Shaper.faults_ofJson m _ _

theorem shapeMembers_failsOnly (m : Model) (d : Document) (members : List ProjectedMember) :
    FailsOnly Failure.IsFault (d.shapeMembers m members) := by
  refine (failsOnly_mapM fun member _ => ?_).bind fun _ _ => failsOnly_ok _
  have hmember : FailsOnly Failure.IsFault (d.shapeMember m member) := Shaper.faults_ofJson m _ _
  exact hmember.bind fun _ _ => failsOnly_ok _

end Document

/-- A document cannot be shaped only because it is of another form. -/
theorem Projection.shape_failsOnly (m : Model) (typeName : String) (d : Document) (p : Projection) :
    FailsOnly Failure.IsFault (p.shape m typeName d) := by
  cases p with
  | entity => exact d.shapeEntity_failsOnly m typeName
  | field member => exact d.shapeMembers_failsOnly m [member]
  | members _ parts => exact d.shapeMembers_failsOnly m parts

/-! ## Converting -/

namespace Json

theorem toInteger_failsOnly (raw : Json) : FailsOnly Failure.IsStored raw.toInteger := by
  unfold toInteger
  repeat' split
  all_goals first | exact failsOnly_ok _ | exact failsOnly_error ⟨trivial, not_false⟩

theorem toInstant_failsOnly (raw : Json) : FailsOnly Failure.IsStored raw.toInstant := by
  unfold toInstant
  cases raw with
  | str text =>
    have hparse : FailsOnly (fun _ => True) (Chronology.read text) := fun _ _ => trivial
    exact hparse.mapError fun _ _ => ⟨trivial, not_false⟩
  | num n => dsimp only; split <;> first | exact failsOnly_ok _ | exact failsOnly_error ⟨trivial, not_false⟩
  | obj members =>
    dsimp only
    split <;> first | exact failsOnly_ok _ | exact failsOnly_error ⟨trivial, not_false⟩
  | _ => exact failsOnly_error ⟨trivial, not_false⟩

theorem toVariant_failsOnly (m : Model) (name : String) (raw : Json) :
    FailsOnly Failure.IsStored (raw.toVariant m name) := by
  unfold toVariant Model.enumNamed
  cases m.enum? name with
  | none => exact failsOnly_error ⟨trivial, not_false⟩
  | some enum =>
    dsimp only
    split <;> first | exact failsOnly_ok _ | exact failsOnly_error ⟨trivial, not_false⟩

end Json

/-- A stored scalar cannot be converted only because of what is stored, or because the model lacks an enum. It
is never the shape of a value, which was decided before. -/
theorem ScalarType.convert_stored (m : Model) (type : ScalarType) (raw : Json) :
    FailsOnly Failure.IsStored (type.convert m raw) := by
  unfold convert
  split
  · exact failsOnly_ok _
  · cases type with
    | int => exact raw.toInteger_failsOnly.map _
    | timestamp => exact raw.toInstant_failsOnly.map _
    | «enum» name => exact raw.toVariant_failsOnly m name
    | bool | float | string =>
      simp only [convertPresent]
      split <;> first | exact failsOnly_ok _ | exact failsOnly_error ⟨trivial, not_false⟩

/-- A stored scalar cannot be converted only because it is of another form. -/
theorem ScalarType.convert_failsOnly (m : Model) (type : ScalarType) (raw : Json) :
    FailsOnly Failure.IsFault (type.convert m raw) :=
  fun e he => (type.convert_stored m raw e he).fault

theorem InstancePlan.build_failsOnly (m : Model) (typeName : String) (names : List String) :
    FailsOnly Failure.IsStored (build m typeName names) := by
  intro e he
  obtain ⟨type, -, rfl⟩ := noConstructor_of_build he
  exact ⟨trivial, not_false⟩

/-! ## Dispatching -/

/-- Only the declared types of objects are types of objects: where there is none, no role that an object may
have is the kind of value that the type declares. -/
theorem DeclaredType.objectType_eq_error {declared : DeclaredType} {e : Failure}
    (h : declared.objectType = .error e) :
    e = .materialization (.notAnObject declared) ∧ ∀ role : ObjectRole, role.kind ≠ declared.valueKind := by
  cases declared with
  | scalar type =>
    cases h
    exact ⟨rfl, fun role => by cases role <;> exact nofun⟩
  | complex name | entity name => exact nomatch h
  | collection kind element =>
    cases h
    exact ⟨rfl, fun role => by cases role <;> cases element <;> exact nofun⟩

/-! ## Embedded objects -/

mutual

/-- The types and identities of the objects in a value, at any depth and in the order in which they are met.
What is not an object of its declared type adds none. -/
def ShapedValue.identities (m : Model) : ShapedValue → List (String × Option String)
  | ⟨declared, _, content⟩ => ShapedContent.identities m declared content

/-- The types and identities of the objects in a content of a declared type, at any depth. -/
def ShapedContent.identities (m : Model) (declared : DeclaredType) :
    ShapedContent → List (String × Option String)
  | .object _ item =>
    match declared.objectType with
    | .ok typeName =>
      (typeName, ShapedItem.identity? m typeName item) :: ShapedItem.embedded m item
    | .error _ => []
  | .objects items =>
    match declared with
    | .collection _ element =>
      match element.objectType with
      | .ok typeName => ShapedItem.listed m typeName items
      | .error _ => []
    | _ => []
  | .scalar | .absent _ | .scalars _ => []

/-- The types and identities of the objects that are embedded in an object, at any depth. -/
def ShapedItem.embedded (m : Model) : List (String × ShapedValue) → List (String × Option String)
  | [] => []
  | (_, value) :: rest => ShapedValue.identities m value ++ ShapedItem.embedded m rest

/-- The types and identities of the objects of a list, at any depth. -/
def ShapedItem.listed (m : Model) (typeName : String) :
    List (List (String × ShapedValue)) → List (String × Option String)
  | [] => []
  | item :: rest =>
    (typeName, ShapedItem.identity? m typeName item) ::
      (ShapedItem.embedded m item ++ ShapedItem.listed m typeName rest)

end

/-! ## Making -/

namespace Making

variable {α β : Type} {m : Model} {inv : Workspace → Prop} {allowed : String × Option String → Prop}
  {fails : Failure → Prop}

/-- What stays true of a workspace when plans are kept and instances with allowed identities are born. These
are the two ways in which making a value changes a workspace. -/
structure Kept (inv : Workspace → Prop) (allowed : String × Option String → Prop) : Prop where
  /-- Keeping other plans does not matter. -/
  plans : ∀ w plans, inv w → inv { w with plans := plans }
  /-- Nor does the birth of an instance, for an allowed identity that is not taken. -/
  bear : ∀ w i, inv w → allowed (i.typeName, i.key) → i.key.bind (w.graph.find? i.typeName) = none →
    inv { w with graph := w.graph.bear i }

/-- A computation on a workspace that keeps something true and fails only in given ways. Nothing is said of
its result, which is why the rules need no assertions about values. -/
def Ends (inv : Workspace → Prop) (fails : Failure → Prop) (x : Making α) : Prop :=
  Respects inv fails x fun _ => True

/-- A computation on a workspace that keeps something true and fails only because of documents of another
form. -/
def Keeps (inv : Workspace → Prop) (x : Making α) : Prop :=
  Respects inv Failure.IsFault x fun _ => True

theorem ends_pure (a : α) : Ends inv fails (pure a) :=
  Respects.pure trivial

theorem Ends.bind {x : Making α} {f : α → Making β} (hx : x.Ends inv fails)
    (hf : ∀ a, (f a).Ends inv fails) : (x >>= f).Ends inv fails :=
  Respects.bind hx fun a _ => hf a

theorem Ends.mono {fails' : Failure → Prop} {x : Making α} (hx : x.Ends inv fails)
    (hfails : ∀ e, fails e → fails' e) : x.Ends inv fails' :=
  Respects.mono hx (fun _ h => h) hfails

theorem ends_ofExcept {r : Except Failure α} (h : FailsOnly fails r) : Ends inv fails (ofExcept r) := by
  cases r with
  | error e => exact Respects.throw (h e rfl) _
  | ok a => exact ends_pure a

/-- Planning changes the plans alone. Whether the plan was kept or is built now, the graph is not looked at. -/
theorem run_planFor (m : Model) (typeName : String) (names : List String) (w : Workspace) :
    (planFor m typeName names).run w = ((w.plans.planFor m typeName names).1,
      { w with plans := (w.plans.planFor m typeName names).2 }) := by
  show (ofExcept (w.plans.planFor m typeName names).1).run _ = _
  cases (w.plans.planFor m typeName names).1 <;> rfl

/-- An instance is born unless another one stands for its identity. In the first case the graph grows by one
instance, and in the second it stays as it is and the other one is returned. -/
theorem run_addInstance (i : Instance) (w : Workspace) :
    (addInstance i).run w = match i.key.bind (w.graph.find? i.typeName) with
      | some existing => (.ok existing, w)
      | none => (.ok w.graph.instances.size, { w with graph := w.graph.bear i }) := by
  have hget : ExceptT.run (get : Making Workspace) w = (.ok w, w) := rfl
  unfold addInstance Graph.bear
  rw [run_bind_state, hget]
  dsimp only
  cases i.key with
  | none => rfl
  | some key =>
    rw [Option.bind_some]
    dsimp only
    cases w.graph.find? i.typeName key <;> rfl

theorem ends_planFor (hinv : Kept inv allowed) (hfails : Failure.Passed fails) (typeName : String)
    (names : List String) : (planFor m typeName names).Ends inv fails := by
  intro w hw
  rw [run_planFor]
  refine ⟨hinv.plans w _ hw, fun _ _ => trivial, fun e he => ?_⟩
  have he : (w.plans.planFor m typeName names).1 = .error e := he
  unfold PlanCache.planFor at he
  dsimp only at he
  split at he
  · exact nomatch he
  · split at he
    · exact nomatch he
    next e' hbuild =>
      cases he
      exact hfails.stored e (InstancePlan.build_failsOnly m typeName names e hbuild)

theorem ends_addInstance (hinv : Kept inv allowed) {i : Instance} (hi : allowed (i.typeName, i.key)) :
    (addInstance i).Ends inv fails := by
  intro w hw
  rw [run_addInstance]
  split
  · exact ⟨hw, fun _ _ => trivial, fun _ he => nomatch he⟩
  next hnew => exact ⟨hinv.bear w i hw hi hnew, fun _ _ => trivial, fun _ he => nomatch he⟩

theorem ends_assignFields (hfails : Failure.Passed fails) {typeName : String}
    {members : Table (Making Value)} (h : ∀ member ∈ members, member.2.Ends inv fails)
    (fields : Table Value) (names : List String) :
    (assignFields typeName members fields names).Ends inv fails := by
  induction names generalizing fields with
  | nil => exact ends_pure fields
  | cons name names ih =>
    rw [assignFields]
    split
    next member hmember =>
      have hmade : (inMember typeName name member).Ends inv fails :=
        Respects.rethrow (h _ (mem_of_lookup hmember)) fun e he => hfails.inMember e typeName name he
      exact hmade.bind fun value => ih _
    · exact ih fields

theorem ends_assemble (hinv : Kept inv allowed) (hfails : Failure.Passed fails) {typeName : String}
    {key : Option String} {members : Table (Making Value)} (hkey : allowed (typeName, key))
    (h : ∀ member ∈ members, member.2.Ends inv fails) :
    (assemble m typeName key members).Ends inv fails := by
  unfold assemble
  refine Respects.get_bind fun w _ => ?_
  split
  · exact ends_pure _
  · refine (ends_planFor hinv hfails typeName _).bind fun plan => ?_
    exact (ends_assignFields hfails h _ _).bind fun fields => ends_addInstance hinv hkey

theorem ends_assembleAll (hinv : Kept inv allowed) (hfails : Failure.Passed fails) {typeName : String}
    {items : List ShapedItem} (hkeys : ∀ item ∈ items, allowed (typeName, item.identity? m typeName))
    (h : ∀ item ∈ items, ∀ member ∈ ShapedItem.members m item, member.2.Ends inv fails) :
    (assembleAll m typeName (ShapedItem.withMembers m items)).Ends inv fails := by
  induction items with
  | nil => exact ends_pure []
  | cons item items ih =>
    rw [ShapedItem.withMembers, assembleAll]
    have hitem : (assemble m typeName (item.identity? m typeName) (ShapedItem.members m item)).Ends inv
        fails := ends_assemble hinv hfails (hkeys _ List.mem_cons_self) (h _ List.mem_cons_self)
    exact hitem.bind fun id => (ih (fun item hi => hkeys item (List.mem_cons_of_mem _ hi))
      fun item hi => h item (List.mem_cons_of_mem _ hi)).bind fun _ => ends_pure _

/-- The scalars of a list are converted, unless the list does not fit. A list of scalars whose declared
element is none is the value that is to blame. -/
theorem failsOnly_convertAll (items : List Json) (declared : DeclaredType) (raw : Json) :
    FailsOnly (Failure.Blames (ShapedValue.Occurs ⟨declared, raw, .scalars items⟩))
      (convertAll m items declared) := by
  have hmisfit (hkind : ValueKind.scalarList ≠ declared.valueKind) :
      ∃ u, ShapedValue.Occurs ⟨declared, raw, .scalars items⟩ u ∧ ¬ u.Fits :=
    ⟨_, .self _, fun hfits => hkind hfits.kind⟩
  cases declared with
  | collection kind element =>
    cases element with
    | scalar type =>
      have hvalues : FailsOnly Failure.IsStored (items.mapM (type.convert m)) :=
        failsOnly_mapM fun raw _ => type.convert_stored m raw
      refine FailsOnly.bind (fun e he => ?_) fun _ _ => failsOnly_ok _
      exact (Failure.passed_blames _).stored e (hvalues e he)
    | _ => exact failsOnly_error ⟨trivial, fun _ => hmisfit nofun⟩
  | _ => exact failsOnly_error ⟨trivial, fun _ => hmisfit nofun⟩

/-- The identities of the objects of a list are among those of the list. -/
theorem mem_listed {typeName : String} {items : List ShapedItem} {item : ShapedItem} (hi : item ∈ items) :
    (typeName, item.identity? m typeName) ∈ ShapedItem.listed m typeName items ∧
      ShapedItem.embedded m item ⊆ ShapedItem.listed m typeName items := by
  induction items with
  | nil => cases hi
  | cons first rest ih =>
    rw [ShapedItem.listed]
    rcases List.mem_cons.mp hi with rfl | hi
    · exact ⟨List.mem_cons_self, fun _ h => List.mem_cons_of_mem _ (List.mem_append_left _ h)⟩
    · obtain ⟨hself, hembedded⟩ := ih hi
      exact ⟨List.mem_cons_of_mem _ (List.mem_append_right _ hself),
        fun _ h => List.mem_cons_of_mem _ (List.mem_append_right _ (hembedded h))⟩

mutual

/-- Making a value keeps what is kept by births for the identities of its objects. If it fails with a misfit,
a value that occurs in it does not fit. By recursion on the value, with one case for each kind of content. -/
theorem blames_value (hinv : Kept inv allowed) : (value : ShapedValue) →
    (∀ identity ∈ value.identities m, allowed identity) →
      (value.materialize m).Ends inv (Failure.Blames value.Occurs)
  | ⟨declared, raw, content⟩, hallowed => by
    rw [ShapedValue.materialize]
    exact blames_content hinv declared raw content hallowed

theorem blames_content (hinv : Kept inv allowed) (declared : DeclaredType) (raw : Json) :
    (content : ShapedContent) → (∀ identity ∈ content.identities m declared, allowed identity) →
      (content.materialize m declared raw).Ends inv
        (Failure.Blames (ShapedValue.Occurs ⟨declared, raw, content⟩))
  | .scalar, _ => by
    cases declared with
    | scalar type =>
      rw [ShapedContent.materialize]
      refine ends_ofExcept fun e he => ?_
      exact (Failure.passed_blames _).stored e (type.convert_stored m raw e he)
    | collection kind element =>
      have hkind : ValueKind.scalar ≠ (DeclaredType.collection kind element).valueKind := by
        cases element <;> exact nofun
      exact Respects.throw ⟨trivial, fun _ => ⟨_, .self _, fun hfits => hkind hfits.kind⟩⟩ _
    | complex name | entity name =>
      exact Respects.throw ⟨trivial, fun _ => ⟨_, .self _, fun hfits => nomatch hfits.kind⟩⟩ _
  | .absent _, _ => by
    rw [ShapedContent.materialize]
    exact ends_pure _
  | .object role item, hallowed => by
    rw [ShapedContent.identities] at hallowed
    rw [ShapedContent.materialize]
    cases htype : declared.objectType with
    | error e =>
      obtain ⟨rfl, hkind⟩ := DeclaredType.objectType_eq_error htype
      exact Respects.throw ⟨trivial, fun _ => ⟨_, .self _, fun hfits => hkind role hfits.kind⟩⟩ _
    | ok typeName =>
      rw [htype] at hallowed
      have hmembers := blames_members hinv item fun identity h =>
        hallowed identity (List.mem_cons_of_mem _ h)
      refine (ends_assemble hinv (Failure.passed_blames _) (hallowed _ List.mem_cons_self)
        fun member hmember => ?_).bind fun id => ends_pure _
      exact (hmembers member hmember).mono fun e he => he.mono fun u hu =>
        ShapedItem.Holds.occurs hu List.mem_cons_self
  | .scalars items, _ => by
    rw [ShapedContent.materialize]
    exact ends_ofExcept (failsOnly_convertAll items declared raw)
  | .objects items, hallowed => by
    rw [ShapedContent.materialize]
    cases declared with
    | collection kind element =>
      rw [ShapedContent.identities] at hallowed
      rw [collectObjects]
      cases htype : element.objectType with
      | error e =>
        obtain ⟨rfl, -⟩ := DeclaredType.objectType_eq_error htype
        refine Respects.throw ⟨trivial, fun _ => ⟨_, .self _, fun hfits => ?_⟩⟩ _
        -- the elements are no objects, so the list is one of scalars or one of lists
        cases element with
        | scalar type => exact nomatch hfits.kind
        | complex name | entity name => exact nomatch htype
        | collection _ _ => exact nomatch hfits.flat kind _ rfl
      | ok typeName =>
        rw [htype] at hallowed
        have hlists := blames_lists hinv typeName items hallowed
        have hmade : (assembleAll m typeName (ShapedItem.withMembers m items)).Ends inv
            (Failure.Blames (ShapedValue.Occurs ⟨.collection kind element, raw, .objects items⟩)) :=
          ends_assembleAll hinv (Failure.passed_blames _) (fun item hi => hallowed _ (mem_listed hi).1)
            fun item hi member hmember => (hlists item hi member hmember).mono fun e he =>
              he.mono fun u hu => ShapedItem.Holds.occurs hu hi
        exact hmade.bind fun values => ends_pure (Value.collect kind values)
    | scalar type | complex name | entity name =>
      exact Respects.throw ⟨trivial, fun _ => ⟨_, .self _, fun hfits => nomatch hfits.kind⟩⟩ _

theorem blames_members (hinv : Kept inv allowed) : (item : List (String × ShapedValue)) →
    (∀ identity ∈ ShapedItem.embedded m item, allowed identity) →
      ∀ member ∈ ShapedItem.members m item, member.2.Ends inv (Failure.Blames (ShapedItem.Holds item))
  | [], _ => by simp [ShapedItem.members]
  | (name, value) :: rest, hallowed => by
    rw [ShapedItem.embedded] at hallowed
    rw [ShapedItem.members]
    have hvalue := blames_value hinv value fun identity h => hallowed identity (List.mem_append_left _ h)
    have hrest := blames_members hinv rest fun identity h => hallowed identity (List.mem_append_right _ h)
    refine List.forall_mem_cons.mpr ⟨hvalue.mono fun e he => he.mono fun u hu => ?_,
      fun member hmember => (hrest member hmember).mono fun e he => he.mono fun u hu => ?_⟩
    · exact ⟨(name, value), List.mem_cons_self, hu⟩
    · obtain ⟨member, hmember, hu⟩ := hu
      exact ⟨member, List.mem_cons_of_mem _ hmember, hu⟩

theorem blames_lists (hinv : Kept inv allowed) (typeName : String) :
    (items : List (List (String × ShapedValue))) →
    (∀ identity ∈ ShapedItem.listed m typeName items, allowed identity) →
      ∀ item ∈ items, ∀ member ∈ ShapedItem.members m item,
        member.2.Ends inv (Failure.Blames (ShapedItem.Holds item))
  | [], _ => fun _ hi => nomatch hi
  | item :: rest, hallowed => by
    rw [ShapedItem.listed] at hallowed
    exact List.forall_mem_cons.mpr
      ⟨blames_members hinv item fun identity h =>
          hallowed identity (List.mem_cons_of_mem _ (List.mem_append_left _ h)),
        blames_lists hinv typeName rest fun identity h =>
          hallowed identity (List.mem_cons_of_mem _ (List.mem_append_right _ h))⟩

end

/-- Making an object keeps what is kept by births for its identity and those of the objects in it. Its own
birth comes last, after those of its members. -/
theorem blames_item (hinv : Kept inv allowed) {typeName : String} {item : ShapedItem}
    (hkey : allowed (typeName, item.identity? m typeName))
    (hallowed : ∀ identity ∈ ShapedItem.embedded m item, allowed identity) :
    (ShapedItem.materialize m typeName item).Ends inv (Failure.Blames item.Holds) :=
  ends_assemble hinv (Failure.passed_blames _) hkey (blames_members hinv item hallowed)

/-! ## Documents of another form -/

/-- Making a value keeps what is kept by births for the identities of its objects, whether it succeeds or
fails on the way. -/
theorem keeps_value (hinv : Kept inv allowed) (value : ShapedValue)
    (hallowed : ∀ identity ∈ value.identities m, allowed identity) : (value.materialize m).Keeps inv :=
  (blames_value hinv value hallowed).mono fun _ he => he.fault

theorem keeps_members (hinv : Kept inv allowed) (item : ShapedItem)
    (hallowed : ∀ identity ∈ ShapedItem.embedded m item, allowed identity) :
    ∀ member ∈ ShapedItem.members m item, member.2.Keeps inv :=
  fun member hmember => (blames_members hinv item hallowed member hmember).mono fun _ he => he.fault

theorem keeps_assignFields {typeName : String} {members : Table (Making Value)}
    (h : ∀ member ∈ members, member.2.Keeps inv) (fields : Table Value) (names : List String) :
    (assignFields typeName members fields names).Keeps inv :=
  ends_assignFields Failure.passed_isFault h fields names

/-- A computation on a workspace that fails only because of documents of another form. -/
def Faults (x : Making α) : Prop :=
  x.Keeps fun _ => True

/-- What is true of every workspace is kept by all births. -/
theorem kept_true : Kept (fun _ => True) fun _ => True :=
  ⟨fun _ _ _ => trivial, fun _ _ _ _ _ => trivial⟩

/-- An object cannot be made only because a document is of another form. -/
theorem faults_item (m : Model) (typeName : String) (item : ShapedItem) :
    (ShapedItem.materialize m typeName item).Faults :=
  (blames_item kept_true trivial fun _ _ => trivial).mono fun _ he => he.fault

/-- A result cannot be made only because a document is of another form, and with a misfit only if a value in
it does not fit. -/
theorem blames_projection (m : Model) (typeName : String) (item : ShapedItem) (p : Projection) :
    (p.materialize m typeName item).Ends (fun _ => True) (Failure.Blames item.Holds) := by
  unfold Projection.materialize
  have hitem (typeName : String) : (ShapedItem.materialize m typeName item).Ends (fun _ => True)
      (Failure.Blames item.Holds) := blames_item kept_true trivial fun _ _ => trivial
  cases p with
  | entity => exact (hitem typeName).bind fun _ => ends_pure _
  | field member =>
    dsimp only
    split
    next value hvalue =>
      refine (blames_value kept_true value fun _ _ => trivial).mono fun e he => he.mono fun u hu => ?_
      exact ⟨_, mem_of_lookup hvalue, hu⟩
    · exact ends_pure _
  | members resultType _ => exact (hitem resultType).bind fun _ => ends_pure _

/-- A result cannot be made only because a document is of another form. -/
theorem faults_projection (m : Model) (typeName : String) (item : ShapedItem) (p : Projection) :
    (p.materialize m typeName item).Faults :=
  (blames_projection m typeName item p).mono fun _ he => he.fault

end Making

end DocumentQuery
