import DocumentQuery.Proofs.Graph.Rendering
import DocumentQuery.Proofs.Run.Coverage
import DocumentQuery.Proofs.Run.Siblings

/-!
# Runs with siblings in another order

When two runs differ in the order of their include trees only, the instances of the one correspond to the
instances of the other that stand for the same objects. An instance is made of the first object that is
met with its identity, and its navigations hold what was loaded last, so the order matters in general.
It does not matter in executions where it decides nothing (`Execution.Determined`): no two objects of a
type have the same identity, objects with the same members are made alike, and all loadings of a
navigation on a document are answered alike. The correspondence is then one in which corresponding
instances have corresponding fields, and everything is shown alike.

The correspondence is not one of numbers: instances are born in another order on the other side, so a number
on one side says nothing there. It goes through objects instead. Instances without identity are the difficult
case, because nothing tells two of them apart but the place at which they are referred to; an execution admits
one instance to refer to each, and that makes the place unique.

## Main definitions

* `Execution.Determined` — executions in which the order decides nothing
* `Execution.Twin` — instances of two runs that stand for the same object

## Main results

* `Execution.Sides.twins` — the correspondence between two runs that succeed
-/

namespace DocumentQuery

/-- Instances without identity that are referred to together are told apart by their places. -/
theorem History.Apart.eq_of_keyless {h : History} {α : Type} {f : α → InstanceId} {as : List α}
    (ha : h.Apart (as.map f)) {a a' : α} (hmem : a ∈ as) (hmem' : a' ∈ as) (he : f a = f a')
    (hk : h.Keyless (f a)) : a = a' := by
  by_contra hne
  have hsymm : Std.Symm fun a a' => f a = f a' → ¬ h.Keyless (f a) :=
    ⟨fun a a' hr he => he ▸ hr he.symm⟩
  exact (List.pairwise_map.mp ha).forall hmem hmem' hne he hk

namespace Execution

/-- Executions in which it does not matter in which order objects are met and navigations are loaded: an
identity tells which object is meant, the names of members tell how they are made, and the name of a
navigation tells which targets it has. The first two are about the objects that are met, and the last one
about answers. -/
structure Determined (x : Execution) : Prop extends Unambiguous x where
  /-- Objects that are met with one type and one identity are one object. -/
  object : ∀ typeName item item' key, x.Meets typeName item → x.Meets typeName item' →
    item.identity? x.model typeName = some key → item'.identity? x.model typeName = some key →
    item = item'
  /-- The plans that may be kept under the key of an object are those that are built for it. -/
  plan : ∀ typeName item plan, x.Meets typeName item →
    (x.plans (PlanCache.key typeName item.names) plan ↔
      InstancePlan.build x.model typeName item.names = .ok plan)

variable {x x' : Execution} {h h' : History} {id id' : InstanceId}

theorem Siblings.determined (hs : x.Siblings x') (hd : x.Determined) : x'.Determined where
  identity typeName loadings d item hr hitem := by
    obtain ⟨loadings', -, hr'⟩ := hs.symm.reaches hr
    rw [hs.model] at hitem ⊢
    exact hd.identity _ _ _ _ hr' hitem
  document typeName loadings₁ loadings₂ d₁ d₂ hr₁ hr₂ := by
    obtain ⟨loadings₁', -, hr₁'⟩ := hs.symm.reaches hr₁
    obtain ⟨loadings₂', -, hr₂'⟩ := hs.symm.reaches hr₂
    exact hd.document _ _ _ _ _ hr₁' hr₂'
  target typeName loadings₁ loadings₂ d l₁ l₂ hr₁ hl₁ hr₂ hl₂ hname := by
    obtain ⟨loadings₁', hshuffled₁, hr₁'⟩ := hs.symm.reaches hr₁
    obtain ⟨loadings₂', hshuffled₂, hr₂'⟩ := hs.symm.reaches hr₂
    obtain ⟨l₁', hl₁', hsame₁, -⟩ := hshuffled₁.exists_mem hl₁
    obtain ⟨l₂', hl₂', hsame₂, -⟩ := hshuffled₂.exists_mem hl₂
    rw [hsame₁.navigation, hsame₂.navigation] at hname
    rw [hsame₁.navigation, hsame₂.navigation, hsame₁.targetType, hsame₂.targetType, hsame₁.answer_eq,
      hsame₂.answer_eq, hs.limits, hs.store]
    exact hd.target _ _ _ _ _ _ hr₁' hl₁' hr₂' hl₂' hname
  object typeName item item' key hm hm' hkey hkey' := by
    rw [hs.model] at hkey hkey'
    exact hd.object _ _ _ _ (hs.symm.meets hm) (hs.symm.meets hm') hkey hkey'
  plan typeName item plan hm := by
    rw [hs.plans, hs.model]
    exact hd.plan _ _ _ (hs.symm.meets hm)

/-- The plans that are built for objects that are met may be kept. -/
theorem Determined.keepsPlans (hd : x.Determined) : x.KeepsPlans :=
  fun typeName item plan hm => (hd.plan typeName item plan hm).mpr

/-! ## What instances are made of -/

/-- In a determined execution the instance for an object is made of that object, by the plan that is built for
its members. -/
theorem Determined.birth (hd : x.Determined) (hv : x.Valid h) {typeName : String} {item : ShapedItem}
    (hm : x.Meets typeName item) (hs : h.StandsFor x.model typeName item id) :
    ∃ b, h.births[id]? = some b ∧ b.typeName = typeName ∧ b.item = item ∧
      b.key = item.identity? x.model typeName ∧
      InstancePlan.build x.model typeName item.names = .ok b.plan := by
  obtain ⟨b, hb, rfl, hkey, hsame⟩ := hs
  obtain ⟨before, -, -, hborn⟩ := hv.birth hb
  have hitem : b.item = item := by
    cases hidentity : item.identity? x.model b.typeName with
    | none => exact hsame (hkey.trans hidentity)
    | some key =>
      exact hd.object _ _ _ key hborn.met hm (by rw [← hborn.key, hkey, hidentity]) hidentity
  have hplan := (hd.plan _ _ _ hborn.met).mp hborn.plan
  exact ⟨b, hb, rfl, hitem, hkey, hitem ▸ hplan⟩

/-- The instance for a document has an identity, which is that of the document. -/
theorem Unambiguous.not_keyless (hu : x.Unambiguous) {typeName : String} {loadings : List Loading}
    {d : Document} (hr : x.Reaches typeName loadings d) (hid : h.Represents x.model typeName d id) :
    ¬ h.Keyless id := by
  rintro ⟨b, hb, hnone⟩
  obtain ⟨item, hitem, b', hb', -, hkey, -⟩ := hid
  cases hb.symm.trans hb'
  rw [hu.identity _ _ _ _ hr hitem, hnone] at hkey
  cases hkey

/-- The targets that were attached have identities. -/
theorem Valid.target_not_keyless (hv : x.Valid h) (hu : x.Unambiguous) {a : Attachment}
    (ha : a ∈ h.attachments) (hid : id ∈ a.targets) : ¬ h.Keyless id := by
  have hadmitted := hv.attachment ha
  obtain ⟨typeName, loadings, hreaches, hl, -⟩ := hadmitted.requested
  obtain ⟨d, hd, hrepresents⟩ := exists_of_forall₂ hadmitted.targets.flip hid
  exact hu.not_keyless (.target hreaches hl hadmitted.answered hd) hrepresents

/-- At the end of a run the fields of an instance are ascending. -/
theorem Valid.current_ascending (hv : x.Valid h) {b : Birth} (hb : h.births[id]? = some b) :
    (h.current id b).fields.Ascending := by
  obtain ⟨before, -, -, hborn⟩ := hv.birth hb
  exact History.fieldsOf_ascending hborn.ascending

theorem Valid.lookup_current (hv : x.Valid h) {b : Birth} (hb : h.births[id]? = some b) (name : String) :
    (h.current id b).fields.lookup name = h.graph.field? id name := by
  rw [Graph.field?, History.getElem?_instances hv.grounded, hb]
  rfl

/-- An instance without identity is referred to by an instance that was born with the reference. Attaching
targets refers to instances with identities only. -/
theorem Valid.refers_of_keyless (hv : x.Valid h) (hu : x.Unambiguous) (hk : h.Keyless id)
    {owner : InstanceId} (hr : h.graph.Refers owner id) :
    ∃ b, h.births[owner]? = some b ∧ b.Refers id := by
  obtain ⟨i, hi, ⟨name, v⟩, hfield, hid⟩ := hr
  rw [History.getElem?_instances hv.grounded] at hi
  obtain ⟨b, hb, rfl⟩ := Option.map_eq_some_iff.mp hi
  have hlookup := (hv.current_ascending hb).lookup_of_mem hfield
  rw [hv.lookup_current hb] at hlookup
  rcases History.field?_eq_some hv.grounded hlookup with ⟨a, ha, -, -, rfl⟩ | ⟨b, hb, hlookup⟩
  · exact absurd hk (hv.target_not_keyless hu ha (Loading.mem_of_mem_references hid))
  · exact ⟨b, hb, name, v, hlookup, hid⟩

/-- Of two instances that were born with a reference to an instance without identity, the later one
cannot have been born when the earlier one referred to it already. -/
theorem Valid.not_lt_of_refers (hv : x.Valid h) (hk : h.Keyless id) {owner owner' : InstanceId}
    {b b' : Birth} (hb : h.births[owner]? = some b) (hb' : h.births[owner']? = some b')
    (hr : b.Refers id) (hr' : b'.Refers id) : ¬ owner < owner' := by
  intro hlt
  obtain ⟨before, hp, hlength, hborn⟩ := hv.birth hb'
  have hid : id < before.births.length := by
    obtain ⟨name, v, hlookup, hid⟩ := hr'
    obtain ⟨value, -, hmade⟩ := hborn.made name v hlookup
    exact hmade.lt hid
  rw [History.births_eq_of_lt hp (hlength ▸ hlt)] at hb
  exact hborn.unclaimed id hr' (hk.of_lt hp hid) b (List.mem_of_getElem? hb) hr

/-- Only one instance refers to an instance without identity. Of two that were born with the reference, the
later one would have claimed what was claimed already. -/
theorem Valid.owner_eq (hv : x.Valid h) (hu : x.Unambiguous) (hk : h.Keyless id)
    {owner owner' : InstanceId} (hr : h.graph.Refers owner id) (hr' : h.graph.Refers owner' id) :
    owner = owner' := by
  obtain ⟨b, hb, hbirth⟩ := hv.refers_of_keyless hu hk hr
  obtain ⟨b', hb', hbirth'⟩ := hv.refers_of_keyless hu hk hr'
  exact Nat.le_antisymm (Nat.not_lt.mp (hv.not_lt_of_refers hk hb' hb hbirth' hbirth))
    (Nat.not_lt.mp (hv.not_lt_of_refers hk hb hb' hbirth hbirth'))

/-! ## Instances that stand for the same object -/

/-- Whether instances of two runs stand for one object that is met. An instance with an identity has one twin,
and one without may have several. -/
def Twin (x : Execution) (h h' : History) (id id' : InstanceId) : Prop :=
  ∃ typeName item, x.Meets typeName item ∧ h.StandsFor x.model typeName item id ∧
    h'.StandsFor x.model typeName item id'

/-- Two runs that succeed for the entities of a query whose includes are in different orders, where the order
decides nothing. The structure is symmetric, so what is shown of one side holds of the other. -/
structure Sides (x x' : Execution) (h h' : History) : Prop where
  siblings : x.Siblings x'
  determined : x.Determined
  entity : x.query.projection = .entity
  valid : x.Valid h
  valid' : x'.Valid h'
  finishes : ∃ outcome, x.Finishes h outcome
  finishes' : ∃ outcome, x'.Finishes h' outcome

namespace Sides

theorem symm (hs : Sides x x' h h') : Sides x' x h' h where
  siblings := hs.siblings.symm
  determined := hs.siblings.determined hs.determined
  entity := by rw [hs.siblings.query]; exact hs.entity
  valid := hs.valid'
  valid' := hs.valid
  finishes := hs.finishes'
  finishes' := hs.finishes

theorem twin_symm (hs : Sides x x' h h') (ht : x.Twin h h' id id') : x'.Twin h' h id' id := by
  obtain ⟨typeName, item, hm, hid, hid'⟩ := ht
  rw [← hs.siblings.model] at hid hid'
  exact ⟨typeName, item, hs.siblings.meets hm, hid', hid⟩

/-- Corresponding instances are made alike: of one object, by one plan, for one identity. -/
theorem births (hs : Sides x x' h h') (ht : x.Twin h h' id id') :
    ∃ b b', h.births[id]? = some b ∧ h'.births[id']? = some b' ∧ b.typeName = b'.typeName ∧
      b.key = b'.key ∧ b.item = b'.item ∧ b.plan = b'.plan := by
  obtain ⟨typeName, item, hm, hid, hid'⟩ := ht
  rw [← hs.siblings.model] at hid'
  obtain ⟨b, hb, htype, hitem, hkey, hplan⟩ := hs.determined.birth hs.valid hm hid
  obtain ⟨b', hb', htype', hitem', hkey', hplan'⟩ :=
    hs.symm.determined.birth hs.valid' (hs.siblings.meets hm) hid'
  rw [hs.siblings.model] at hkey' hplan'
  exact ⟨b, b', hb, hb', htype.trans htype'.symm, hkey.trans hkey'.symm, hitem.trans hitem'.symm,
    Except.ok.inj (hplan.symm.trans hplan')⟩

theorem keyless (hs : Sides x x' h h') (ht : x.Twin h h' id id') (hk : h.Keyless id) : h'.Keyless id' := by
  obtain ⟨b, b', hb, hb', -, hkey, -⟩ := hs.births ht
  obtain ⟨b₁, hb₁, hnone⟩ := hk
  cases hb.symm.trans hb₁
  exact ⟨b', hb', hkey ▸ hnone⟩

/-- An instance with an identity corresponds to one instance. -/
theorem unique (hs : Sides x x' h h') {other : InstanceId} (ht : x.Twin h h' id id')
    (ht' : x.Twin h h' id other) (hk : ¬ h.Keyless id) : id' = other := by
  obtain ⟨b, b', hb, hb', htype, hkey, -⟩ := hs.births ht
  obtain ⟨b₁, b₁', hb₁, hb₁', htype₁, hkey₁, -⟩ := hs.births ht'
  cases hb.symm.trans hb₁
  cases hidentity : b.key with
  | none => exact absurd ⟨b, hb, hidentity⟩ hk
  | some key =>
    exact History.eq_of_identity_eq hs.valid'.grounded hb' hb₁' (htype.symm.trans htype₁)
      (hkey ▸ hidentity) (hkey₁ ▸ hidentity)

/-! ## Values that are made alike -/

/-- Instances that are referred to together are the same on one side if they are on the other. Those with
identities are because their twins are unique, and those without because each place has its own. -/
theorem repeatAlike (hs : Sides x x' h h') {pairs : List (InstanceId × InstanceId)}
    (hpairs : ∀ p ∈ pairs, x.Twin h h' p.1 p.2) (ha : h.Apart (pairs.map Prod.fst))
    (ha' : h'.Apart (pairs.map Prod.snd)) : Value.RepeatAlike pairs := by
  intro p hp p' hp'
  constructor
  · intro he
    by_cases hk : h.Keyless p.1
    · rw [ha.eq_of_keyless hp hp' he hk]
    · exact hs.unique (hpairs p hp) (he ▸ hpairs p' hp') hk
  · intro he
    by_cases hk : h'.Keyless p.2
    · rw [ha'.eq_of_keyless hp hp' he hk]
    · exact hs.symm.unique (hs.twin_symm (hpairs p hp)) (he ▸ hs.twin_symm (hpairs p' hp')) hk

/-- What two runs make of a member of an object agrees. A scalar is converted alike, and objects inside become
instances that correspond. -/
theorem agree_of_made (hs : Sides x x' h h') {typeName name : String} {item : ShapedItem}
    {value : ShapedValue} {v v' : Value} (hm : x.Meets typeName item) (hvalue : (name, value) ∈ item)
    (hmade : h.Made x.model value v) (hmade' : h'.Made x.model value v') :
    v.Agree (x.Twin h h') v' := by
  cases hmade with
  | scalar converted =>
    cases hmade' with
    | scalar converted' =>
      cases converted.symm.trans converted'
      exact .of_references_eq_nil (ScalarType.references_convert converted)
  | absent =>
    cases hmade'
    exact .of_references_eq_nil Value.references_null
  | @object declared raw role inner typeName id type stands =>
    cases hmade' with
    | object type' stands' =>
      cases type.symm.trans type'
      have hobject : (typeName, inner) ∈ ShapedValue.objects ⟨declared, raw, .object role inner⟩ := by
        simp only [ShapedValue.objects, type]
        exact List.mem_singleton.mpr rfl
      exact .object ⟨_, _, hm.embedded hvalue hobject, stands, stands'⟩
  | scalars converted =>
    cases hmade' with
    | scalars converted' =>
      cases converted.symm.trans converted'
      exact .of_references_eq_nil (references_convertAll converted)
  | @objects kind element raw items typeName ids type stand apart =>
    cases hmade' with
    | objects type' stand' apart' =>
      cases type.symm.trans type'
      -- both lists come from one list of items, so their instances correspond in pairs
      obtain ⟨pairs, rfl, rfl, hpairs⟩ := exists_pairs_of_forall₂ stand stand'
      have htwins : ∀ p ∈ pairs, x.Twin h h' p.1 p.2 := by
        intro p hp
        obtain ⟨inner, hinner, hstands, hstands'⟩ := hpairs p hp
        have hobject : (typeName, inner) ∈
            ShapedValue.objects ⟨.collection kind element, raw, .objects items⟩ := by
          simp only [ShapedValue.objects, type]
          exact List.mem_map_of_mem hinner
        exact ⟨_, inner, hm.embedded hvalue hobject, hstands, hstands'⟩
      exact .collect htwins (hs.repeatAlike htwins apart apart')

/-- The values of a navigation agree if its targets are instances with identities that correspond. -/
theorem agree_of_targets (hs : Sides x x' h h') {pairs : List (InstanceId × InstanceId)}
    (hpairs : ∀ p ∈ pairs, x.Twin h h' p.1 p.2 ∧ ¬ h.Keyless p.1) (navigation : Navigation) :
    (Loading.targetValue navigation (pairs.map Prod.fst)).Agree (x.Twin h h')
      (Loading.targetValue navigation (pairs.map Prod.snd)) := by
  have htwins : ∀ p ∈ pairs, x.Twin h h' p.1 p.2 := fun p hp => (hpairs p hp).1
  unfold Loading.targetValue
  cases navigation.multiplicity with
  | singular =>
    cases pairs with
    | nil => exact .of_references_eq_nil Value.references_null
    | cons p pairs => exact .object (htwins p List.mem_cons_self)
  | collection kind =>
    refine .collect htwins (hs.repeatAlike htwins ?_ ?_)
    · refine List.pairwise_of_forall_mem_list fun id hid _ _ _ => ?_
      obtain ⟨p, hp, rfl⟩ := List.mem_map.mp hid
      exact (hpairs p hp).2
    · refine List.pairwise_of_forall_mem_list fun id hid _ _ _ => ?_
      obtain ⟨p, hp, rfl⟩ := List.mem_map.mp hid
      exact fun hk => (hpairs p hp).2 (hs.symm.keyless (hs.twin_symm (htwins p hp)) hk)

/-! ## Fields -/

/-- The instance that corresponds to the one for a document stands for that document. -/
theorem represents (hs : Sides x x' h h') (ht : x.Twin h h' id id') {typeName : String}
    {loadings : List Loading} {d : Document} (hr : x.Reaches typeName loadings d)
    (hid : h.Represents x.model typeName d id) : h'.Represents x'.model typeName d id' := by
  obtain ⟨item, hitem, b₁, hb₁, rfl, hkey₁, -⟩ := hid
  obtain ⟨b, b', hb, hb', htype, hkey, -⟩ := hs.births ht
  cases hb.symm.trans hb₁
  rw [hs.siblings.model]
  refine ⟨item, hitem, b', hb', htype.symm, hkey.symm.trans hkey₁, fun hnone => ?_⟩
  rw [← hkey, hkey₁, hs.determined.identity _ _ _ _ hr hitem] at hnone
  cases hnone

/-- Everything that is requested on a document was opened on the instance for it. -/
theorem covers (hs : Sides x x' h h') {typeName : String} {loadings : List Loading} {d : Document}
    (hr : x.Reaches typeName loadings d) (hid : h.Represents x.model typeName d id) :
    x.Covers h typeName loadings d id := by
  obtain ⟨outcome, hfinishes⟩ := hs.finishes
  have hu := hs.determined.toUnambiguous
  obtain ⟨covered, hcovers⟩ := hfinishes.exists_covers hs.entity hu hs.valid hr
  rwa [hu.instance_eq hs.valid hr hid hcovers.represents]

/-- A navigation that is requested on a document holds corresponding targets on corresponding instances: both
hold the answer for the document, and the answer does not depend on the side. -/
theorem field_of_requested (hs : Sides x x' h h') (ht : x.Twin h h' id id') {typeName : String}
    {loadings : List Loading} {d : Document} {l : Loading} (hr : x.Reaches typeName loadings d)
    (hl : l ∈ loadings) (hid : h.Represents x.model typeName d id) :
    ∃ v v', h.graph.field? id l.navigation.name = some v ∧
      h'.graph.field? id' l.navigation.name = some v' ∧ v.Agree (x.Twin h h') v' := by
  have hu := hs.determined.toUnambiguous
  obtain ⟨outcome, hfinishes⟩ := hs.finishes
  obtain ⟨outcome', hfinishes'⟩ := hs.finishes'
  -- the other run requests the same on the same document
  obtain ⟨loadings', hshuffled, hr'⟩ := hs.siblings.reaches hr
  obtain ⟨l', hl', hsame, -⟩ := hshuffled.exists_mem hl
  obtain ⟨documents, targets, hanswer, hfield, htargets⟩ :=
    (hs.covers hr hid).loaded hu hs.valid hfinishes.closed hl
  obtain ⟨documents', targets', hanswer', hfield', htargets'⟩ :=
    (hs.symm.covers hr' (hs.represents ht hr hid)).loaded hs.symm.determined.toUnambiguous hs.valid'
      hfinishes'.closed hl'
  rw [← hsame.answer_eq, hs.siblings.limits, hs.siblings.store] at hanswer'
  cases hanswer.symm.trans hanswer'
  obtain ⟨pairs, rfl, rfl, hpairs⟩ := exists_pairs_of_forall₂ htargets htargets'
  rw [← hsame.navigation] at hfield'
  refine ⟨_, _, hfield, hfield', hs.agree_of_targets (fun p hp => ?_) _⟩
  obtain ⟨target, htarget, hcovered, hcovered'⟩ := hpairs p hp
  refine ⟨?_, hu.not_keyless hcovered.reaches hcovered.represents⟩
  obtain ⟨item, hitem, hstands⟩ := hcovered.represents
  obtain ⟨item', hitem', hstands'⟩ := hcovered'.represents
  rw [hs.siblings.model, ← hsame.targetType] at hitem' hstands'
  cases hitem.symm.trans hitem'
  exact ⟨_, item, .target hr hl hanswer htarget hitem, hstands, hstands'⟩

/-- A navigation that was loaded on an instance was loaded on the corresponding one, with corresponding
targets. For what is attached on one side was requested there, and so it is requested on the other. -/
theorem field_of_attached (hs : Sides x x' h h') (ht : x.Twin h h' id id') {a : Attachment}
    (ha : a ∈ h.attachments) (howner : a.owner = id) :
    ∃ v v', h.graph.field? id a.name = some v ∧ h'.graph.field? id' a.name = some v' ∧
      v.Agree (x.Twin h h') v' := by
  obtain ⟨typeName, loadings, hreaches, hl, hrepresents⟩ := (hs.valid.attachment ha).requested
  exact hs.field_of_requested ht hreaches hl (howner ▸ hrepresents)

/-- A field that both instances were born with is made of the same member. -/
theorem field_of_births (hs : Sides x x' h h') (ht : x.Twin h h' id id') {b b' : Birth}
    (hb : h.births[id]? = some b) (hb' : h'.births[id']? = some b') (name : String) :
    Option.Rel (Value.Agree (x.Twin h h')) (b.fields.lookup name) (b'.fields.lookup name) := by
  obtain ⟨b₁, b₁', hb₁, hb₁', -, -, hitem, hplan⟩ := hs.births ht
  cases hb.symm.trans hb₁
  cases hb'.symm.trans hb₁'
  obtain ⟨before, hp, -, hborn⟩ := hs.valid.birth hb
  obtain ⟨before', hp', -, hborn'⟩ := hs.valid'.birth hb'
  have hassigned : (b.fields.lookup name).isSome = (b'.fields.lookup name).isSome := by
    rw [Bool.eq_iff_iff, hborn.assigned, hborn'.assigned, hitem, hplan]
  cases hv : b.fields.lookup name with
  | none =>
    rw [hv, Option.isSome_none] at hassigned
    rw [Option.isNone_iff_eq_none.mp (Option.isSome_eq_false_iff.mp hassigned.symm)]
    exact .none
  | some v =>
    rw [hv, Option.isSome_some] at hassigned
    obtain ⟨v', hv'⟩ := Option.isSome_iff_exists.mp hassigned.symm
    obtain ⟨value, hvalue, hmade⟩ := hborn.made name v hv
    obtain ⟨value', hvalue', hmade'⟩ := hborn'.made name v' hv'
    rw [← hitem] at hvalue'
    cases hvalue.symm.trans hvalue'
    rw [hs.siblings.model] at hmade'
    rw [hv']
    exact .some (hs.agree_of_made hborn.met (mem_of_lookup hvalue) (hmade.mono hp) (hmade'.mono hp'))

/-- Under every name corresponding instances have corresponding fields, or neither has one. A field was
attached last or is one from birth, and the sides agree on which of the two it is. -/
theorem field_rel (hs : Sides x x' h h') (ht : x.Twin h h' id id') (name : String) :
    Option.Rel (Value.Agree (x.Twin h h')) (h.graph.field? id name) (h'.graph.field? id' name) := by
  by_cases hattached : ∃ a ∈ h.attachments, a.owner = id ∧ a.name = name
  · obtain ⟨a, ha, howner, rfl⟩ := hattached
    obtain ⟨v, v', hv, hv', hagree⟩ := hs.field_of_attached ht ha howner
    rw [hv, hv']
    exact .some hagree
  by_cases hattached' : ∃ a ∈ h'.attachments, a.owner = id' ∧ a.name = name
  · obtain ⟨a, ha, howner, rfl⟩ := hattached'
    obtain ⟨v', v, hv', hv, hagree⟩ := hs.symm.field_of_attached (hs.twin_symm ht) ha howner
    rw [hv, hv']
    exact .some (hagree.flip fun _ _ => hs.symm.twin_symm)
  -- nothing was loaded, so the fields are those that the instances were born with
  push Not at hattached hattached'
  obtain ⟨b, b', hb, hb', -⟩ := hs.births ht
  rw [History.field?_of_not_attached hs.valid.grounded hb hattached,
    History.field?_of_not_attached hs.valid'.grounded hb' hattached']
  exact hs.field_of_births ht hb hb' name

/-- The correspondence between the instances of two runs, in the form in which graphs are shown alike by it. -/
theorem twins (hs : Sides x x' h h') :
    Graph.Twins h.graph h'.graph h.Keyless h'.Keyless (x.Twin h h') where
  fields id id' ht := by
    obtain ⟨b, b', hb, hb', htype, hkey, -⟩ := hs.births ht
    refine ⟨h.current id b, h'.current id' b', ?_, ?_, ?_, ?_⟩
    · rw [History.getElem?_instances hs.valid.grounded, hb]
      rfl
    · rw [History.getElem?_instances hs.valid'.grounded, hb']
      rfl
    · change b.typeName ++ "/" ++ b.key.getD "" = b'.typeName ++ "/" ++ b'.key.getD ""
      rw [htype, hkey]
    · refine (hs.valid.current_ascending hb).forall₂ (hs.valid'.current_ascending hb') fun name => ?_
      rw [hs.valid.lookup_current hb, hs.valid'.lookup_current hb']
      exact hs.field_rel ht name
  bound_iff id id' ht := ⟨hs.keyless ht, hs.symm.keyless (hs.twin_symm ht)⟩
  unique id id' other ht ht' hk := hs.unique ht ht' hk
  unique' id id' other ht ht' hk := hs.symm.unique (hs.twin_symm ht) (hs.twin_symm ht')
    fun hk' => hk (hs.symm.keyless (hs.twin_symm ht) hk')
  owner id other other' hk hr hr' := hs.valid.owner_eq hs.determined.toUnambiguous hk hr hr'
  owner' id other other' hk hr hr' := hs.valid'.owner_eq hs.symm.determined.toUnambiguous hk hr hr'

end Sides

end Execution

end DocumentQuery
