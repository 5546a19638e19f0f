import DocumentQuery.Proofs.Lists
import DocumentQuery.Proofs.Run.Requests
import DocumentQuery.Proofs.Run.Traced

/-!
# The events of a run

An execution admits only certain events. An instance is born of an object that the execution meets, for
an identity that is new, with a field for every member that its plan assigns; targets are attached to an
instance that stands for a document on which their loading is requested, and they are the instances
that stand for the documents which the loading is answered with.

An instance stands for every object of its type with its identity, also for those it was not made of.
An instance without an identity stands for the one object it was made of and is referred to by the one
instance whose part it is: at its birth an instance may refer only to such instances without identity
that nothing refers to yet.

The choice of what an event has to satisfy is where the invariants of runs are. A condition that is said of a
moment and stays true when the history goes on is stated once, here, and `Valid.birth` and `Valid.attachment`
give it back at any later moment; nothing else has to be carried along a run.

## Main definitions

* `History.StandsFor`, `History.Represents` — the instance for an object, and for a document
* `History.Made` — the value that is made of a shaped value
* `Execution.Admits` — the events of an execution
* `Execution.Records` — what a history says about the workspace of a run
-/

namespace DocumentQuery

namespace History

variable (m : Model) (h : History)

/-- Whether an instance stands for an object of a type: it has the type and the identity of the object.
Without an identity only the object it was made of will do. -/
def StandsFor (typeName : String) (item : ShapedItem) (id : InstanceId) : Prop :=
  ∃ b, h.births[id]? = some b ∧ b.typeName = typeName ∧ b.key = item.identity? m typeName ∧
    (b.key = none → b.item = item)

/-- Whether an instance stands for a document that is read as an entity of a type. -/
def Represents (typeName : String) (d : Document) (id : InstanceId) : Prop :=
  ∃ item, d.shapeEntity m typeName = .ok item ∧ h.StandsFor m typeName item id

/-- Whether an instance has no identity. -/
def Keyless (id : InstanceId) : Prop :=
  ∃ b, h.births[id]? = some b ∧ b.key = none

/-- Whether no instance was born that refers to an instance. One without identity has to be unclaimed when it
is first referred to. -/
def Unclaimed (id : InstanceId) : Prop :=
  ∀ b ∈ h.births, ¬ b.Refers id

/-- Whether a loading with a label was opened on an instance. -/
def Opened (id : InstanceId) (label : String) : Prop :=
  ∃ l, (id, l) ∈ h.openings ∧ l.label = label

/-- Whether instances differ, where they have no identity. Two places of a list may hold one instance only if
it has an identity. -/
def Apart (ids : List InstanceId) : Prop :=
  ids.Pairwise fun id id' => id = id' → ¬ h.Keyless id

/-- The value that is made of a shaped value. Scalars are converted, what is absent is null, and an object
becomes the instance that stands for it, which may have been born long before. -/
inductive Made : ShapedValue → Value → Prop
  | scalar {type : ScalarType} {raw : Json} {v : Value} (converted : type.convert m raw = .ok v) :
      Made ⟨.scalar type, raw, .scalar⟩ v
  | absent {declared : DeclaredType} {raw : Json} {role : ObjectRole} :
      Made ⟨declared, raw, .absent role⟩ .null
  | object {declared : DeclaredType} {raw : Json} {role : ObjectRole} {item : ShapedItem}
      {typeName : String} {id : InstanceId} (type : declared.objectType = .ok typeName)
      (stands : h.StandsFor m typeName item id) : Made ⟨declared, raw, .object role item⟩ (.object id)
  | scalars {declared : DeclaredType} {raw : Json} {items : List Json} {v : Value}
      (converted : convertAll m items declared = .ok v) : Made ⟨declared, raw, .scalars items⟩ v
  | objects {kind : CollectionKind} {element : DeclaredType} {raw : Json} {items : List ShapedItem}
      {typeName : String} {ids : List InstanceId} (type : element.objectType = .ok typeName)
      (stand : List.Forall₂ (h.StandsFor m typeName) items ids) (apart : h.Apart ids) :
      Made ⟨.collection kind element, raw, .objects items⟩ (Value.collect kind (ids.map .object))

/-! ## What is known stays known -/

variable {m h} {h' : History} (hp : h <+: h')

theorem births_eq_of_lt {id : InstanceId} (hp : h <+: h') (hid : id < h.births.length) :
    h'.births[id]? = h.births[id]? := by
  rw [List.getElem?_eq_getElem hid]
  exact birth_stays hp (List.getElem?_eq_getElem hid)

include hp

theorem StandsFor.mono {typeName : String} {item : ShapedItem} {id : InstanceId}
    (hs : h.StandsFor m typeName item id) : h'.StandsFor m typeName item id := by
  obtain ⟨b, hb, hrest⟩ := hs
  exact ⟨b, birth_stays hp hb, hrest⟩

theorem Represents.mono {typeName : String} {d : Document} {id : InstanceId}
    (hr : h.Represents m typeName d id) : h'.Represents m typeName d id := by
  obtain ⟨item, hitem, hs⟩ := hr
  exact ⟨item, hitem, hs.mono hp⟩

theorem Keyless.mono {id : InstanceId} (hk : h.Keyless id) : h'.Keyless id := by
  obtain ⟨b, hb, hrest⟩ := hk
  exact ⟨b, birth_stays hp hb, hrest⟩

theorem Opened.mono {id : InstanceId} {label : String} (ho : h.Opened id label) :
    h'.Opened id label := by
  obtain ⟨l, hl, hlabel⟩ := ho
  exact ⟨l, openings_subset hp hl, hlabel⟩

/-- Whether an instance has an identity is decided at its birth, so it can be said at any moment from then on. -/
theorem Keyless.of_lt {id : InstanceId} (hk : h'.Keyless id) (hid : id < h.births.length) :
    h.Keyless id := by
  obtain ⟨b, hb, hrest⟩ := hk
  exact ⟨b, births_eq_of_lt hp hid ▸ hb, hrest⟩

omit hp

theorem StandsFor.lt {typeName : String} {item : ShapedItem} {id : InstanceId}
    (hs : h.StandsFor m typeName item id) : id < h.births.length := by
  obtain ⟨b, hb, -⟩ := hs
  exact (List.getElem?_eq_some_iff.mp hb).1

theorem Represents.lt {typeName : String} {d : Document} {id : InstanceId}
    (hr : h.Represents m typeName d id) : id < h.births.length := by
  obtain ⟨item, -, hs⟩ := hr
  exact hs.lt

theorem stand_lt {items : List ShapedItem} {ids : List InstanceId} {typeName : String}
    (hs : List.Forall₂ (h.StandsFor m typeName) items ids) {id : InstanceId} (hid : id ∈ ids) :
    id < h.births.length := by
  obtain ⟨item, -, hitem⟩ := exists_of_forall₂ hs.flip hid
  exact StandsFor.lt hitem

theorem Apart.mono {ids : List InstanceId} (hp : h <+: h') (ha : h.Apart ids)
    (hids : ∀ id ∈ ids, id < h.births.length) : h'.Apart ids := by
  refine ha.imp_of_mem fun {id id'} hid _ hne he hk => ?_
  exact hne he (hk.of_lt hp (hids id hid))

theorem Made.mono {value : ShapedValue} {v : Value} (hp : h <+: h') (hm : h.Made m value v) :
    h'.Made m value v := by
  cases hm with
  | scalar converted => exact .scalar converted
  | absent => exact .absent
  | object type stands => exact .object type (stands.mono hp)
  | scalars converted => exact .scalars converted
  | objects type stand apart =>
    exact .objects type (stand.imp fun _ _ hs => hs.mono hp)
      (apart.mono hp fun _ hid => stand_lt stand hid)

/-- A value that was made refers to instances that are born. -/
theorem Made.lt {value : ShapedValue} {v : Value} (hm : h.Made m value v) {id : InstanceId}
    (hid : id ∈ v.references) : id < h.births.length := by
  cases hm with
  | scalar converted =>
    rw [ScalarType.references_convert converted] at hid
    cases hid
  | absent => cases hid
  | object _ stands =>
    rw [Value.references_object, List.mem_singleton] at hid
    exact hid ▸ stands.lt
  | scalars converted =>
    rw [references_convertAll converted] at hid
    cases hid
  | objects _ stand _ => exact stand_lt stand (Value.references_collect_objects hid)

end History

namespace Execution

variable (x : Execution) (h : History)

/-- The births of an execution. All that is asked of the history before is that the identity is new and that
parts without identity are not claimed yet. -/
structure AdmitsBirth (b : Birth) : Prop where
  /-- The instance is made of an object that is met. -/
  met : x.Meets b.typeName b.item
  /-- Its key is the identity of that object. -/
  key : b.key = b.item.identity? x.model b.typeName
  /-- It is made by a plan that may be kept for the members of the object. -/
  plan : x.plans (PlanCache.key b.typeName b.item.names) b.plan
  /-- Its identity is new, if it has one. -/
  new : ∀ other ∈ h.births, other.typeName = b.typeName → other.key = b.key → b.key = none
  ascending : b.fields.Ascending
  /-- It has a field for every member of the object that the plan assigns. -/
  assigned : ∀ name, (b.fields.lookup name).isSome ↔
    name ∈ b.plan.assigned ∧ (b.item.lookup name).isSome
  /-- Each field is made of the member of its name. -/
  made : ∀ name v, b.fields.lookup name = some v →
    ∃ value, b.item.lookup name = some value ∧ h.Made x.model value v
  /-- What it refers to without identity nothing has referred to before. -/
  unclaimed : ∀ id, b.Refers id → h.Keyless id → h.Unclaimed id

/-- Whether a loading is requested on a document that an instance stands for. -/
def Requests (l : Loading) (d : Document) (owner : InstanceId) : Prop :=
  ∃ typeName loadings, x.Reaches typeName loadings d ∧ l ∈ loadings ∧
    h.Represents x.model typeName d owner

/-- The attachments of an execution. They come last in loading a navigation, so everything below the targets
was opened by then. -/
structure AdmitsAttachment (a : Attachment) : Prop where
  /-- The loading is requested on a document that the owner stands for. -/
  requested : x.Requests h a.loading a.record a.owner
  /-- It was opened on the owner before. -/
  opened : (a.owner, a.loading) ∈ h.openings
  /-- The documents are those that the loading is answered with. -/
  answered : a.loading.answer x.limits x.store a.record = .ok a.documents
  /-- The targets stand for these documents, one for one. -/
  targets : List.Forall₂ (h.Represents x.model a.loading.targetType) a.documents a.targets
  /-- On every target all that is to be loaded below was opened. -/
  below : ∀ target ∈ a.targets, ∀ l ∈ a.loading.children, h.Opened target l.label

/-- The events of an execution, each after the events before it. The graph is not mentioned: what an event may
refer to is said of the births before it. -/
def Admits : Event → Prop
  | .born b => x.AdmitsBirth h b
  | .opened owner l => ∃ d, x.Requests h l d owner
  | .attached a => x.AdmitsAttachment h a
  | .produced v => ∀ id ∈ v.references, id < h.births.length

variable {x h}

theorem Requests.lt {l : Loading} {d : Document} {owner : InstanceId} (hr : x.Requests h l d owner) :
    owner < h.births.length := by
  obtain ⟨_, _, -, -, hrepresents⟩ := hr
  exact hrepresents.lt

theorem Requests.mono {l : Loading} {d : Document} {owner : InstanceId} {h' : History}
    (hr : x.Requests h l d owner) (hp : h <+: h') : x.Requests h' l d owner := by
  obtain ⟨typeName, loadings, hreaches, hl, hrepresents⟩ := hr
  exact ⟨typeName, loadings, hreaches, hl, hrepresents.mono hp⟩

theorem AdmitsAttachment.mono {a : Attachment} {h' : History} (ha : x.AdmitsAttachment h a)
    (hp : h <+: h') : x.AdmitsAttachment h' a where
  requested := ha.requested.mono hp
  opened := History.openings_subset hp ha.opened
  answered := ha.answered
  targets := ha.targets.imp fun _ _ hr => hr.mono hp
  below := fun target ht l hl => (ha.below target ht l hl).mono hp

/-- The events of an execution are grounded, so all that was shown of grounded histories holds of its
histories. -/
theorem Admits.grounded {e : Event} (he : x.Admits h e) : e.Grounded h := by
  cases e with
  | born b =>
    refine ⟨fun id hid => ?_, he.new⟩
    obtain ⟨name, v, hv, hid⟩ := hid
    obtain ⟨value, -, hmade⟩ := he.made name v hv
    exact hmade.lt hid
  | opened owner l =>
    obtain ⟨d, hr⟩ := he
    exact hr.lt
  | attached a =>
    refine ⟨he.requested.lt, fun id hid => ?_⟩
    obtain ⟨d, -, hd⟩ := exists_of_forall₂ he.targets.flip hid
    exact History.Represents.lt hd
  | produced v => exact he

variable (x)

/-- The histories of an execution. -/
def Valid (h : History) : Prop :=
  History.Valid x.Admits h

variable {x}

theorem Valid.grounded (hv : x.Valid h) : History.Valid Event.Grounded h :=
  History.Valid.mono hv fun _ _ he => he.grounded

/-- What is known of a birth in a history: it was admitted at the moment when the instances with smaller
numbers had been born. -/
theorem Valid.birth (hv : x.Valid h) {id : InstanceId} {b : Birth} (hb : h.births[id]? = some b) :
    ∃ before : History, before <+: h ∧ before.births.length = id ∧ x.AdmitsBirth before b :=
  History.Valid.admitted_of_birth hv hb

/-- What is known of an attachment in a history. All of it stays true, so it can be said of the whole history. -/
theorem Valid.attachment (hv : x.Valid h) {a : Attachment} (ha : a ∈ h.attachments) :
    x.AdmitsAttachment h a := by
  obtain ⟨before, hp, hadmitted⟩ := History.Valid.admitted_of_mem hv (History.mem_attachments.mp ha)
  exact AdmitsAttachment.mono hadmitted hp

/-- What a history says about the workspace of a run: it is valid, the graph is its replay, and all plans that
are kept may be kept. -/
structure Records (x : Execution) (h : History) (w : Workspace) : Prop where
  valid : x.Valid h
  graph : w.graph = h.graph
  plans : ∀ entry ∈ w.plans.entries, x.plans entry.1 entry.2

end Execution

end DocumentQuery
