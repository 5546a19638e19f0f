import DocumentQuery.Proofs.Graph.References
import DocumentQuery.Proofs.Store.Contents
import DocumentQuery.Run.Loading
import Mathlib.Data.List.Induction

/-!
# Histories of graphs

A graph is built in four kinds of steps: an instance is born, the loading of a navigation on an instance
is opened, the targets of a loading are attached to their owner, and a value is produced. A history lists
the steps in order, and the graph at any moment is the replay of the steps up to it. An instance is
never replaced, so what is known about its birth stays known; what an instance refers to in the end are
the values its fields were born with, except where targets were attached later.

A history is grounded when every step refers to instances that are born and no instance is born for an
identity that another one stands for. On grounded histories the graph can be read off the list of births
and the list of attachments.

## Main definitions

* `Birth`, `Attachment`, `Event`, `History` — steps and lists of them
* `History.graph` — the graph at the end of a history
* `History.Valid` — histories each of whose events is admitted after the ones before
* `Event.Grounded` — what every event of a run keeps to

## Main results

* `History.getElem?_instances` — the instances at the end of a history
* `History.find?_eq_some` — the identity map at the end of a history
* `History.lookup_of_attached`, `History.lookup_of_not_attached` — the fields at the end of a history
-/

namespace DocumentQuery

/-- An instance at its birth, with what it is made of and how. -/
structure Birth where
  typeName : String
  key : Option String
  item : ShapedItem
  plan : InstancePlan
  fields : Table Value

namespace Birth

/-- The instance that is born. -/
def newborn (b : Birth) : Instance :=
  ⟨b.typeName, b.key, b.plan.constructor?, b.fields, []⟩

/-- Whether a newborn instance refers to an instance in one of its fields, be it directly or inside a
collection. -/
def Refers (b : Birth) (id : InstanceId) : Prop :=
  ∃ name v, b.fields.lookup name = some v ∧ id ∈ v.references

end Birth

/-- The value of a navigation refers to its targets alone. -/
theorem Loading.mem_of_mem_references {navigation : Navigation} {targets : List InstanceId}
    {id : InstanceId} (h : id ∈ (targetValue navigation targets).references) : id ∈ targets := by
  unfold targetValue at h
  split at h
  · cases targets with
    | nil => simp at h
    | cons target targets =>
      simp only [List.head?_cons, Option.map_some, Option.getD_some, Value.references_object,
        List.mem_singleton] at h
      exact h ▸ List.mem_cons_self
  · exact Value.references_collect_objects h

/-- The targets of a loading on an instance, with the documents they were made of. -/
structure Attachment where
  owner : InstanceId
  /-- The document that the targets were fetched for. -/
  record : Document
  loading : Loading
  documents : List Document
  targets : List InstanceId

namespace Attachment

/-- The field that the targets become. -/
def name (a : Attachment) : String :=
  a.loading.navigation.name

/-- The value of the field. -/
def value (a : Attachment) : Value :=
  Loading.targetValue a.loading.navigation a.targets

end Attachment

/-- A step in which a graph is built. -/
inductive Event where
  | born (birth : Birth)
  /-- The loading of a navigation on an instance begins. -/
  | opened (owner : InstanceId) (loading : Loading)
  | attached (attachment : Attachment)
  /-- A value of the result is there. -/
  | produced (value : Value)

/-- Adds an instance; it stands for its identity if it has one that no other instance stands for. -/
def Graph.bear (g : Graph) (i : Instance) : Graph :=
  match i.key with
  | none => (g.add i).2
  | some key => ((g.add i).2.register i.typeName key g.instances.size).2

namespace Event

/-- The graph after a step. Steps add instances, register identities, set fields and mark navigations; none
removes or renames anything. -/
def apply (g : Graph) : Event → Graph
  | .born b => g.bear b.newborn
  | .opened owner l => g.markLoaded owner l.navigation.name l.label
  | .attached a => g.setField a.owner a.name a.value
  | .produced _ => g

def birth? : Event → Option Birth
  | .born b => some b
  | _ => none

def opening? : Event → Option (InstanceId × Loading)
  | .opened owner l => some (owner, l)
  | _ => none

def attachment? : Event → Option Attachment
  | .attached a => some a
  | _ => none

def value? : Event → Option Value
  | .produced v => some v
  | _ => none

end Event

/-- The steps in which a graph is built, the earliest first. -/
abbrev History := List Event

namespace History

/-- The graph at the end of a history. -/
def graph (h : History) : Graph :=
  h.foldl Event.apply .empty

/-- The births, which number the instances. -/
def births (h : History) : List Birth :=
  h.filterMap Event.birth?

/-- The loadings that were opened, each with the instance. -/
def openings (h : History) : List (InstanceId × Loading) :=
  h.filterMap Event.opening?

def attachments (h : History) : List Attachment :=
  h.filterMap Event.attachment?

/-- The values produced. -/
def produced (h : History) : List Value :=
  h.filterMap Event.value?

section Concat

variable (h : History)

@[simp] theorem graph_concat (e : Event) : graph (h ++ [e]) = e.apply h.graph := by
  simp [graph]

@[simp] theorem births_concat (e : Event) : births (h ++ [e]) = h.births ++ e.birth?.toList := by
  cases e <;> simp [births, Event.birth?]

@[simp] theorem openings_concat (e : Event) :
    openings (h ++ [e]) = h.openings ++ e.opening?.toList := by
  cases e <;> simp [openings, Event.opening?]

@[simp] theorem attachments_concat (e : Event) :
    attachments (h ++ [e]) = h.attachments ++ e.attachment?.toList := by
  cases e <;> simp [attachments, Event.attachment?]

@[simp] theorem produced_concat (e : Event) : produced (h ++ [e]) = h.produced ++ e.value?.toList := by
  cases e <;> simp [produced, Event.value?]

end Concat

section Members

variable {h : History}

theorem mem_births {b : Birth} : b ∈ h.births ↔ .born b ∈ h := by
  simp only [births, List.mem_filterMap]
  exact ⟨fun ⟨e, he, hb⟩ => by cases e <;> cases hb; exact he, fun he => ⟨_, he, rfl⟩⟩

theorem mem_openings {owner : InstanceId} {l : Loading} :
    (owner, l) ∈ h.openings ↔ .opened owner l ∈ h := by
  simp only [openings, List.mem_filterMap]
  exact ⟨fun ⟨e, he, ho⟩ => by cases e <;> cases ho; exact he, fun he => ⟨_, he, rfl⟩⟩

theorem mem_attachments {a : Attachment} : a ∈ h.attachments ↔ .attached a ∈ h := by
  simp only [attachments, List.mem_filterMap]
  exact ⟨fun ⟨e, he, ha⟩ => by cases e <;> cases ha; exact he, fun he => ⟨_, he, rfl⟩⟩

theorem mem_produced {v : Value} : v ∈ h.produced ↔ .produced v ∈ h := by
  simp only [produced, List.mem_filterMap]
  exact ⟨fun ⟨e, he, hv⟩ => by cases e <;> cases hv; exact he, fun he => ⟨_, he, rfl⟩⟩

end Members

section Prefix

variable {h h' : History} (hp : h <+: h')
include hp

theorem births_before : h.births <+: h'.births :=
  hp.filterMap _

theorem birth_stays {id : InstanceId} {b : Birth} (hb : h.births[id]? = some b) :
    h'.births[id]? = some b := by
  obtain ⟨added, hadded⟩ := births_before hp
  rw [← hadded, List.getElem?_append_left (List.getElem?_eq_some_iff.mp hb).1, hb]

theorem length_births_le : h.births.length ≤ h'.births.length :=
  (births_before hp).length_le

theorem openings_subset : h.openings ⊆ h'.openings :=
  (hp.filterMap _).subset

theorem attachments_subset : h.attachments ⊆ h'.attachments :=
  (hp.filterMap _).subset

theorem produced_subset : h.produced ⊆ h'.produced :=
  (hp.filterMap _).subset

end Prefix

/-- Histories each of whose events is admitted after the events before it. What admits an event is a
parameter: the weakest choice is `Event.Grounded`, and a run admits no more than its answers and its model
allow. -/
inductive Valid (admits : History → Event → Prop) : History → Prop
  | nil : Valid admits []
  | snoc {h : History} {e : Event} (valid : Valid admits h) (admitted : admits h e) :
      Valid admits (h ++ [e])

namespace Valid

variable {admits : History → Event → Prop} {h h' : History}

/-- Every moment of a valid history is at the end of a valid history. So what is proved of the end of all
valid histories is proved of every moment of each of them. -/
theorem earlier (valid : Valid admits h') (hp : h <+: h') : Valid admits h := by
  induction valid with
  | nil => rw [List.prefix_nil.mp hp]; exact .nil
  | snoc valid admitted ih =>
    rcases List.prefix_concat_iff.mp hp with rfl | hp
    · exact .snoc valid admitted
    · exact ih hp

theorem mono {admits' : History → Event → Prop} (valid : Valid admits h)
    (hle : ∀ h e, admits h e → admits' h e) : Valid admits' h := by
  induction valid with
  | nil => exact .nil
  | snoc _ admitted ih => exact .snoc ih (hle _ _ admitted)

/-- Every event of a valid history was admitted at some moment. -/
theorem admitted_of_mem (valid : Valid admits h) {e : Event} (he : e ∈ h) :
    ∃ before, before <+: h ∧ admits before e := by
  induction valid with
  | nil => cases he
  | @snoc h e' _ admitted ih =>
    rcases List.mem_append.mp he with he | he
    · obtain ⟨before, hp, ha⟩ := ih he
      exact ⟨before, hp.trans (List.prefix_append _ _), ha⟩
    · rw [List.mem_singleton.mp he]
      exact ⟨h, List.prefix_append _ _, admitted⟩

end Valid

theorem getElem?_concat_eq_some {births : List Birth} {b b' : Birth} {id : InstanceId} :
    (births ++ [b])[id]? = some b' ↔ births[id]? = some b' ∨ id = births.length ∧ b = b' := by
  rcases Nat.lt_trichotomy id births.length with hlt | rfl | hgt
  · rw [List.getElem?_append_left hlt]
    exact ⟨Or.inl, fun h => h.resolve_right fun h => hlt.ne h.1⟩
  · simp
  · have hne : id ≠ births.length := hgt.ne'
    rw [List.getElem?_eq_none (by rw [List.length_append]; exact hgt),
      List.getElem?_eq_none hgt.le]
    simp [hne]

/-- An instance was admitted when the instances with smaller numbers had been born. Numbers are given in the
order of the births, so the number of an instance says how much there was before it. -/
theorem Valid.admitted_of_birth {admits : History → Event → Prop} {h : History}
    (valid : Valid admits h) {id : InstanceId} {b : Birth} (hb : h.births[id]? = some b) :
    ∃ before : History, before <+: h ∧ before.births.length = id ∧ admits before (.born b) := by
  induction valid with
  | nil => cases hb
  | @snoc h e _ admitted ih =>
    have hp : h <+: h ++ [e] := List.prefix_append h [e]
    have hearlier : h.births[id]? = some b →
        ∃ before : History, before <+: h ++ [e] ∧ before.births.length = id ∧
          admits before (.born b) := by
      intro hb
      obtain ⟨before, hbefore, hrest⟩ := ih hb
      exact ⟨before, hbefore.trans hp, hrest⟩
    rw [births_concat] at hb
    cases e with
    | born b' =>
      rcases getElem?_concat_eq_some.mp hb with hb | ⟨rfl, rfl⟩
      · exact hearlier hb
      · exact ⟨h, hp, rfl, admitted⟩
    | opened owner l | attached a | produced v => exact hearlier (by simpa [Event.birth?] using hb)

/-! ## What stays of the births and attachments -/

section Current

variable (h : History) (id : InstanceId)

/-- The targets attached to an instance. -/
def attachmentsTo : List Attachment :=
  h.attachments.filter (·.owner == id)

/-- The fields of an instance that was born with fields. -/
def fieldsOf (fields : Table Value) : Table Value :=
  (h.attachmentsTo id).foldl (fun fields a => fields.insert a.name a.value) fields

/-- The navigations of an instance that are marked as loaded. -/
def loadedOf : List (String × String) :=
  (h.openings.filter (·.1 == id)).map fun o => (o.2.navigation.name, o.2.label)

/-- The instance that a birth has become: its fields overwritten by what was attached since, in order, and its
navigations marked by what was opened. -/
def current (b : Birth) : Instance :=
  { b.newborn with fields := h.fieldsOf id b.fields, loaded := h.loadedOf id }

end Current

end History

/-- What every event of a run keeps to: it refers to instances that are born, and no instance is born for an
identity that another one stands for. The second half is what the identity map is for, and all that is needed
of it below. -/
def Event.Grounded (h : History) : Event → Prop
  | .born b => (∀ id, b.Refers id → id < h.births.length) ∧
      ∀ other ∈ h.births, other.typeName = b.typeName → other.key = b.key → b.key = none
  | .opened owner _ => owner < h.births.length
  | .attached a => a.owner < h.births.length ∧ ∀ id ∈ a.targets, id < h.births.length
  | .produced v => ∀ id ∈ v.references, id < h.births.length

namespace Graph

@[simp] theorem instances_bear (g : Graph) (i : Instance) :
    (g.bear i).instances = g.instances.push i := by
  unfold bear
  cases i.key with
  | none => rfl
  | some key =>
    simp only [register]
    split <;> rfl

/-- A change of an instance leaves the identities as they are. -/
theorem find?_update (g : Graph) (id : InstanceId) (change : Instance → Instance) (typeName key : String) :
    (g.update id change).find? typeName key = g.find? typeName key :=
  rfl

end Graph

namespace History

variable {h : History}

/-- An event that is no step of an instance leaves what it has become. This is the frame of every step: only
the owner of an opening or of an attachment changes. -/
theorem current_concat {e : Event} {id : InstanceId} (ha : ∀ a ∈ e.attachment?, a.owner ≠ id)
    (ho : ∀ o ∈ e.opening?, o.1 ≠ id) : (h ++ [e] : History).current id = h.current id := by
  have hattachments : (h ++ [e] : History).attachmentsTo id = h.attachmentsTo id := by
    have hnone : e.attachment?.toList.filter (·.owner == id) = [] :=
      List.filter_eq_nil_iff.mpr fun a hm => by simpa using ha a (Option.mem_toList.mp hm)
    simp only [attachmentsTo, attachments_concat, List.filter_append, hnone, List.append_nil]
  have hloaded : (h ++ [e] : History).loadedOf id = h.loadedOf id := by
    have hnone : e.opening?.toList.filter (·.1 == id) = [] :=
      List.filter_eq_nil_iff.mpr fun o hm => by simpa using ho o (Option.mem_toList.mp hm)
    simp only [loadedOf, openings_concat, List.filter_append, hnone, List.append_nil]
  funext b
  simp only [current, fieldsOf, hattachments, hloaded]

theorem size_instances (h : History) : h.graph.instances.size = h.births.length := by
  induction h using List.reverseRecOn with
  | nil => rfl
  | append_singleton h e ih =>
    rw [graph_concat, births_concat]
    cases e with
    | born b => simp [Event.apply, Event.birth?, ih]
    | opened owner l => simp [Event.apply, Event.birth?, Graph.markLoaded, Graph.update, ih]
    | attached a => simp [Event.apply, Event.birth?, Graph.setField, Graph.update, ih]
    | produced v => simp [Event.apply, Event.birth?, ih]

theorem owner_lt_of_attached (valid : Valid Event.Grounded h) {a : Attachment}
    (ha : a ∈ h.attachments) : a.owner < h.births.length := by
  obtain ⟨before, hp, hadmitted⟩ := valid.admitted_of_mem (mem_attachments.mp ha)
  exact Nat.lt_of_lt_of_le hadmitted.1 (length_births_le hp)

theorem target_lt_of_attached (valid : Valid Event.Grounded h) {a : Attachment}
    (ha : a ∈ h.attachments) {id : InstanceId} (hid : id ∈ a.targets) : id < h.births.length := by
  obtain ⟨before, hp, hadmitted⟩ := valid.admitted_of_mem (mem_attachments.mp ha)
  exact Nat.lt_of_lt_of_le (hadmitted.2 id hid) (length_births_le hp)

theorem owner_lt_of_opened (valid : Valid Event.Grounded h) {o : InstanceId × Loading}
    (ho : o ∈ h.openings) : o.1 < h.births.length := by
  obtain ⟨before, hp, hadmitted⟩ := valid.admitted_of_mem (mem_openings.mp ho)
  exact Nat.lt_of_lt_of_le hadmitted (length_births_le hp)

/-- At its birth an instance refers to instances that are born already. -/
theorem lt_of_refers (valid : Valid Event.Grounded h) {b : Birth} (hb : b ∈ h.births)
    {id : InstanceId} (hid : b.Refers id) : id < h.births.length := by
  obtain ⟨before, hp, hadmitted⟩ := valid.admitted_of_mem (mem_births.mp hb)
  exact Nat.lt_of_lt_of_le (hadmitted.1 id hid) (length_births_le hp)

/-- Nothing was done to an instance before it was born, since events refer to instances that are born already.
At its birth it is what it is born as. -/
theorem current_length (valid : Valid Event.Grounded h) (b : Birth) :
    h.current h.births.length b = b.newborn := by
  have hattachments : h.attachmentsTo h.births.length = [] := by
    refine List.filter_eq_nil_iff.mpr fun a ha => ?_
    simpa using (owner_lt_of_attached valid ha).ne
  have hopenings : h.openings.filter (·.1 == h.births.length) = [] := by
    refine List.filter_eq_nil_iff.mpr fun o ho => ?_
    simpa using (owner_lt_of_opened valid ho).ne
  simp only [current, fieldsOf, loadedOf, hattachments, hopenings]
  rfl

theorem current_opened (h : History) (owner : InstanceId) (l : Loading) :
    (h ++ [.opened owner l] : History).current owner =
      (fun i => { i with loaded := i.loaded ++ [(l.navigation.name, l.label)] }) ∘ h.current owner := by
  funext b
  simp [current, fieldsOf, attachmentsTo, loadedOf, Event.attachment?, Event.opening?]

theorem current_attached (h : History) (a : Attachment) :
    (h ++ [.attached a] : History).current a.owner =
      (fun i => { i with fields := i.fields.insert a.name a.value }) ∘ h.current a.owner := by
  funext b
  simp [current, fieldsOf, attachmentsTo, loadedOf, Event.attachment?, Event.opening?]

/-- A change of one instance is a change of what one birth has become. -/
theorem getElem?_modify {births : List Birth} {instances : Array Instance}
    {current current' : InstanceId → Birth → Instance} {owner : InstanceId} {change : Instance → Instance}
    (hcurrent : ∀ id, instances[id]? = births[id]?.map (current id))
    (howner : current' owner = change ∘ current owner)
    (hother : ∀ id, owner ≠ id → current' id = current id) (id : InstanceId) :
    (instances.modify owner change)[id]? = births[id]?.map (current' id) := by
  rw [Array.getElem?_modify, hcurrent]
  split
  next hid => rw [← hid, howner, Option.map_map]
  next hid => rw [hother id hid]

/-- The instances at the end of a history are what the births have become. This is the statement that lets
everything else be said of births and attachments, with no graph in it. -/
theorem getElem?_instances (valid : Valid Event.Grounded h) (id : InstanceId) :
    h.graph.instances[id]? = h.births[id]?.map (h.current id) := by
  induction valid generalizing id with
  | nil => simp [graph, Graph.empty, births]
  | @snoc h e valid admitted ih =>
    rw [graph_concat, births_concat]
    cases e with
    | born b =>
      rw [current_concat (by simp [Event.attachment?]) (by simp [Event.opening?])]
      simp only [Event.apply, Event.birth?, Option.toList_some, Graph.instances_bear,
        Array.getElem?_push, size_instances, ih]
      split
      next hid =>
        subst hid
        simp [current_length valid]
      next hid =>
        rcases Nat.lt_or_gt_of_ne hid with hlt | hgt
        · rw [List.getElem?_append_left hlt]
        · rw [List.getElem?_eq_none (Nat.le_of_lt hgt), List.getElem?_eq_none]
          rw [List.length_append]
          exact hgt
    -- no instance is added by the other events, and one of them is changed at most
    | opened owner l =>
      simp only [Event.birth?, Option.toList_none, List.append_nil]
      exact getElem?_modify ih (h.current_opened owner l) (fun id hid =>
        current_concat (by simp [Event.attachment?]) (by simpa [Event.opening?] using hid)) id
    | attached a =>
      simp only [Event.birth?, Option.toList_none, List.append_nil]
      exact getElem?_modify ih (h.current_attached a) (fun id hid =>
        current_concat (by simpa [Event.attachment?] using hid) (by simp [Event.opening?])) id
    | produced v =>
      rw [current_concat (by simp [Event.attachment?]) (by simp [Event.opening?])]
      simpa [Event.apply, Event.birth?] using ih id

/-! ## Fields and markers -/

theorem field?_eq (valid : Valid Event.Grounded h) (id : InstanceId) (name : String) :
    h.graph.field? id name = h.births[id]?.bind fun b => (h.fieldsOf id b.fields).lookup name := by
  rw [Graph.field?, getElem?_instances valid]
  cases h.births[id]? <;> rfl

/-- What the attachments to one instance make of its fields: the last one with a name decides, and a name
without attachments keeps its value. By induction from the end of the list, where the last one stands. -/
theorem lookup_foldl_attach (name : String) (attachments : List Attachment) (fields : Table Value) :
    (∃ a ∈ attachments, a.name = name ∧
        (attachments.foldl (fun fields a => fields.insert a.name a.value) fields).lookup name =
          some a.value) ∨
      ((∀ a ∈ attachments, a.name ≠ name) ∧
        (attachments.foldl (fun fields a => fields.insert a.name a.value) fields).lookup name =
          fields.lookup name) := by
  induction attachments using List.reverseRecOn with
  | nil => exact Or.inr ⟨fun _ h => (by cases h), rfl⟩
  | append_singleton attachments a ih =>
    rw [List.foldl_append, List.foldl_cons, List.foldl_nil]
    by_cases hname : a.name = name
    · subst hname
      exact Or.inl ⟨a, by simp, rfl, Table.lookup_insert_self _ _ _⟩
    · rw [Table.lookup_insert_of_ne (Ne.symm hname)]
      rcases ih with ⟨a', ha', hname', hlookup⟩ | ⟨hnone, hlookup⟩
      · exact Or.inl ⟨a', List.mem_append_left _ ha', hname', hlookup⟩
      · refine Or.inr ⟨fun a' ha' => ?_, hlookup⟩
        rcases List.mem_append.mp ha' with ha' | ha'
        · exact hnone a' ha'
        · rw [List.mem_singleton.mp ha']
          exact hname

theorem fieldsOf_ascending {id : InstanceId} {fields : Table Value} (hfields : fields.Ascending) :
    (h.fieldsOf id fields).Ascending := by
  unfold fieldsOf
  induction h.attachmentsTo id using List.reverseRecOn with
  | nil => exact hfields
  | append_singleton attachments a ih =>
    rw [List.foldl_append]
    exact ih.insert a.name a.value

theorem mem_attachmentsTo {id : InstanceId} {a : Attachment} :
    a ∈ h.attachmentsTo id ↔ a ∈ h.attachments ∧ a.owner = id := by
  simp [attachmentsTo]

/-- A field that was attached at some time holds what was attached last. That may be something else than what
was attached at that time, when several loadings set the same navigation of a shared instance. -/
theorem field?_of_attached (valid : Valid Event.Grounded h) {a : Attachment}
    (ha : a ∈ h.attachments) : ∃ last ∈ h.attachments, last.owner = a.owner ∧ last.name = a.name ∧
      h.graph.field? a.owner a.name = some last.value := by
  obtain ⟨b, hb⟩ : ∃ b, h.births[a.owner]? = some b :=
    ⟨_, List.getElem?_eq_getElem (owner_lt_of_attached valid ha)⟩
  rw [field?_eq valid, hb, Option.bind_some]
  rcases lookup_foldl_attach a.name (h.attachmentsTo a.owner) b.fields with
    ⟨last, hlast, hname, hlookup⟩ | ⟨hnone, -⟩
  · obtain ⟨hmem, howner⟩ := mem_attachmentsTo.mp hlast
    exact ⟨last, hmem, howner, hname, hlookup⟩
  · exact absurd rfl (hnone a (mem_attachmentsTo.mpr ⟨ha, rfl⟩))

/-- A field of an instance was attached or is one it was born with. -/
theorem field?_eq_some (valid : Valid Event.Grounded h) {id : InstanceId} {name : String} {v : Value}
    (hv : h.graph.field? id name = some v) :
    (∃ a ∈ h.attachments, a.owner = id ∧ a.name = name ∧ v = a.value) ∨
      ∃ b, h.births[id]? = some b ∧ b.fields.lookup name = some v := by
  rw [field?_eq valid] at hv
  obtain ⟨b, hb, hv⟩ := Option.bind_eq_some_iff.mp hv
  rcases lookup_foldl_attach name (h.attachmentsTo id) b.fields with
    ⟨a, ha, hname, hlookup⟩ | ⟨-, hlookup⟩
  · obtain ⟨hmem, howner⟩ := mem_attachmentsTo.mp ha
    exact Or.inl ⟨a, hmem, howner, hname, Option.some.inj (hv.symm.trans hlookup)⟩
  · exact Or.inr ⟨b, hb, hlookup.symm.trans hv⟩

/-- A field that nothing was attached to is the one the instance was born with. -/
theorem field?_of_not_attached (valid : Valid Event.Grounded h) {id : InstanceId} {b : Birth}
    (hb : h.births[id]? = some b) {name : String}
    (hnone : ∀ a ∈ h.attachments, a.owner = id → a.name ≠ name) :
    h.graph.field? id name = b.fields.lookup name := by
  rw [field?_eq valid, hb, Option.bind_some]
  rcases lookup_foldl_attach name (h.attachmentsTo id) b.fields with
    ⟨a, ha, hname, -⟩ | ⟨-, hlookup⟩
  · obtain ⟨hmem, howner⟩ := mem_attachmentsTo.mp ha
    exact absurd hname (hnone a hmem howner)
  · exact hlookup

/-- A marker on an instance stands for a loading that was opened. -/
theorem isLoadedBy_iff (valid : Valid Event.Grounded h) {id : InstanceId} {name label : String} :
    h.graph.isLoadedBy id name label = true ↔
      ∃ l, (id, l) ∈ h.openings ∧ l.navigation.name = name ∧ l.label = label := by
  rw [Graph.isLoadedBy, getElem?_instances valid]
  cases hb : h.births[id]? with
  | none =>
    have hge := List.getElem?_eq_none_iff.mp hb
    simp only [Option.map_none, Option.any_none, Bool.false_eq_true, false_iff]
    rintro ⟨l, hl, -⟩
    exact absurd (owner_lt_of_opened valid hl) (Nat.not_lt.mpr hge)
  | some b =>
    simp only [Option.map_some, Option.any_some, List.contains_iff_mem]
    simp [current, loadedOf]

/-! ## The identity map -/

/-- What the identity map says once an instance was born whose identity was free: the new instance under its
own identity, and what it said before under every other. -/
theorem find?_bear {g : Graph} {i : Instance}
    (hnew : ∀ key, i.key = some key → g.find? i.typeName key = none) (typeName key : String) :
    (g.bear i).find? typeName key =
      if i.typeName = typeName ∧ i.key = some key then some g.instances.size
      else g.find? typeName key := by
  unfold Graph.bear
  cases hkey : i.key with
  | none => simp [Graph.add, Graph.find?]
  | some k =>
    have hnone : (g.add i).2.find? i.typeName k = none := hnew k hkey
    simp only [Graph.register, hnone]
    simp only [Graph.find?, Graph.add, List.lookup_append]
    by_cases he : i.typeName = typeName ∧ k = key
    · obtain ⟨rfl, rfl⟩ := he
      have hnone : g.identities.lookup (i.typeName, k) = none := hnone
      simp [hnone]
    · have hne : ((typeName, key) == (i.typeName, k)) = false := by
        simp only [beq_eq_false_iff_ne, ne_eq, Prod.mk.injEq]
        exact fun ⟨ht, hk⟩ => he ⟨ht.symm, hk.symm⟩
      have hif : ¬ (i.typeName = typeName ∧ some k = some key) := by
        simpa using he
      rw [if_neg hif, List.lookup_cons, hne]
      simp

/-- An identity is registered for the instance that was born with it, and for no other. By induction on the
history: births of other identities do not touch the entry, and no event but a birth touches the map. -/
theorem find?_eq_some (valid : Valid Event.Grounded h) {typeName key : String} {id : InstanceId} :
    h.graph.find? typeName key = some id ↔
      ∃ b, h.births[id]? = some b ∧ b.typeName = typeName ∧ b.key = some key := by
  induction valid generalizing typeName key id with
  | nil => simp [graph, Graph.empty, Graph.find?, births]
  | @snoc h e valid admitted ih =>
    rw [graph_concat, births_concat]
    cases e with
    | opened owner l => simpa [Event.apply, Event.birth?, Graph.markLoaded, Graph.find?_update] using ih
    | attached a => simpa [Event.apply, Event.birth?, Graph.setField, Graph.find?_update] using ih
    | produced v => simpa [Event.apply, Event.birth?] using ih
    -- an identity is born once, so what is registered for it now was not there before
    | born b =>
      have hnew : ∀ other ∈ h.births, ∀ k, b.key = some k → other.typeName = b.typeName →
          other.key ≠ some k := fun other ho k hk htype hkey => by
        have := admitted.2 other ho htype (hkey.trans hk.symm)
        rw [hk] at this
        cases this
      have hnone : ∀ k, b.newborn.key = some k → h.graph.find? b.newborn.typeName k = none := by
        intro k hk
        refine Option.eq_none_iff_forall_ne_some.mpr fun id hid => ?_
        obtain ⟨other, hother, htype, hkey⟩ := ih.mp hid
        exact hnew other (List.mem_of_getElem? hother) k hk htype hkey
      simp only [Event.apply, Event.birth?, Option.toList_some, getElem?_concat_eq_some]
      rw [find?_bear hnone, size_instances]
      split
      -- the identity asked for is the one that is born
      next hsame =>
        constructor
        · intro hid
          cases hid
          exact ⟨b, Or.inr ⟨rfl, rfl⟩, hsame.1, hsame.2⟩
        · rintro ⟨other, hother | ⟨rfl, rfl⟩, htype, hkey⟩
          · exact absurd hkey
              (hnew other (List.mem_of_getElem? hother) key hsame.2 (htype.trans hsame.1.symm))
          · rfl
      next hother =>
        rw [ih]
        constructor
        · rintro ⟨b', hb', hidentity⟩
          exact ⟨b', Or.inl hb', hidentity⟩
        · rintro ⟨b', hb' | ⟨rfl, rfl⟩, hidentity⟩
          · exact ⟨b', hb', hidentity⟩
          · exact absurd hidentity hother

/-- No two instances are born for one identity, since both would be what the identity map holds for it. -/
theorem eq_of_identity_eq (valid : Valid Event.Grounded h) {id id' : InstanceId} {b b' : Birth}
    (hb : h.births[id]? = some b) (hb' : h.births[id']? = some b') (htype : b.typeName = b'.typeName)
    {key : String} (hkey : b.key = some key) (hkey' : b'.key = some key) : id = id' := by
  have hid := (find?_eq_some valid).mpr ⟨b, hb, htype, hkey⟩
  have hid' := (find?_eq_some valid).mpr ⟨b', hb', rfl, hkey'⟩
  exact Option.some.inj (hid.symm.trans hid')

/-- What can be reached from the values produced so far is born. -/
theorem lt_of_reachable (valid : Valid Event.Grounded h) {id : InstanceId}
    (hr : h.graph.Reachable h.produced id) : id < h.births.length := by
  induction hr with
  | @value v id hv hid =>
    obtain ⟨before, hp, hadmitted⟩ := valid.admitted_of_mem (mem_produced.mp hv)
    exact Nat.lt_of_lt_of_le (hadmitted id hid) (length_births_le hp)
  | @field owner id name v _ hv hid _ =>
    rcases field?_eq_some valid hv with ⟨a, ha, -, -, rfl⟩ | ⟨b, hb, hlookup⟩
    · exact target_lt_of_attached valid ha (Loading.mem_of_mem_references hid)
    · exact lt_of_refers valid (List.mem_of_getElem? hb) ⟨name, v, hlookup, hid⟩

end History

/-- Whether a graph has one instance for each identity among those that can be reached from values: the
instance that its identity map holds. -/
structure Graph.IdentityUnique (g : Graph) (values : List Value) : Prop where
  /-- Instances of one type with the same key are the same instance. -/
  unique : ∀ id id' i i' key, g.Reachable values id → g.Reachable values id' →
    g.instances[id]? = some i → g.instances[id']? = some i' → i.typeName = i'.typeName →
    i.key = some key → i'.key = some key → id = id'
  /-- Everything that can be reached is an instance, and if it has a key, it is the entry for it. -/
  registered : ∀ id, g.Reachable values id →
    ∃ i, g.instances[id]? = some i ∧ ∀ key, i.key = some key → g.find? i.typeName key = some id
  /-- Every entry has the type and the key it is stored under. -/
  entries : ∀ typeName key id, g.find? typeName key = some id →
    ∃ i, g.instances[id]? = some i ∧ i.typeName = typeName ∧ i.key = some key

namespace History

variable {h h' : History}

/-- At every moment of a history there is one instance for each identity among those that can be reached, and
it is the one that the identity map holds. Groundedness carries this: it forbids a second birth for an
identity, and whatever can be reached was born. -/
theorem identityUnique (valid : Valid Event.Grounded h) : h.graph.IdentityUnique h.produced := by
  have hborn : ∀ {id : InstanceId} {i : Instance}, h.graph.instances[id]? = some i →
      ∃ b, h.births[id]? = some b ∧ i.typeName = b.typeName ∧ i.key = b.key := by
    intro id i hi
    rw [getElem?_instances valid] at hi
    obtain ⟨b, hb, rfl⟩ := Option.map_eq_some_iff.mp hi
    exact ⟨b, hb, rfl, rfl⟩
  refine ⟨fun id id' i i' key _ _ hi hi' htype hkey hkey' => ?_, fun id hr => ?_,
    fun typeName key id hfound => ?_⟩
  · obtain ⟨b, hb, hbtype, hbkey⟩ := hborn hi
    obtain ⟨b', hb', hbtype', hbkey'⟩ := hborn hi'
    exact eq_of_identity_eq valid hb hb' (by rw [← hbtype, ← hbtype', htype]) (hbkey ▸ hkey)
      (hbkey' ▸ hkey')
  · have hb := List.getElem?_eq_getElem (lt_of_reachable valid hr)
    refine ⟨h.current id _, by rw [getElem?_instances valid, hb]; rfl, fun key hkey => ?_⟩
    exact (find?_eq_some valid).mpr ⟨_, hb, rfl, hkey⟩
  · obtain ⟨b, hb, htype, hkey⟩ := (find?_eq_some valid).mp hfound
    exact ⟨h.current id b, by rw [getElem?_instances valid, hb]; rfl, htype, hkey⟩

/-- An entry of the identity map is never replaced: what an identity stands for at one moment it stands for at
every later one. -/
theorem find?_stays (valid : Valid Event.Grounded h') (hp : h <+: h') {typeName key : String}
    {id : InstanceId} (hfound : h.graph.find? typeName key = some id) :
    h'.graph.find? typeName key = some id := by
  obtain ⟨b, hb, hidentity⟩ := (find?_eq_some (valid.earlier hp)).mp hfound
  exact (find?_eq_some valid).mpr ⟨b, birth_stays hp hb, hidentity⟩

end History

end DocumentQuery
