import DocumentQuery.Proofs.Compile.Inclusions
import DocumentQuery.Proofs.Run.Execution
import DocumentQuery.Proofs.Run.Label

/-!
# What is requested is there

An instance that is met in several places is loaded once for each label, and the loading that sets a
navigation last need not be the one that asked for what lies below it. Still, everything that was asked
for is there at the end when a run is unambiguous: documents of one type are told apart by their
identities, and all loadings of one navigation on one document are answered with the same documents. Then
the instances that stand for a document are one instance, all loadings of a navigation on it have the same
targets, and what was opened below the targets of one of them was opened below the targets of the last.

The proof of `Execution.Covers.loaded` has one turn in it. The targets were attached by some loading, which is
the last one of this name; being unambiguous gives it the same answer as the loading that is asked about, but
not the same children. That the children of the latter were opened on the targets as well follows because it
was opened itself, and whatever was opened is closed by an attachment of its own.

## Main definitions

* `Execution.Unambiguous` — documents and targets are determined by identities and names
* `Execution.Covers` — an instance on which everything requested was opened

## Main results

* `Execution.Covers.loaded` — the field of a requested navigation at the end of a run
-/

namespace DocumentQuery

namespace Execution

/-- All loadings of an execution were bound from includes, if those of the query were. A property of includes
that passes to what is nested in them passes to everything that is reached. -/
theorem Reaches.bound {x : Execution} {bindings : Bindings} {kind : List Inclusion → Prop}
    {typeName : String} {loadings : List Loading} {d : Document} (hr : x.Reaches typeName loadings d)
    (hroot : Inclusion.Bound x.model bindings kind x.query.entityType x.query.includes)
    (hkind : ∀ includes, kind includes → ∀ i ∈ includes, kind i.nested) :
    Inclusion.Bound x.model bindings kind typeName loadings := by
  induction hr with
  | root _ => exact hroot
  | target _ hl _ _ ih => exact ih.below hkind hl

/-- Executions in which an identity tells which document is meant, and the name of a navigation tells
which targets are. -/
structure Unambiguous (x : Execution) : Prop where
  /-- A document is known by its own name. -/
  identity : ∀ typeName loadings d item, x.Reaches typeName loadings d →
    d.shapeEntity x.model typeName = .ok item → item.identity? x.model typeName = some d.id
  /-- Documents that are met with the same name are one document. -/
  document : ∀ typeName loadings loadings' d d', x.Reaches typeName loadings d →
    x.Reaches typeName loadings' d' → d.id = d'.id → d = d'
  /-- Loadings of one name on one document load the same navigation and are answered alike. -/
  target : ∀ typeName loadings loadings' d l l', x.Reaches typeName loadings d → l ∈ loadings →
    x.Reaches typeName loadings' d → l' ∈ loadings' → l.navigation.name = l'.navigation.name →
    l.navigation = l'.navigation ∧ l.targetType = l'.targetType ∧
      l.answer x.limits x.store d = l'.answer x.limits x.store d

variable {x : Execution} {h : History} {id : InstanceId} {typeName : String} {loadings : List Loading}
  {d : Document}

/-- An instance stands for one document of one type. Its type and its identity were given at its birth, and in
an unambiguous execution they tell the document. -/
theorem Unambiguous.eq_of_represents (hu : x.Unambiguous) (hr : x.Reaches typeName loadings d)
    (hid : h.Represents x.model typeName d id) {typeName' : String} {loadings' : List Loading}
    {d' : Document} (hr' : x.Reaches typeName' loadings' d')
    (hid' : h.Represents x.model typeName' d' id) : typeName = typeName' ∧ d = d' := by
  obtain ⟨item, hitem, b, hb, rfl, hkey, -⟩ := hid
  obtain ⟨item', hitem', b', hb', rfl, hkey', -⟩ := hid'
  cases hb.symm.trans hb'
  rw [hu.identity _ _ _ _ hr hitem] at hkey
  rw [hu.identity _ _ _ _ hr' hitem'] at hkey'
  exact ⟨rfl, hu.document _ _ _ _ _ hr hr' (Option.some.inj (hkey.symm.trans hkey'))⟩

/-- The instances that stand for a document are one instance, since a document has an identity and no two
instances are born for one. -/
theorem Unambiguous.instance_eq (hu : x.Unambiguous) (hv : x.Valid h)
    (hr : x.Reaches typeName loadings d) (hid : h.Represents x.model typeName d id) {id' : InstanceId}
    (hid' : h.Represents x.model typeName d id') : id = id' := by
  obtain ⟨item, hitem, b, hb, htype, hkey, -⟩ := hid
  obtain ⟨item', hitem', b', hb', htype', hkey', -⟩ := hid'
  rw [hu.identity _ _ _ _ hr hitem] at hkey
  rw [hu.identity _ _ _ _ hr hitem'] at hkey'
  exact History.eq_of_identity_eq hv.grounded hb hb' (htype.trans htype'.symm) hkey hkey'

/-- Whether an instance stands for a document on which loadings are requested and all of them were opened on
it. What was opened need not be attached yet; that it is in the end is said of the whole run. -/
structure Covers (x : Execution) (h : History) (typeName : String) (loadings : List Loading)
    (d : Document) (id : InstanceId) : Prop where
  reaches : x.Reaches typeName loadings d
  represents : h.Represents x.model typeName d id
  opened : ∀ l ∈ loadings, h.Opened id l.label

/-- What was attached to an instance for a navigation that is requested on it are the targets that the request
is answered with. It may have been attached by another loading of the navigation, for the same document, with
the same answer. -/
theorem Covers.targets (hc : x.Covers h typeName loadings d id) (hu : x.Unambiguous) (hv : x.Valid h)
    {l : Loading} (hl : l ∈ loadings) {a : Attachment} (ha : a ∈ h.attachments) (howner : a.owner = id)
    (hname : a.name = l.navigation.name) :
    a.loading.navigation = l.navigation ∧ l.answer x.limits x.store d = .ok a.documents ∧
      List.Forall₂ (h.Represents x.model l.targetType) a.documents a.targets := by
  have hadmitted := hv.attachment ha
  obtain ⟨typeName', loadings', hreaches, hmem, hrepresents⟩ := hadmitted.requested
  obtain ⟨rfl, hrecord⟩ := hu.eq_of_represents hc.reaches hc.represents hreaches (howner ▸ hrepresents)
  have hanswered := hadmitted.answered
  rw [← hrecord] at hreaches hanswered
  obtain ⟨hnavigation, htype, hanswer⟩ :=
    hu.target _ _ _ _ _ _ hc.reaches hl hreaches hmem hname.symm
  exact ⟨hnavigation.symm, hanswer.trans hanswered, htype ▸ hadmitted.targets⟩

/-- At the end a navigation that is requested on an instance holds the targets that the request is answered
with, and they are covered in turn. So the statement can be repeated along a path. -/
theorem Covers.loaded (hc : x.Covers h typeName loadings d id) (hu : x.Unambiguous) (hv : x.Valid h)
    (hclosed : ∀ o ∈ h.openings, ∃ a ∈ h.attachments, a.owner = o.1 ∧ a.loading = o.2)
    {l : Loading} (hl : l ∈ loadings) :
    ∃ documents targets, l.answer x.limits x.store d = .ok documents ∧
      h.graph.field? id l.navigation.name = some (Loading.targetValue l.navigation targets) ∧
      List.Forall₂ (x.Covers h l.targetType l.children) documents targets := by
  -- the loading that was opened for this request, and the one that set the field last
  obtain ⟨opened, hopened, hlabel⟩ := hc.opened l hl
  obtain ⟨first, hfirst, howner, rfl⟩ := hclosed _ hopened
  have hfirstOwner : first.owner = id := howner
  obtain ⟨hnavigation, -, hchildren⟩ := Loading.same_of_label hlabel
  obtain ⟨last, hlast, hlastOwner, hlastName, hfield⟩ := History.field?_of_attached hv.grounded hfirst
  have hname : first.name = l.navigation.name := congrArg Navigation.name hnavigation
  obtain ⟨-, hanswer, htargets⟩ := hc.targets hu hv hl hfirst hfirstOwner hname
  obtain ⟨hlastNavigation, hlastAnswer, hlastTargets⟩ :=
    hc.targets hu hv hl hlast (hlastOwner.trans hfirstOwner) (hlastName.trans hname)
  have hdocuments : first.documents = last.documents :=
    Except.ok.inj (hanswer.symm.trans hlastAnswer)
  have hvalue : last.value = Loading.targetValue l.navigation last.targets := by
    rw [Attachment.value, hlastNavigation]
  refine ⟨last.documents, last.targets, hlastAnswer, ?_, ?_⟩
  · rw [← hvalue, ← hfield, ← hname, ← hfirstOwner]
  · refine List.forall₂_iff_zip.mpr ⟨hlastTargets.length_eq, fun {d' target} hpair => ?_⟩
    have hd' : d' ∈ last.documents := (List.of_mem_zip hpair).1
    have hreaches : x.Reaches l.targetType l.children d' := .target hc.reaches hl hlastAnswer hd'
    have hrepresents := (List.forall₂_iff_zip.mp hlastTargets).2 hpair
    -- the first loading has the same target, and below it everything was opened
    obtain ⟨target', htarget', hrepresents'⟩ := exists_of_forall₂ htargets (hdocuments ▸ hd')
    obtain rfl := hu.instance_eq hv hreaches hrepresents hrepresents'
    refine ⟨hreaches, hrepresents, fun child hchild => ?_⟩
    have hlabels : child.label ∈ first.loading.children.map Loading.label := by
      rw [hchildren]
      exact List.mem_map_of_mem hchild
    obtain ⟨child', hchild', hlabel'⟩ := List.mem_map.mp hlabels
    rw [← hlabel']
    exact (hv.attachment hfirst).below target htarget' child' hchild'

/-- At the end of a run there is an instance for every document that is read, and everything that is requested
on the document was opened on it. By induction on how the document is reached. -/
theorem Finishes.exists_covers {outcome : Outcome} (hf : x.Finishes h outcome)
    (hentity : x.query.projection = .entity) (hu : x.Unambiguous) (hv : x.Valid h)
    (hr : x.Reaches typeName loadings d) : ∃ id, x.Covers h typeName loadings d id := by
  induction hr with
  | @root d hd =>
    have hdocument : ∃ v, x.Produces h d v := by
      obtain ⟨documents, hdocuments, hmem⟩ := hd
      rcases hf.result with ⟨raw, value, hvalue, -⟩ | ⟨documents', values, hdocuments', hvalues, -⟩
      · cases hdocuments.symm.trans hvalue
      · cases hdocuments.symm.trans hdocuments'
        obtain ⟨v, -, hv⟩ := exists_of_forall₂ hvalues hmem
        exact ⟨v, hv⟩
    obtain ⟨v, hv⟩ := hdocument
    obtain ⟨id, -, hrepresents, hopened⟩ := hv.entity hentity
    exact ⟨id, .root hd, hrepresents, hopened⟩
  | @target _ _ _ d l _ _ hl answered hd ih =>
    obtain ⟨owner, howner⟩ := ih
    obtain ⟨documents, targets, hanswer, -, hcovers⟩ := howner.loaded hu hv hf.closed hl
    cases hanswer.symm.trans answered
    obtain ⟨id, -, hid⟩ := exists_of_forall₂ hcovers hd
    exact ⟨id, hid⟩

end Execution

end DocumentQuery
