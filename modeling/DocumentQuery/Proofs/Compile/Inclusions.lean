import DocumentQuery.Bound.Binding
import DocumentQuery.Proofs.Success
import DocumentQuery.Run.Loading

/-!
# Includes as loadings

Binding an include looks its navigation up in the model, so two includes of one name on one type load
the same navigation, and without restrictions they load the same targets.

These are the facts about loadings that do not depend on which query they belong to. What holds of includes of
a kind holds of the loadings they were bound to and of those below them, since the includes below are of the
kind too (`Inclusion.Bound.below`); a statement about a whole tree is then proved level by level.

## Main definitions

* `Inclusion.isPlain` — includes without restrictions all the way down
* `Inclusion.Bound` — loadings that includes of an entity type were bound to
-/

namespace DocumentQuery

namespace Model

/-- Whether a name is one that an entity type of the model declares. -/
def NamesEntity (m : Model) (typeName : String) : Prop :=
  ∃ name type, m.type? name = some type ∧ type.isEntity = true ∧ type.name = typeName

/-- An entity type that is found in the model is declared by it. -/
theorem namesEntity_of_entityNamed {m : Model} {name : String} {type : TypeDecl}
    (h : m.entityNamed name = .ok type) : m.NamesEntity type.name := by
  unfold entityNamed typeNamed at h
  obtain ⟨found, hfound, h⟩ := Except.bind_eq_ok.mp h
  split at h
  next hentity =>
    cases h
    split at hfound
    next htype =>
      cases hfound
      exact ⟨name, _, htype, hentity, rfl⟩
    · cases hfound
  · cases h

/-- A navigation is looked up by its name and leads to an entity. -/
theorem targetOf_spec {m : Model} {typeName name : String} {navigation : Navigation}
    {target : TypeDecl} (h : m.targetOf typeName name = .ok (navigation, target)) :
    navigation.name = name ∧ m.NamesEntity target.name := by
  unfold targetOf at h
  obtain ⟨type, -, h⟩ := Except.bind_eq_ok.mp h
  split at h
  · cases h
  next found hfound =>
    split at h
    next entity hentity =>
      cases h
      exact ⟨by simpa using List.find?_some hfound, namesEntity_of_entityNamed hentity⟩
    · cases h

end Model

namespace Inclusion

variable {m : Model} {bindings : Bindings} {typeName : String}

mutual

/-- Whether a navigation is loaded without restrictions, and so is everything below it. -/
def isPlain : Inclusion → Bool
  | ⟨navigation, filters, orderBy, limit, skip, nested⟩ =>
    !isRestricted ⟨navigation, filters, orderBy, limit, skip, nested⟩ && allPlain nested

/-- Whether navigations are loaded without restrictions, and so is everything below them. -/
def allPlain : List Inclusion → Bool
  | [] => true
  | i :: is => isPlain i && allPlain is

end

/-- An include is plain if it is not restricted and everything below it is plain. -/
theorem isPlain_eq (i : Inclusion) : i.isPlain = (!i.isRestricted && allPlain i.nested) := by
  cases i
  rw [isPlain]

/-- Every one of several plain includes is plain. -/
theorem isPlain_of_mem {is : List Inclusion} (h : allPlain is = true) {i : Inclusion} (hi : i ∈ is) :
    i.isPlain = true := by
  induction is with
  | nil => cases hi
  | cons first is ih =>
    rw [allPlain, Bool.and_eq_true] at h
    rcases List.mem_cons.mp hi with rfl | hi
    · exact h.1
    · exact ih h.2 hi

/-- What a loading has of its include: the navigation of its name on the type it is loaded for, the target of
that navigation, and below it what the includes below are bound to there. Without restrictions nothing is left
out, put in order or cut. -/
theorem bind_spec {i : Inclusion} {l : Loading} (h : bind m bindings typeName i = .ok l) :
    ∃ target, m.targetOf typeName i.navigation = .ok (l.navigation, target) ∧
      l.targetType = target.name ∧ bindAll m bindings target.name i.nested = .ok l.children ∧
      (i.isRestricted = false →
        l.conditions = [] ∧ l.orderBy = [] ∧ l.limit = none ∧ l.skip = none) := by
  obtain ⟨name, filters, orderBy, limit, skip, nested⟩ := i
  rw [bind] at h
  obtain ⟨⟨navigation, target⟩, htarget, h⟩ := Except.bind_eq_ok.mp h
  obtain ⟨children, hchildren, h⟩ := Except.bind_eq_ok.mp h
  obtain ⟨conditions, hconditions, h⟩ := Except.bind_eq_ok.mp h
  obtain ⟨count, hlimit, h⟩ := Except.bind_eq_ok.mp h
  obtain ⟨skipped, hskip, h⟩ := Except.bind_eq_ok.mp h
  cases h
  refine ⟨target, htarget, rfl, hchildren, fun hplain => ?_⟩
  simp only [isRestricted, Bool.or_eq_false_iff, Bool.not_eq_false', List.isEmpty_iff,
    Option.isSome_eq_false_iff, Option.isNone_iff_eq_none] at hplain
  obtain ⟨⟨⟨rfl, rfl⟩, rfl⟩, rfl⟩ := hplain
  cases hconditions
  cases hlimit
  cases hskip
  exact ⟨rfl, rfl, rfl, rfl⟩

/-- Every loading belongs to an include. -/
theorem mem_bindAll {is : List Inclusion} {ls : List Loading}
    (h : bindAll m bindings typeName is = .ok ls) {l : Loading} (hl : l ∈ ls) :
    ∃ i ∈ is, bind m bindings typeName i = .ok l := by
  induction is generalizing ls with
  | nil =>
    cases h
    cases hl
  | cons i is ih =>
    rw [bindAll] at h
    obtain ⟨first, hfirst, h⟩ := Except.bind_eq_ok.mp h
    obtain ⟨rest, hrest, h⟩ := Except.bind_eq_ok.mp h
    cases h
    rcases List.mem_cons.mp hl with rfl | hl
    · exact ⟨i, List.mem_cons_self, hfirst⟩
    · obtain ⟨i', hi', hbind⟩ := ih hrest hl
      exact ⟨i', List.mem_cons_of_mem i hi', hbind⟩

/-- Loadings that were bound from includes of a kind on an entity type. The type is one that the model
declares, so that navigations of one name on it are one navigation. -/
def Bound (m : Model) (bindings : Bindings) (kind : List Inclusion → Prop) (typeName : String)
    (loadings : List Loading) : Prop :=
  m.NamesEntity typeName ∧ ∃ includes, kind includes ∧ bindAll m bindings typeName includes = .ok loadings

variable {kind : List Inclusion → Prop} {loadings loadings' : List Loading}

/-- What is loaded below a navigation was bound from includes of its target. -/
theorem Bound.below (hb : Bound m bindings kind typeName loadings)
    (hkind : ∀ includes, kind includes → ∀ i ∈ includes, kind i.nested) {l : Loading}
    (hl : l ∈ loadings) : Bound m bindings kind l.targetType l.children := by
  obtain ⟨-, includes, hincludes, hbind⟩ := hb
  obtain ⟨i, hi, hl⟩ := mem_bindAll hbind hl
  obtain ⟨target, htarget, htype, hchildren, -⟩ := bind_spec hl
  exact ⟨htype ▸ (Model.targetOf_spec htarget).2, i.nested, hkind includes hincludes i hi,
    htype ▸ hchildren⟩

/-- On one type the name of a navigation tells which navigation is loaded and what it leads to, whichever
includes the loadings come from. -/
theorem Bound.navigation_eq (hb : Bound m bindings kind typeName loadings)
    (hb' : Bound m bindings kind typeName loadings') {l l' : Loading} (hl : l ∈ loadings)
    (hl' : l' ∈ loadings') (hname : l.navigation.name = l'.navigation.name) :
    l.navigation = l'.navigation ∧ l.targetType = l'.targetType := by
  have hspec : ∀ {ls l}, Bound m bindings kind typeName ls → l ∈ ls → ∃ target : TypeDecl,
      m.targetOf typeName l.navigation.name = .ok (l.navigation, target) ∧
        l.targetType = target.name := by
    rintro ls l ⟨-, includes, -, hbind⟩ hl
    obtain ⟨i, -, hl⟩ := mem_bindAll hbind hl
    obtain ⟨target, htarget, htype, -⟩ := bind_spec hl
    exact ⟨target, (Model.targetOf_spec htarget).1 ▸ htarget, htype⟩
  obtain ⟨target, htarget, htype⟩ := hspec hb hl
  obtain ⟨target', htarget', htype'⟩ := hspec hb' hl'
  rw [hname] at htarget
  obtain ⟨hnavigation, rfl⟩ := Prod.ext_iff.mp (Except.ok.inj (htarget.symm.trans htarget'))
  exact ⟨hnavigation, htype.trans htype'.symm⟩

/-- Without restrictions all targets are selected. -/
theorem Bound.selection_eq (hb : Bound m bindings (allPlain · = true) typeName loadings) {l : Loading}
    (hl : l ∈ loadings) : l.selection = ⟨[], [], Window.ofCounts none none none⟩ := by
  obtain ⟨-, includes, hplain, hbind⟩ := hb
  obtain ⟨i, hi, hl⟩ := mem_bindAll hbind hl
  obtain ⟨-, -, -, -, hnone⟩ := bind_spec hl
  have hi := isPlain_of_mem hplain hi
  rw [isPlain_eq, Bool.and_eq_true, Bool.not_eq_true'] at hi
  obtain ⟨hconditions, horder, hlimit, hskip⟩ := hnone hi.1
  simp [Loading.selection, hconditions, horder, hlimit, hskip]

/-- What is below a plain include is plain. -/
theorem allPlain_nested {includes : List Inclusion} (h : allPlain includes = true) {i : Inclusion}
    (hi : i ∈ includes) : allPlain i.nested = true := by
  have hi := isPlain_of_mem h hi
  rw [isPlain_eq, Bool.and_eq_true] at hi
  exact hi.2

end Inclusion

end DocumentQuery
