import DocumentQuery.Instance.Materialize
import DocumentQuery.Proofs.Lists
import DocumentQuery.Proofs.Success
import DocumentQuery.Shape.Shaping

/-!
# Identities of documents

An instance has an identity if its type has a key and the shaped object has a value for it. For a
document that is the identity of the document itself, provided that the key is among the properties that
are read (`Model.Keyed`): a key that is left out of documents, or that no property declares, gives no
identity, and then every meeting of a document makes a new instance.

The condition on the model is on declarations only, and it can be computed (`Model.keyed_of_forall`). Wherever
a statement says that one document is one instance, this is where it comes from.

## Main results

* `Document.identity?_of_shapeEntity` — the identity of a document that is read as an entity
-/

namespace DocumentQuery

namespace Model

/-- Whether a type can be identified: its key is one of its persisted properties. A key that is ignored is not
read from documents, and an instance without it is never found again. -/
def Identifies (m : Model) (typeName : String) : Prop :=
  ∃ type ∈ m.type? typeName, ∃ key ∈ type.key?, ∃ p ∈ type.persisted, p.name = key

instance (m : Model) (typeName : String) : Decidable (m.Identifies typeName) :=
  inferInstanceAs (Decidable (∃ type ∈ m.type? typeName, ∃ key ∈ type.key?, ∃ p ∈ type.persisted,
    p.name = key))

/-- Whether the key of every entity is a persisted property that it declares. Objects carry the name that
their type declares, so this is asked of the type that is found under that name. -/
def Keyed (m : Model) : Prop :=
  ∀ name type, m.type? name = some type → type.isEntity → m.Identifies type.name

/-- The types of a model can be checked one by one. -/
theorem keyed_of_forall {m : Model}
    (h : ∀ entry ∈ m.types, entry.2.isEntity → m.Identifies entry.2.name) : m.Keyed :=
  fun _ _ htype => h _ (mem_of_lookup htype)

end Model

/-- A member of a shaped item is the shape of the last property of its name. If no property has the name, it
is what it was before. -/
theorem lookup_shapeProperties {typeName : String} {shaper : Property → Shaper} {item item' : ShapedItem}
    {properties : List Property} (h : shapeProperties typeName shaper item properties = .ok item')
    (name : String) :
    (∃ p ∈ properties, p.name = name ∧
        ∃ value, shaper p p.declared = .ok value ∧ item'.lookup name = some value) ∨
      ((∀ p ∈ properties, p.name ≠ name) ∧ item'.lookup name = item.lookup name) := by
  induction properties generalizing item with
  | nil =>
    cases h
    exact Or.inr ⟨fun _ hp => (by cases hp), rfl⟩
  | cons p properties ih =>
    simp only [shapeProperties] at h
    cases hvalue : shaper p p.declared with
    | error e =>
      rw [hvalue] at h
      cases h
    | ok value =>
      rw [hvalue] at h
      rcases ih h with ⟨p', hp', hname, hrest⟩ | ⟨hnone, hlookup⟩
      · exact Or.inl ⟨p', List.mem_cons_of_mem p hp', hname, hrest⟩
      · by_cases hname : p.name = name
        · subst hname
          rw [Table.lookup_insert_self] at hlookup
          exact Or.inl ⟨p, List.mem_cons_self, rfl, value, hvalue, hlookup⟩
        · rw [Table.lookup_insert_of_ne (Ne.symm hname)] at hlookup
          exact Or.inr ⟨List.forall_mem_cons.mpr ⟨hname, hnone⟩, hlookup⟩

/-- A type that is shaped is one that the model holds. -/
theorem shapeType_eq_ok {m : Model} {typeName : String} {shaper : TypeDecl → Property → Shaper}
    {item : ShapedItem} :
    shapeType m typeName shaper = .ok item ↔ ∃ type, m.type? typeName = some type ∧
      shapeProperties typeName (shaper type) [] type.persisted = .ok item := by
  unfold shapeType Model.typeNamed
  cases m.type? typeName <;> simp

/-- What is shaped as it stands keeps the stored value. -/
theorem Shaper.raw_ofLeaf {raw : Json} {declared : DeclaredType} {value : ShapedValue}
    (h : ofLeaf raw declared = .ok value) : value.raw = raw := by
  unfold ofLeaf at h
  split at h
  · cases h
    rfl
  · split at h
    · cases h
      rfl
    · cases h
  · cases h
    rfl
  · split at h
    · split at h
      · cases h
        rfl
      · cases h
      · cases h
        rfl
    · cases h

namespace Document

/-- A document that is read as an entity has its own identity, whatever else is stored in it, under the name
of the key or under any other. -/
theorem identity?_of_shapeEntity {m : Model} {typeName : String} (hm : m.Identifies typeName)
    {d : Document} {item : ShapedItem} (h : d.shapeEntity m typeName = .ok item) :
    item.identity? m typeName = some d.id := by
  obtain ⟨type, htype, key, hkey, p, hp, hpkey⟩ := hm
  rw [Option.mem_def] at htype hkey
  obtain ⟨type', htype', hshape⟩ := shapeType_eq_ok.mp h
  cases htype.symm.trans htype'
  rcases lookup_shapeProperties hshape key with ⟨p', -, hname, value, hvalue, hlookup⟩ | ⟨hnone, -⟩
  · have hiskey : type.isKey p'.name = true := by simp [TypeDecl.isKey, hkey, hname]
    rw [if_pos hiskey] at hvalue
    simp [ShapedItem.identity?, htype, hkey, hlookup, Shaper.raw_ofLeaf hvalue]
  · exact absurd hpkey (hnone p hp)

end Document

end DocumentQuery
