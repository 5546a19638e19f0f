import DocumentQuery.Proofs.Shape.Unrolling

/-!
# Shaped values fit their types

Documents are shaped by their declared types, and instances are made by the shapes that came out. The two
agree on a value that fits: it has the shape that belongs to its declared type. Every value that is shaped
fits, and so does every value inside of it, because what an object holds is shaped in turn
(`ShapedValue.Shaped.of_occurs`). This is said of a value and all that occurs in it at once, however deep, and
without a look at the model.

A list of lists has the shape of a list of objects by its declared type; it does not fit, and it is never
shaped.

Fitting is about one value, and being shaped about how it came to be; the first follows from the second and is
all that making an instance asks for. Because being shaped is inherited by what occurs in a value, nothing has
to be said of the shapes of the members one by one.

## Main definitions

* `ShapedValue.Occurs`, `ShapedItem.Holds` — the values in a value and in an object, at any depth
* `ShapedValue.Fits` — values of the shape of their declared type
* `ShapedValue.Shaped` — the shapes of stored values
-/

namespace DocumentQuery

/-- The objects that a content holds. -/
def ShapedContent.held : ShapedContent → List ShapedItem
  | .object _ item => [item]
  | .objects items => items
  | .scalar | .absent _ | .scalars _ => []

namespace ShapedValue

/-- The values that occur in a value: the value itself, and what occurs in the objects it holds. -/
inductive Occurs : ShapedValue → ShapedValue → Prop
  | self (v : ShapedValue) : Occurs v v
  | inside {v u : ShapedValue} {item : ShapedItem} {member : String × ShapedValue}
      (hitem : item ∈ v.content.held) (hmember : member ∈ item) (h : Occurs member.2 u) : Occurs v u

/-- Values that have the shape of their declared type, which is not a list of lists. -/
structure Fits (v : ShapedValue) : Prop where
  /-- The shape is that of the declared type. -/
  kind : v.kind = v.declared.valueKind
  /-- The elements of a list are no lists. -/
  flat : ∀ kind element, v.declared = .collection kind element → element.isCollection = false

/-- Values that are the shape of a stored value for a declared type. -/
def Shaped (m : Model) (v : ShapedValue) : Prop :=
  ∃ raw declared, Shaper.ofJson m raw declared = .ok v

end ShapedValue

namespace ShapedItem

/-- The values that occur in an object. -/
def Holds (item : ShapedItem) (u : ShapedValue) : Prop :=
  ∃ member ∈ item, member.2.Occurs u

/-- Objects whose members are shapes of stored values. -/
def Shaped (m : Model) (item : ShapedItem) : Prop :=
  ∀ member ∈ item, member.2.Shaped m

end ShapedItem

/-- What occurs in an object occurs in every value that holds the object. -/
theorem ShapedItem.Holds.occurs {item : ShapedItem} {u v : ShapedValue} (hu : item.Holds u)
    (hitem : item ∈ v.content.held) : v.Occurs u := by
  obtain ⟨member, hmember, hu⟩ := hu
  exact .inside hitem hmember hu

variable {m : Model}

/-! ## Objects -/

/-- The members of a shaped object are what its properties are shaped to. -/
theorem mem_shapeProperties {typeName : String} {shaper : Property → Shaper} {item item' : ShapedItem}
    {properties : List Property} (h : shapeProperties typeName shaper item properties = .ok item')
    {member : String × ShapedValue} (hmember : member ∈ item') :
    member ∈ item ∨ ∃ p ∈ properties, shaper p p.declared = .ok member.2 := by
  induction properties generalizing item with
  | nil =>
    cases h
    exact .inl hmember
  | cons p properties ih =>
    rw [shapeProperties] at h
    split at h
    next value hvalue =>
      rcases ih h with hmember | ⟨q, hq, hshaper⟩
      · rcases Table.mem_insert hmember with rfl | hmember
        · exact .inr ⟨p, List.mem_cons_self, hvalue⟩
        · exact .inl hmember
      · exact .inr ⟨q, List.mem_cons_of_mem p hq, hshaper⟩
    next => cases h

/-- An object is made of shapes of stored values if its properties are shaped to those. -/
theorem shaped_of_shapeType {typeName : String} {shaper : TypeDecl → Property → Shaper} {item : ShapedItem}
    (hshaper : ∀ type p, ∃ raw, shaper type p = Shaper.ofJson m raw)
    (h : shapeType m typeName shaper = .ok item) : item.Shaped m := by
  intro member hmember
  obtain ⟨type, -, hproperties⟩ := shapeType_eq_ok.mp h
  rcases mem_shapeProperties hproperties hmember with hmember | ⟨p, -, hvalue⟩
  · exact nomatch hmember
  · obtain ⟨raw, hraw⟩ := hshaper type p
    rw [hraw] at hvalue
    exact ⟨raw, p.declared, hvalue⟩

namespace Shaper

/-- An object is made of shapes of stored values. -/
theorem shaped_of_objectWith {typeName : String} {members : Table Json} {item : ShapedItem}
    (h : objectWith m (ofJson m) typeName members = .ok item) : item.Shaped m :=
  shaped_of_shapeType (fun _ p => ⟨Json.stored members p.storedName, rfl⟩) h

/-- So is an object in a list. -/
theorem shaped_of_elementWith {typeName : String} {raw : Json} {item : ShapedItem}
    (h : elementWith m (ofJson m) typeName raw = .ok item) : item.Shaped m := by
  cases raw with
  | obj members => exact shaped_of_objectWith h
  | _ => exact nomatch h

/-- The content of a list has the shape of the list, and its objects are made of shapes of stored values. -/
theorem fits_of_listWith {items : List Json} {element : DeclaredType} {content : ShapedContent}
    (h : listWith m (ofJson m) items element = .ok content) (kind : CollectionKind) :
    content.kind = (DeclaredType.collection kind element).valueKind ∧ element.isCollection = false ∧
      ∀ item ∈ content.held, item.Shaped m := by
  cases element with
  | scalar type =>
    cases h
    exact ⟨rfl, rfl, fun _ hitem => nomatch hitem⟩
  | complex typeName | entity typeName =>
    obtain ⟨objects, hobjects, rfl⟩ := Except.map_eq_ok.mp h
    refine ⟨rfl, rfl, fun item hitem => ?_⟩
    obtain ⟨raw, -, hraw⟩ := Except.mem_of_mapM_eq_ok hobjects hitem
    exact shaped_of_elementWith hraw
  | collection _ _ => exact nomatch h

/-- What is shaped has the declared type it is shaped for and fits it, and its objects are made of shapes of
stored values. -/
theorem fits_of_ofJson {raw : Json} {declared : DeclaredType} {v : ShapedValue}
    (h : ofJson m raw declared = .ok v) :
    v.declared = declared ∧ v.Fits ∧ ∀ item ∈ v.content.held, item.Shaped m := by
  rw [ofJson_eq_step] at h
  cases declared with
  | scalar type =>
    cases h
    exact ⟨rfl, ⟨rfl, fun _ _ h => nomatch h⟩, fun _ hitem => nomatch hitem⟩
  | complex typeName =>
    cases raw with
    | obj members =>
      obtain ⟨item, hitem, h⟩ := Except.bind_eq_ok.mp h
      cases h
      exact ⟨rfl, ⟨rfl, fun _ _ h => nomatch h⟩, List.forall_mem_singleton.mpr (shaped_of_objectWith hitem)⟩
    | null =>
      cases h
      exact ⟨rfl, ⟨rfl, fun _ _ h => nomatch h⟩, fun _ hitem => nomatch hitem⟩
    | _ => exact nomatch h
  | entity typeName =>
    cases raw with
    | obj members =>
      obtain ⟨item, hitem, h⟩ := Except.bind_eq_ok.mp h
      cases h
      exact ⟨rfl, ⟨rfl, fun _ _ h => nomatch h⟩, List.forall_mem_singleton.mpr (shaped_of_objectWith hitem)⟩
    | _ =>
      cases h
      exact ⟨rfl, ⟨rfl, fun _ _ h => nomatch h⟩, fun _ hitem => nomatch hitem⟩
  | collection kind element =>
    -- the elements fit by their own conversions, which is the recursive step
    obtain ⟨items, -, h⟩ := Except.bind_eq_ok.mp h
    obtain ⟨content, hcontent, h⟩ := Except.bind_eq_ok.mp h
    cases h
    obtain ⟨hkind, hflat, hheld⟩ := fits_of_listWith hcontent kind
    refine ⟨rfl, ⟨hkind, fun _ _ h => ?_⟩, hheld⟩
    cases h
    exact hflat

end Shaper

/-! ## Everything inside -/

namespace ShapedValue.Shaped

variable {v u : ShapedValue}

theorem fits (h : v.Shaped m) : v.Fits := by
  obtain ⟨raw, declared, h⟩ := h
  exact (Shaper.fits_of_ofJson h).2.1

/-- What occurs in a shaped value is shaped too. -/
theorem of_occurs (h : v.Shaped m) (hu : v.Occurs u) : u.Shaped m := by
  induction hu with
  | self v => exact h
  | inside hitem hmember hu ih =>
    obtain ⟨raw, declared, h⟩ := h
    exact ih ((Shaper.fits_of_ofJson h).2.2 _ hitem _ hmember)

end ShapedValue.Shaped

/-- What occurs in a shaped object is shaped. -/
theorem ShapedItem.Shaped.of_holds {item : ShapedItem} {u : ShapedValue} (h : item.Shaped m)
    (hu : item.Holds u) : u.Shaped m := by
  obtain ⟨member, hmember, hu⟩ := hu
  exact (h member hmember).of_occurs hu

/-! ## Documents -/

namespace Document

variable {d : Document} {item : ShapedItem}

/-- A document that is read as an entity is made of shapes of stored values. -/
theorem shaped_of_shapeEntity {typeName : String} (h : d.shapeEntity m typeName = .ok item) :
    item.Shaped m := by
  refine shaped_of_shapeType (fun type p => ?_) h
  split
  · exact ⟨.str d.id, rfl⟩
  · exact ⟨_, Shaper.ofField_ofMembers _ p⟩

/-- So is a document that members are read from. -/
theorem shaped_of_shapeMembers {members : List ProjectedMember} (h : d.shapeMembers m members = .ok item) :
    item.Shaped m := by
  intro member hmember
  obtain ⟨values, hvalues, h⟩ := Except.bind_eq_ok.mp h
  cases h
  obtain ⟨source, -, h⟩ := Except.mem_of_mapM_eq_ok hvalues (Table.mem_ofList hmember)
  obtain ⟨value, hvalue, h⟩ := Except.bind_eq_ok.mp h
  cases h
  exact ⟨_, _, hvalue⟩

end Document

/-- What a document is shaped to is made of shapes of stored values. -/
theorem Projection.shaped_of_shape {typeName : String} {d : Document} {p : Projection} {item : ShapedItem}
    (h : p.shape m typeName d = .ok item) : item.Shaped m := by
  cases p with
  | entity => exact Document.shaped_of_shapeEntity h
  | field member => exact Document.shaped_of_shapeMembers h
  | members resultType parts => exact Document.shaped_of_shapeMembers h

end DocumentQuery
