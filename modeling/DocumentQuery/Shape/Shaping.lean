import DocumentQuery.Error.Failure
import DocumentQuery.Schema.Lookup
import DocumentQuery.Shape.Basic
import DocumentQuery.Store.Query

/-!
# Shaping documents

Shaping follows the stored value, so it ends for every document, also when the types of the model refer
to each other. Every stored value comes with a shaper, which gives its shape for any declared type; an
object is shaped by looking up the shapers of the fields that the properties of its type are stored in.

The key of an entity is not stored in the document but is its identity.

## Main definitions

* `Shaper` — the shape of a stored value for a declared type
* `Shaper.ofJson` — the shaper of a stored value
* `Projection.shape` — the shaped item of a document
-/

namespace DocumentQuery

/-- The shape of a stored value for a declared type. A stored value is turned into a shaper before it is known
what type it is read with, which is what lets the recursion follow the value. -/
abbrev Shaper := DeclaredType → Except Failure ShapedValue

/-- Refuses a stored value of another form. -/
def Expectation.refuse {α : Type} (expected : Expectation) (raw : Json) : Except Failure α :=
  .error (.materialization (.mismatch expected raw))

/-- Shapes properties in order, each with its own shaper. -/
def shapeProperties (typeName : String) (shaper : Property → Shaper) (item : ShapedItem) :
    List Property → Except Failure ShapedItem
  | [] => .ok item
  | p :: ps =>
    match shaper p p.declared with
    | .ok value => shapeProperties typeName shaper (item.insert p.name value) ps
    | .error e => .error (e.inMember typeName p.name)

/-- Shapes the persisted properties of a type, in the order in which they are declared. Of two properties with
one name the later one is kept. -/
def shapeType (m : Model) (typeName : String) (shaper : TypeDecl → Property → Shaper) :
    Except Failure ShapedItem :=
  match m.typeNamed typeName with
  | .ok type => shapeProperties typeName (shaper type) [] type.persisted
  | .error e => .error (.query e)

namespace Shaper

/-- The shaper of a value that is neither an object nor an array. -/
def ofLeaf (raw : Json) : Shaper := fun declared =>
  match declared with
  | .scalar _ => .ok ⟨declared, raw, .scalar⟩
  | .complex _ =>
    if raw.isNull then .ok ⟨declared, raw, .absent .complex⟩ else Expectation.object.refuse raw
  | .entity _ => .ok ⟨declared, raw, .absent .entity⟩
  | .collection _ element =>
    if raw.isNull then
      match element with
      | .scalar _ => .ok ⟨declared, raw, .scalars []⟩
      | .collection _ _ => .error (.materialization .nestedCollection)
      | _ => .ok ⟨declared, raw, .objects []⟩
    else Expectation.list.refuse raw

/-- The shaper of the field a property is stored in; a missing field counts as null. -/
def ofField (fields : Table Shaper) (p : Property) : Shaper :=
  (fields.lookup p.storedName).getD (ofLeaf .null)

/-- Shapes an object of a type, given the shapers of its fields. -/
def shapeObject (m : Model) (typeName : String) (fields : Table Shaper) : Except Failure ShapedItem :=
  shapeType m typeName fun _ => ofField fields

/-- Shapes the items of a list, each given with the shapers of its fields if it is an object. -/
def shapeItems (m : Model) (typeName : String) :
    List (Json × Option (Table Shaper)) → Except Failure (List ShapedItem)
  | [] => .ok []
  | (raw, none) :: _ => Expectation.objectElement.refuse raw
  | (_, some fields) :: rest => do
    let item ← shapeObject m typeName fields
    let items ← shapeItems m typeName rest
    return item :: items

/-- The content of a list for the type of its elements. -/
def listContent (m : Model) (items : List (Json × Option (Table Shaper))) :
    DeclaredType → Except Failure ShapedContent
  | .scalar _ => .ok (.scalars (items.map Prod.fst))
  | .complex typeName => (shapeItems m typeName items).map ShapedContent.objects
  | .entity typeName => (shapeItems m typeName items).map ShapedContent.objects
  | .collection _ _ => .error (.materialization .nestedCollection)

/-- The shaper of an object, given the shapers of its fields. -/
def ofFields (m : Model) (raw : Json) (fields : Table Shaper) : Shaper := fun declared =>
  match declared with
  | .scalar _ => .ok ⟨declared, raw, .scalar⟩
  | .complex typeName => do
    let item ← shapeObject m typeName fields
    return ⟨declared, raw, .object .complex item⟩
  | .entity typeName => do
    let item ← shapeObject m typeName fields
    return ⟨declared, raw, .object .entity item⟩
  | .collection _ _ => Expectation.list.refuse raw

/-- The shaper of an array, given its items with the shapers of their fields. -/
def ofItems (m : Model) (raw : Json) (items : List (Json × Option (Table Shaper))) : Shaper :=
  fun declared =>
    match declared with
    | .scalar _ => .ok ⟨declared, raw, .scalar⟩
    | .complex _ => Expectation.object.refuse raw
    | .entity _ => .ok ⟨declared, raw, .absent .entity⟩
    | .collection _ element => do
      let content ← listContent m items element
      return ⟨declared, raw, content⟩

mutual

/-- The shaper of a stored value. -/
def ofJson (m : Model) : Json → Shaper
  | .obj members => ofFields m (.obj members) (ofMembers m members)
  | .arr items => ofItems m (.arr items) (ofElements m items)
  | raw => ofLeaf raw

/-- The shapers of the members of an object. -/
def ofMembers (m : Model) : List (String × Json) → List (String × Shaper)
  | [] => []
  | (name, value) :: rest => (name, ofJson m value) :: ofMembers m rest

/-- The items of an array with the shapers of their fields. -/
def ofElements (m : Model) : List Json → List (Json × Option (Table Shaper))
  | [] => []
  | .obj members :: rest => (.obj members, some (ofMembers m members)) :: ofElements m rest
  | raw :: rest => (raw, none) :: ofElements m rest

end

end Shaper

namespace Document

/-- The shapers of the fields of a document. -/
def fieldShapers (m : Model) (d : Document) : Table Shaper :=
  Shaper.ofMembers m (d.data.toObject?.getD [])

/-- The shaped item of a document of a type. -/
def shapeEntity (m : Model) (d : Document) (typeName : String) : Except Failure ShapedItem :=
  let fields := d.fieldShapers m
  shapeType m typeName fun type p =>
    if type.isKey p.name then Shaper.ofLeaf (.str d.id) else Shaper.ofField fields p

/-- The shaped value of a projected member. -/
def shapeMember (m : Model) (d : Document) (member : ProjectedMember) : Except Failure ShapedValue :=
  Shaper.ofJson m ((d.field? member.source).getD .null) member.declared

/-- The shaped values of projected members. -/
def shapeMembers (m : Model) (d : Document) (members : List ProjectedMember) :
    Except Failure ShapedItem := do
  let values ← members.mapM fun member => do
    let value ← d.shapeMember m member
    return (member.resultName, value)
  return Table.ofList values

end Document

/-- The shaped item of a document of a type. -/
def Projection.shape (m : Model) (typeName : String) (d : Document) :
    Projection → Except Failure ShapedItem
  | .entity => d.shapeEntity m typeName
  | .field member => d.shapeMembers m [member]
  | .members _ parts => d.shapeMembers m parts

end DocumentQuery
