import DocumentQuery.Json.Value
import DocumentQuery.Schema.Types
import DocumentQuery.Table

/-!
# Shaped values

A document is shaped by the declared types of its properties before instances are made of it. A shaped
value keeps the stored value and says what it is: a scalar, an object, a list of scalars or a list of
objects. The declared type decides this and never the stored value, so a missing list is still a list.

## Main definitions

* `ShapedValue`, `ShapedContent` — a value and what it is
* `ShapedItem` — the shaped values of one object
* `ShapedContent.kind` — the shape of a value
-/

namespace DocumentQuery

/-- Whether an object is part of its owner or an entity of its own. -/
inductive ObjectRole where
  | complex
  | entity
deriving DecidableEq, Inhabited

mutual

/-- A stored value with its declared type and its content. -/
inductive ShapedValue where
  | mk (declared : DeclaredType) (raw : Json) (content : ShapedContent)

/-- What a stored value is. -/
inductive ShapedContent where
  | scalar
  /-- No object where one may be. -/
  | absent (role : ObjectRole)
  | object (role : ObjectRole) (item : List (String × ShapedValue))
  | scalars (items : List Json)
  | objects (items : List (List (String × ShapedValue)))

end

instance : Inhabited ShapedContent := ⟨.scalar⟩

instance : Inhabited ShapedValue := ⟨.mk default default default⟩

/-- The shaped values of one object, by the names they have in the result. -/
abbrev ShapedItem := Table ShapedValue

/-- The shape of an object in a role. -/
def ObjectRole.kind : ObjectRole → ValueKind
  | .complex => .complexType
  | .entity => .entityReference

namespace ShapedContent

/-- The shape of a content. -/
def kind : ShapedContent → ValueKind
  | .scalar => .scalar
  | .absent role => role.kind
  | .object role _ => role.kind
  | .scalars _ => .scalarList
  | .objects _ => .objectList

/-- Whether a content may stand for null. -/
def mayBeNull : ShapedContent → Bool
  | .scalar | .absent _ => true
  | .object _ _ | .scalars _ | .objects _ => false

end ShapedContent

namespace ShapedValue

/-- The declared type of a value. -/
def declared : ShapedValue → DeclaredType
  | ⟨declared, _, _⟩ => declared

/-- The stored value. -/
def raw : ShapedValue → Json
  | ⟨_, raw, _⟩ => raw

/-- What a value is. -/
def content : ShapedValue → ShapedContent
  | ⟨_, _, content⟩ => content

/-- The shape of a value. -/
def kind (v : ShapedValue) : ValueKind :=
  v.content.kind

/-- Whether a value is null. -/
def isNull (v : ShapedValue) : Bool :=
  v.content.mayBeNull && v.raw.isNull

end ShapedValue

end DocumentQuery
