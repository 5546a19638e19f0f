import DocumentQuery.Text.Quoted

/-!
# Declared types

Every property of a stored type declares what kind of value it holds: a scalar, an embedded object,
another entity, or a collection of one of these. The declared type alone, and never the stored value,
decides how a value is shaped (`DeclaredType.valueKind`).

`inspect` is the form in which a declared type appears in messages.
-/

namespace DocumentQuery

/-- The type of a scalar. -/
inductive ScalarType where
  | bool
  | int
  | float
  | string
  | timestamp
  /-- One of a closed set of names. -/
  | enum (name : String)
deriving DecidableEq, Inhabited

/-- How a collection of values behaves. -/
inductive CollectionKind where
  /-- Grows and keeps duplicates. -/
  | list
  /-- Of fixed length. -/
  | sequence
  /-- In order of first insertion, without duplicates. -/
  | set
deriving DecidableEq, Inhabited

/-- The declared type of a property, parameter or projected member. Collections of collections can be
declared, but values of such a type are refused when they are shaped. -/
inductive DeclaredType where
  | scalar (type : ScalarType)
  /-- An object stored inside the owning document. -/
  | complex (name : String)
  /-- Another entity. -/
  | entity (name : String)
  | collection (kind : CollectionKind) (element : DeclaredType)
deriving DecidableEq, Inhabited

/-- How a value of a declared type is shaped. -/
inductive ValueKind where
  | scalar
  | complexType
  | entityReference
  | scalarList
  | objectList
deriving DecidableEq, Inhabited

/-- The form of a scalar type in messages. -/
def ScalarType.inspect : ScalarType → String
  | .bool => "Bool"
  | .int => "Int"
  | .float => "Float"
  | .string => "String"
  | .timestamp => "Timestamp"
  | .enum name => "Enum(" ++ Text.quoted name ++ ")"

/-- The form of a collection kind in messages. -/
def CollectionKind.inspect : CollectionKind → String
  | .list => "List"
  | .sequence => "Sequence"
  | .set => "Set"

/-- The name of a shape. -/
def ValueKind.name : ValueKind → String
  | .scalar => "Scalar"
  | .complexType => "ComplexType"
  | .entityReference => "EntityReference"
  | .scalarList => "ScalarList"
  | .objectList => "ObjectList"

namespace DeclaredType

/-- The form of a declared type in messages. -/
def inspect : DeclaredType → String
  | .scalar type => "Scalar(" ++ type.inspect ++ ")"
  | .complex name => "Complex(" ++ Text.quoted name ++ ")"
  | .entity name => "Entity(" ++ Text.quoted name ++ ")"
  | .collection kind element =>
    "Collection \x7b kind: " ++ kind.inspect ++ ", element: " ++ element.inspect ++ " \x7d"

/-- How values of the type are shaped. -/
def valueKind : DeclaredType → ValueKind
  | .scalar _ => .scalar
  | .complex _ => .complexType
  | .entity _ => .entityReference
  | .collection _ (.scalar _) => .scalarList
  | .collection _ _ => .objectList

/-- Whether the type is a collection. -/
def isCollection : DeclaredType → Bool
  | .collection _ _ => true
  | _ => false

/-- The scalar type of a scalar. -/
def scalar? : DeclaredType → Option ScalarType
  | .scalar type => some type
  | _ => none

/-- The enum of a scalar, or of the innermost elements of a collection. -/
def enumName? : DeclaredType → Option String
  | .scalar (.enum name) => some name
  | .collection _ element => element.enumName?
  | _ => none

/-- Whether values of the type can be added up. -/
def isNumeric (type : DeclaredType) : Bool :=
  type = .scalar .int || type = .scalar .float

end DeclaredType

end DocumentQuery
