import DocumentQuery.Schema.Types
import DocumentQuery.Table

/-!
# Models

A model describes the stored types a query may touch. An entity type has a root collection and a key
property; the key of a stored entity is the identity of its document. A complex type is stored inside
the documents of its owners. Navigations lead to other entities, which either live in a collection
nested under the owning document or are named by document paths in one of its fields.
-/

namespace DocumentQuery

/-- One property of a type: its name in queries and results, the field it is stored in, what it holds, and
what may be done with it. -/
structure Property where
  name : String
  /-- The field in the stored document, when it is not the property's own name. -/
  storedAs : Option String
  declared : DeclaredType
  nullable : Bool
  /-- Whether null is written to documents instead of being left out. -/
  persistsNull : Bool
  ignored : Bool
  settable : Bool
deriving DecidableEq, Inhabited

namespace Property

/-- A property stored under its own name. -/
def named (name : String) (declared : DeclaredType) : Property :=
  ⟨name, none, declared, false, false, false, true⟩

/-- Stores the property in another field. -/
def inField (p : Property) (field : String) : Property :=
  { p with storedAs := some field }

/-- Lets the property be null. -/
def asNullable (p : Property) : Property :=
  { p with nullable := true }

/-- Lets the property be null and writes null to documents. -/
def persistingNull (p : Property) : Property :=
  { p with nullable := true, persistsNull := true }

/-- Leaves the property out of documents. -/
def asIgnored (p : Property) : Property :=
  { p with ignored := true }

/-- Makes the property settable by constructors alone. -/
def readOnly (p : Property) : Property :=
  { p with settable := false }

/-- The field in the stored document. -/
def storedName (p : Property) : String :=
  p.storedAs.getD p.name

end Property

/-- How many targets a navigation has. -/
inductive Multiplicity where
  | singular
  | collection (kind : CollectionKind)
deriving DecidableEq, Inhabited

/-- Where the targets of a navigation are stored. -/
inductive NavigationStorage where
  /-- In a collection nested under the owning document. -/
  | childCollection (subcollection : String)
  /-- Elsewhere; a field of the owning document holds their paths. -/
  | reference (field : String)
deriving DecidableEq, Inhabited

/-- A navigation to other entities. Its targets are not part of the document, and a query has to ask for them
to have them loaded. -/
structure Navigation where
  name : String
  target : String
  multiplicity : Multiplicity
  storage : NavigationStorage
deriving DecidableEq, Inhabited

namespace Navigation

/-- A navigation to a nested collection. -/
def childCollection (name target : String) (kind : CollectionKind) (subcollection : String) :
    Navigation :=
  ⟨name, target, .collection kind, .childCollection subcollection⟩

/-- A navigation to one document named by its path. -/
def reference (name target field : String) : Navigation :=
  ⟨name, target, .singular, .reference field⟩

/-- A navigation to documents named by their paths. -/
def referenceList (name target : String) (kind : CollectionKind) (field : String) : Navigation :=
  ⟨name, target, .collection kind, .reference field⟩

/-- Whether the navigation has one target. -/
def isSingular (n : Navigation) : Bool :=
  n.multiplicity = .singular

end Navigation

/-- A parameter of a constructor. -/
structure ParameterDecl where
  name : String
  declared : DeclaredType
deriving DecidableEq, Inhabited

/-- A constructor that may create instances of a type. -/
structure ConstructorDecl where
  name : String
  parameters : List ParameterDecl
deriving DecidableEq, Inhabited

/-- Whether a type is queried on its own or embedded. -/
inductive TypeKind where
  | entity (collection key : String)
  | complex
deriving DecidableEq, Inhabited

/-- A stored type. A type without constructors is created without arguments. -/
structure TypeDecl where
  name : String
  kind : TypeKind
  properties : List Property
  navigations : List Navigation
  constructors : List ConstructorDecl
deriving DecidableEq, Inhabited

namespace TypeDecl

/-- Whether the type is an entity. -/
def isEntity (t : TypeDecl) : Bool :=
  match t.kind with
  | .entity _ _ => true
  | .complex => false

/-- The root collection of an entity. -/
def collection? (t : TypeDecl) : Option String :=
  match t.kind with
  | .entity collection _ => some collection
  | .complex => none

/-- The key property of an entity. -/
def key? (t : TypeDecl) : Option String :=
  match t.kind with
  | .entity _ key => some key
  | .complex => none

/-- Whether a property is the key. -/
def isKey (t : TypeDecl) (property : String) : Bool :=
  t.key? = some property

/-- The property of a name. -/
def property? (t : TypeDecl) (name : String) : Option Property :=
  t.properties.find? (·.name == name)

/-- The navigation of a name. -/
def navigation? (t : TypeDecl) (name : String) : Option Navigation :=
  t.navigations.find? (·.name == name)

/-- The properties held in documents. -/
def persisted (t : TypeDecl) : List Property :=
  t.properties.filter (!·.ignored)

end TypeDecl

/-- A variant of an enum and the number that may stand for it. -/
structure EnumVariant where
  name : String
  value : Int
deriving DecidableEq, Inhabited

/-- A closed set of names. -/
structure EnumDecl where
  name : String
  variants : List EnumVariant
deriving DecidableEq, Inhabited

namespace EnumDecl

/-- An enum whose variants are numbered from zero. -/
def ofNames (name : String) (variants : List String) : EnumDecl :=
  ⟨name, variants.zipIdx.map fun (v, i) => ⟨v, i⟩⟩

/-- The first variant with a number. -/
def nameOf? (e : EnumDecl) (value : Int) : Option String :=
  (e.variants.find? (·.value == value)).map (·.name)

/-- The number of the first variant with a name. -/
def valueOf? (e : EnumDecl) (name : String) : Option Int :=
  (e.variants.find? (·.name == name)).map (·.value)

end EnumDecl

/-- The stored types and enums, each under the name it is looked up by. A model is given and not checked: a
type may be missing that another one refers to, and a name in the table may differ from the one that is
declared. -/
structure Model where
  types : Table TypeDecl
  enums : Table EnumDecl
deriving DecidableEq, Inhabited

namespace Model

/-- The model without any type. -/
def empty : Model := ⟨[], []⟩

/-- Adds a type under its own name. -/
def withType (m : Model) (t : TypeDecl) : Model :=
  { m with types := m.types.insert t.name t }

/-- Adds an enum under its own name. -/
def withEnum (m : Model) (e : EnumDecl) : Model :=
  { m with enums := m.enums.insert e.name e }

/-- The type of a name. -/
def type? (m : Model) (name : String) : Option TypeDecl :=
  m.types.lookup name

/-- The enum of a name. -/
def enum? (m : Model) (name : String) : Option EnumDecl :=
  m.enums.lookup name

end Model

end DocumentQuery
