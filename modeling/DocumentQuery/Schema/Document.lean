import DocumentQuery.Json.Decode
import DocumentQuery.Schema.Model

/-!
# Models as documents

The exchange form of models: `toJson` writes every member that has a value, and the decoders fill in
the defaults of members that are left out.
-/

namespace DocumentQuery

namespace ScalarType

/-- The exchange form of a scalar type. -/
def toJson : ScalarType → Json
  | .bool => .str "bool"
  | .int => .str "int"
  | .float => .str "float"
  | .string => .str "string"
  | .timestamp => .str "timestamp"
  | .enum name => Json.alternative "enum" (.str name)

/-- Reads a scalar type. -/
def decode : Decoder ScalarType := fun j => do
  match ← Decoder.choice j with
  | ("enum", carried) => return .enum (← Decoder.content Decoder.string carried)
  | (name, carried) =>
    Decoder.nothing carried
    [("bool", .bool), ("int", .int), ("float", .float), ("string", .string),
      ("timestamp", .timestamp)].lookup name

end ScalarType

namespace CollectionKind

/-- The name of a collection kind in documents. -/
def name : CollectionKind → String
  | .list => "list"
  | .sequence => "sequence"
  | .set => "set"

/-- The exchange form of a collection kind. -/
def toJson (k : CollectionKind) : Json := .str k.name

/-- Reads a collection kind. -/
def decode : Decoder CollectionKind :=
  Decoder.tag [("list", .list), ("sequence", .sequence), ("set", .set)]

end CollectionKind

namespace DeclaredType

/-- The exchange form of a declared type. -/
def toJson : DeclaredType → Json
  | .scalar type => Json.alternative "scalar" type.toJson
  | .complex name => Json.alternative "complex" (.str name)
  | .entity name => Json.alternative "entity" (.str name)
  | .collection kind element =>
    Json.alternative "collection" (Json.mkObj [("kind", kind.toJson), ("element", element.toJson)])

/-- Reads a declared type nested at most `fuel` deep. -/
def decodeWithin : Nat → Decoder DeclaredType
  | 0 => fun _ => none
  | fuel + 1 => fun j => do
    match ← Decoder.choice j with
    | ("scalar", carried) => return .scalar (← Decoder.content ScalarType.decode carried)
    | ("complex", carried) => return .complex (← Decoder.content Decoder.string carried)
    | ("entity", carried) => return .entity (← Decoder.content Decoder.string carried)
    | ("collection", some members) =>
      let kind ← Decoder.fieldOr "kind" .list CollectionKind.decode members
      let element ← Decoder.field "element" (decodeWithin fuel) members
      return .collection kind element
    | _ => none

/-- Reads a declared type. -/
def decode : Decoder DeclaredType := fun j =>
  decodeWithin j.depth j

end DeclaredType

/-- The exchange form of a shape. -/
def ValueKind.toJson (k : ValueKind) : Json := .str k.name

namespace Property

/-- The exchange form of a property. -/
def toJson (p : Property) : Json :=
  Json.mkObj <|
    [("name", .str p.name), ("declared", p.declared.toJson), ("nullable", .bool p.nullable),
      ("persist_null", .bool p.persistsNull), ("ignored", .bool p.ignored),
      ("settable", .bool p.settable)]
    ++ Json.given "stored_name" Json.str p.storedAs

/-- Reads a property. -/
def decode : Decoder Property := fun j => do
  return {
    name := ← Decoder.field "name" Decoder.string j
    storedAs := ← Decoder.optional "stored_name" Decoder.string j
    declared := ← Decoder.field "declared" DeclaredType.decode j
    nullable := ← Decoder.fieldOr "nullable" false Decoder.bool j
    persistsNull := ← Decoder.fieldOr "persist_null" false Decoder.bool j
    ignored := ← Decoder.fieldOr "ignored" false Decoder.bool j
    settable := ← Decoder.fieldOr "settable" true Decoder.bool j }

end Property

namespace Multiplicity

/-- The exchange form of a multiplicity. -/
def toJson : Multiplicity → Json
  | .singular => .str "singular"
  | .collection kind => Json.alternative "collection" kind.toJson

/-- Reads a multiplicity. -/
def decode : Decoder Multiplicity := fun j => do
  match ← Decoder.choice j with
  | ("singular", carried) => (Decoder.nothing carried).map fun _ => .singular
  | ("collection", carried) => return .collection (← Decoder.content CollectionKind.decode carried)
  | _ => none

end Multiplicity

namespace NavigationStorage

/-- The exchange form of where targets are stored. -/
def toJson : NavigationStorage → Json
  | .childCollection subcollection =>
    Json.alternative "child_collection" (Json.mkObj [("subcollection", .str subcollection)])
  | .reference field => Json.alternative "reference" (Json.mkObj [("field", .str field)])

/-- Reads where targets are stored. -/
def decode : Decoder NavigationStorage := fun j => do
  match ← Decoder.choice j with
  | ("child_collection", some members) =>
    return .childCollection (← Decoder.field "subcollection" Decoder.string members)
  | ("reference", some members) => return .reference (← Decoder.field "field" Decoder.string members)
  | _ => none

end NavigationStorage

namespace Navigation

/-- The exchange form of a navigation. -/
def toJson (n : Navigation) : Json :=
  Json.mkObj [("name", .str n.name), ("target", .str n.target),
    ("multiplicity", n.multiplicity.toJson), ("storage", n.storage.toJson)]

/-- Reads a navigation. -/
def decode : Decoder Navigation := fun j => do
  return {
    name := ← Decoder.field "name" Decoder.string j
    target := ← Decoder.field "target" Decoder.string j
    multiplicity := ← Decoder.field "multiplicity" Multiplicity.decode j
    storage := ← Decoder.field "storage" NavigationStorage.decode j }

end Navigation

namespace ParameterDecl

/-- The exchange form of a parameter. -/
def toJson (p : ParameterDecl) : Json :=
  Json.mkObj [("name", .str p.name), ("declared", p.declared.toJson)]

/-- Reads a parameter. -/
def decode : Decoder ParameterDecl := fun j => do
  return {
    name := ← Decoder.field "name" Decoder.string j
    declared := ← Decoder.field "declared" DeclaredType.decode j }

end ParameterDecl

namespace ConstructorDecl

/-- The exchange form of a constructor. -/
def toJson (c : ConstructorDecl) : Json :=
  Json.mkObj [("name", .str c.name), ("parameters", Json.ofList ParameterDecl.toJson c.parameters)]

/-- Reads a constructor. -/
def decode : Decoder ConstructorDecl := fun j => do
  return {
    name := ← Decoder.fieldOr "name" "" Decoder.string j
    parameters := ← Decoder.fieldOr "parameters" [] (Decoder.list ParameterDecl.decode) j }

end ConstructorDecl

namespace TypeKind

/-- The exchange form of a type's kind. -/
def toJson : TypeKind → Json
  | .entity collection key =>
    Json.alternative "entity" (Json.mkObj [("collection", .str collection), ("key", .str key)])
  | .complex => .str "complex"

/-- Reads a type's kind. -/
def decode : Decoder TypeKind := fun j => do
  match ← Decoder.choice j with
  | ("entity", some members) =>
    return .entity (← Decoder.field "collection" Decoder.string members)
      (← Decoder.field "key" Decoder.string members)
  | ("complex", carried) => (Decoder.nothing carried).map fun _ => .complex
  | _ => none

end TypeKind

namespace TypeDecl

/-- The exchange form of a type. -/
def toJson (t : TypeDecl) : Json :=
  Json.mkObj [("name", .str t.name), ("kind", t.kind.toJson),
    ("properties", Json.ofList Property.toJson t.properties),
    ("navigations", Json.ofList Navigation.toJson t.navigations),
    ("constructors", Json.ofList ConstructorDecl.toJson t.constructors)]

/-- Reads a type. -/
def decode : Decoder TypeDecl := fun j => do
  return {
    name := ← Decoder.field "name" Decoder.string j
    kind := ← Decoder.field "kind" TypeKind.decode j
    properties := ← Decoder.fieldOr "properties" [] (Decoder.list Property.decode) j
    navigations := ← Decoder.fieldOr "navigations" [] (Decoder.list Navigation.decode) j
    constructors := ← Decoder.fieldOr "constructors" [] (Decoder.list ConstructorDecl.decode) j }

end TypeDecl

namespace EnumDecl

/-- The exchange form of an enum. -/
def toJson (e : EnumDecl) : Json :=
  Json.mkObj [("name", .str e.name),
    ("variants", Json.ofList
      (fun v : EnumVariant => Json.mkObj [("name", .str v.name), ("value", Json.int v.value)])
      e.variants)]

/-- Reads a variant. -/
def decodeVariant : Decoder EnumVariant := fun j => do
  return {
    name := ← Decoder.field "name" Decoder.string j
    value := ← Decoder.field "value" Decoder.signed j }

/-- Reads an enum. -/
def decode : Decoder EnumDecl := fun j => do
  return {
    name := ← Decoder.field "name" Decoder.string j
    variants := ← Decoder.field "variants" (Decoder.list decodeVariant) j }

end EnumDecl

namespace Model

/-- The exchange form of a model. -/
def toJson (m : Model) : Json :=
  Json.mkObj [("types", .obj (m.types.map fun (name, t) => (name, t.toJson))),
    ("enums", .obj (m.enums.map fun (name, e) => (name, e.toJson)))]

/-- Reads a model. -/
def decode : Decoder Model := fun j => do
  return {
    types := ← Decoder.fieldOr "types" [] (Decoder.table TypeDecl.decode) j
    enums := ← Decoder.fieldOr "enums" [] (Decoder.table EnumDecl.decode) j }

end Model

end DocumentQuery
