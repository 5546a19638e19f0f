import DocumentQuery.Json.Decode
import DocumentQuery.Store.Comparison
import DocumentQuery.Template.Document
import DocumentQuery.Text.Segments

/-!
# Queries of the store

A document lives at a path, whose last segment is its identity. The store answers queries over the
documents directly inside one collection: it filters them, orders them and cuts the list to its last
or first documents. A document that lacks a filtered field does not match, and one that lacks an
ordered field is left out.

## Main definitions

* `Document` — a stored value with its path
* `StoreFilter.accepts` — the documents a filter lets through
* `Document.order` — the ordering of documents, in which no two paths are equal
* `StoreQuery` — one query over one collection
-/

namespace DocumentQuery

/-- A stored document: the path it lives at and what is stored there. Nothing but the path says what it is a
document of. -/
structure Document where
  path : String
  data : Json
deriving Inhabited

namespace Json

/-- The value at the end of a list of member names. -/
def follow? : List String → Json → Option Json
  | [], j => some j
  | name :: rest, j => (j.member? name).bind (follow? rest)

/-- The value at a path of member names joined by points. -/
def at? (j : Json) (path : String) : Option Json :=
  j.follow? (Text.segments '.' path)

end Json

namespace Document

/-- The path of a document in a collection. -/
def pathOf (collection id : String) : String :=
  collection ++ "/" ++ id

/-- The identity of a document. -/
def id (d : Document) : String :=
  (Text.segments '/' d.path).getLastD ""

/-- The path of the collection that holds a document. -/
def collectionPath (d : Document) : String :=
  String.intercalate "/" (Text.segments '/' d.path).dropLast

/-- A stored field, or the identity, which is not stored. A path is cut at its points, so a field with a point
in its name is not found. -/
def field? (d : Document) (path : String) : Option Json :=
  if path = documentIdPath then some (.str d.id) else d.data.at? path

/-- Cuts the path of a document into the path of its collection and its identity. A document is always
inside a collection, so its path has an even number of segments. -/
def splitPath (path : String) : Option (String × String) :=
  let segments := Text.segments '/' path
  let collection := String.intercalate "/" segments.dropLast
  let id := segments.getLastD ""
  if segments.length % 2 = 0 ∧ collection ≠ "" ∧ id ≠ "" then some (collection, id) else none

/-- The exchange form of a document. -/
def toJson (d : Document) : Json :=
  Json.mkObj [("path", .str d.path), ("data", d.data)]

/-- Reads a document. -/
def decode : Decoder Document := fun j => do
  return ⟨← Decoder.field "path" Decoder.string j, ← Decoder.field "data" Decoder.any j⟩

end Document

/-- A filter of the store. -/
inductive StoreFilter where
  | compare (path : String) (operator : FilterOp) (value : Json)
  | and (members : List StoreFilter)
  | or (members : List StoreFilter)
deriving Inhabited

namespace StoreFilter

mutual

/-- Whether a filter contains a disjunction. -/
def hasOr : StoreFilter → Bool
  | .compare _ _ _ => false
  | .and members => anyHasOr members
  | .or _ => true

/-- Whether one of the filters contains a disjunction. -/
def anyHasOr : List StoreFilter → Bool
  | [] => false
  | f :: fs => hasOr f || anyHasOr fs

end

mutual

/-- Whether a filter lets a document through. -/
def accepts (d : Document) : StoreFilter → Bool
  | .compare path operator value =>
    match d.field? path with
    | some actual => operator.holds actual value
    | none => false
  | .and members => allAccept d members
  | .or members => anyAccepts d members

/-- Whether all filters let a document through. -/
def allAccept (d : Document) : List StoreFilter → Bool
  | [] => true
  | f :: fs => accepts d f && allAccept d fs

/-- Whether one of the filters lets a document through. -/
def anyAccepts (d : Document) : List StoreFilter → Bool
  | [] => false
  | f :: fs => accepts d f || anyAccepts d fs

end

mutual

/-- The exchange form of a filter. -/
def toJson : StoreFilter → Json
  | .compare path operator value =>
    Json.alternative "field"
      (Json.mkObj [("path", .str path), ("op", operator.toJson), ("value", value)])
  | .and members => Json.alternative "and" (.arr (toJsonAll members))
  | .or members => Json.alternative "or" (.arr (toJsonAll members))

/-- The exchange forms of filters. -/
def toJsonAll : List StoreFilter → List Json
  | [] => []
  | f :: fs => toJson f :: toJsonAll fs

end

/-- Reads a filter nested at most `fuel` deep. -/
def decodeWithin : Nat → Decoder StoreFilter
  | 0 => fun _ => none
  | fuel + 1 => fun j => do
    match ← Decoder.choice j with
    | ("field", some parts) =>
      return .compare (← Decoder.field "path" Decoder.string parts)
        (← Decoder.field "op" FilterOp.decode parts) (← Decoder.field "value" Decoder.any parts)
    | ("and", some members) => return .and (← Decoder.list (decodeWithin fuel) members)
    | ("or", some members) => return .or (← Decoder.list (decodeWithin fuel) members)
    | _ => none

/-- Reads a filter. -/
def decode : Decoder StoreFilter := fun j =>
  decodeWithin j.depth j

end StoreFilter

/-- A field that orders the documents of a query. -/
structure StoreOrder where
  path : String
  direction : Direction
deriving DecidableEq, Inhabited

namespace StoreOrder

/-- The order of a sort key. -/
def ofKey (key : SortKey) : StoreOrder :=
  ⟨key.field.path, key.direction⟩

/-- The ordering of two documents by one field; a missing field counts as null. -/
def order (o : StoreOrder) (a b : Document) : Ordering :=
  let left := (a.field? o.path).getD .null
  let right := (b.field? o.path).getD .null
  match o.direction with
  | .ascending => left.order right
  | .descending => right.order left

/-- The exchange form of an order. -/
def toJson (o : StoreOrder) : Json :=
  Json.mkObj [("path", .str o.path), ("direction", o.direction.toJson)]

/-- Reads an order. -/
def decode : Decoder StoreOrder := fun j => do
  return ⟨← Decoder.field "path" Decoder.string j, ← Decoder.field "direction" Direction.decode j⟩

end StoreOrder

namespace Document

/-- Whether a document has every ordered field. -/
def hasOrderFields (d : Document) (orderBy : List StoreOrder) : Bool :=
  orderBy.all fun o => (d.field? o.path).isSome

/-- The ordering of two documents by fields. -/
def orderByFields (a b : Document) : List StoreOrder → Ordering
  | [] => .eq
  | o :: os => (o.order a b).then (orderByFields a b os)

/-- The ordering of two documents by their paths, in the direction of the last ordered field. -/
def orderByPath (orderBy : List StoreOrder) (a b : Document) : Ordering :=
  match orderBy.getLast? with
  | some ⟨_, .descending⟩ => compare b.path a.path
  | _ => compare a.path b.path

/-- The ordering of two documents: by the fields, then by the paths. The paths decide in the direction of the
last field, so turning all directions around turns the order around. -/
def order (orderBy : List StoreOrder) (a b : Document) : Ordering :=
  (orderByFields a b orderBy).then (orderByPath orderBy a b)

/-- Whether a document does not come after another. -/
def notAfter (orderBy : List StoreOrder) (a b : Document) : Bool :=
  order orderBy a b != .gt

/-- Orders documents. -/
def sort (orderBy : List StoreOrder) (documents : List Document) : List Document :=
  documents.mergeSort (notAfter orderBy)

/-- The last `n` documents. -/
def takeLast (n : Nat) (documents : List Document) : List Document :=
  documents.drop (documents.length - n)

end Document

/-- One query over the documents of one collection: which documents it is for, in which order, and whether it
is cut to the first or the last ones. -/
structure StoreQuery where
  collectionPath : String
  filter : Option StoreFilter
  orderBy : List StoreOrder
  limit : Option Nat
  /-- Only the last documents, in the order of the query. -/
  limitToLast : Option Nat
deriving Inhabited

namespace StoreQuery

/-- The query for all documents of a collection. -/
def collection (collectionPath : String) : StoreQuery :=
  ⟨collectionPath, none, [], none, none⟩

/-- Whether the query is for a document: it matches and has the ordered fields. -/
def admits (q : StoreQuery) (d : Document) : Bool :=
  q.filter.all (·.accepts d) && d.hasOrderFields q.orderBy

/-- Cuts an ordered list to the documents the query asks for. -/
def cut (q : StoreQuery) (documents : List Document) : List Document :=
  let tail := match q.limitToLast with
    | some n => Document.takeLast n documents
    | none => documents
  match q.limit with
  | some n => tail.take n
  | none => tail

/-- The exchange form of a query; what is not asked for is left out. -/
def toJson (q : StoreQuery) : Json :=
  Json.mkObj <|
    [("collection_path", .str q.collectionPath)]
    ++ Json.given "filter" StoreFilter.toJson q.filter
    ++ (if q.orderBy.isEmpty then [] else [("order_by", Json.ofList StoreOrder.toJson q.orderBy)])
    ++ Json.given "limit" Json.count q.limit
    ++ Json.given "limit_to_last" Json.count q.limitToLast

/-- Reads a query. -/
def decode : Decoder StoreQuery := fun j => do
  return {
    collectionPath := ← Decoder.field "collection_path" Decoder.string j
    filter := ← Decoder.optional "filter" StoreFilter.decode j
    orderBy := ← Decoder.fieldOr "order_by" [] (Decoder.list StoreOrder.decode) j
    limit := ← Decoder.optional "limit" Decoder.count j
    limitToLast := ← Decoder.optional "limit_to_last" Decoder.count j }

end StoreQuery

/-- A reduction that the store performs. -/
inductive StoreReduction where
  | count
  | sum (path : String)
  | average (path : String)
deriving DecidableEq, Inhabited

namespace StoreReduction

/-- The exchange form of a reduction. -/
def toJson : StoreReduction → Json
  | .count => .str "count"
  | .sum path => Json.alternative "sum" (.str path)
  | .average path => Json.alternative "average" (.str path)

/-- Reads a reduction. -/
def decode : Decoder StoreReduction := fun j => do
  match ← Decoder.choice j with
  | ("count", carried) => (Decoder.nothing carried).map fun _ => .count
  | ("sum", carried) => return .sum (← Decoder.content Decoder.string carried)
  | ("average", carried) => return .average (← Decoder.content Decoder.string carried)
  | _ => none

end StoreReduction

end DocumentQuery
