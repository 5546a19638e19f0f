import DocumentQuery.Error.Failure
import DocumentQuery.Store.Query
import DocumentQuery.Store.Sum

/-!
# The document store

A store holds documents in collections and answers four kinds of calls. It counts the calls and keeps
the queries it was sent, so that a run can be judged by what it asked for.

A store may lack disjunction; it then rejects every query that contains one.

## Main definitions

* `Store` — the collections and the record of calls
* `Store.evaluate` — the documents a query asks for
* `Store.getDocument`, `Store.runQuery`, `Store.getByPath`, `Store.aggregate` — the calls
-/

namespace DocumentQuery

/-- How often each kind of call was made. -/
structure CallCounts where
  getDocument : Nat
  runQuery : Nat
  getByPath : Nat
  aggregate : Nat
deriving DecidableEq, Inhabited

namespace CallCounts

/-- No call at all. -/
def zero : CallCounts := ⟨0, 0, 0, 0⟩

/-- The number of calls of every kind. -/
def total (c : CallCounts) : Nat :=
  c.getDocument + c.runQuery + c.getByPath + c.aggregate

end CallCounts

/-- Documents in collections, with a record of the calls made. A collection is a table, so its documents are
in the order of their identities. -/
structure Store where
  collections : Table (Table Json)
  /-- Whether queries may contain disjunctions. -/
  nativeOr : Bool
  calls : CallCounts
  /-- The queries sent so far, the oldest first. -/
  queries : List StoreQuery
deriving Inhabited

namespace Store

/-- The store without documents. -/
def empty (nativeOr : Bool) : Store := ⟨[], nativeOr, .zero, []⟩

/-- Puts a document into a collection, replacing the one with the same identity. -/
def insert (s : Store) (collection id : String) (document : Json) : Store :=
  let documents := (s.collections.lookup collection).getD []
  { s with collections := s.collections.insert collection (documents.insert id document) }

/-- Puts documents into a collection. -/
def insertAll (s : Store) (collection : String) (documents : Table Json) : Store :=
  documents.foldl (fun s (id, document) => s.insert collection id document) s

/-- Loads fixtures and returns how many documents were loaded. Collections before a faulty one stay
loaded. -/
def loadCollections (s : Store) (loaded : Nat) : Table Json → Except ConfigFault Nat × Store
  | [] => (.ok loaded, s)
  | (collection, content) :: rest =>
    match content.toObject? with
    | some documents =>
      loadCollections (s.insertAll collection documents) (loaded + documents.length) rest
    | none => (.error (.fixtureCollection collection), s)

/-- Loads fixtures: an object of collections, each an object of documents. -/
def load (s : Store) (fixtures : Json) : Except ConfigFault Nat × Store :=
  match fixtures.toObject? with
  | some collections => s.loadCollections 0 collections
  | none => (.error .fixtures, s)

/-- Forgets the calls made. -/
def resetCalls (s : Store) : Store :=
  { s with calls := .zero, queries := [] }

/-- The documents of a collection in the order of their identities. -/
def documents (s : Store) (collection : String) : List Document :=
  ((s.collections.lookup collection).getD []).map fun (id, data) =>
    ⟨Document.pathOf collection id, data⟩

/-- The document of an identity. -/
def find? (s : Store) (collection id : String) : Option Document := do
  let documents ← s.collections.lookup collection
  let data ← documents.lookup id
  return ⟨Document.pathOf collection id, data⟩

/-- Why the store rejects a query, if it does: a disjunction where it knows none, or last documents without an
ordering of which they would be the last. -/
def rejection? (s : Store) (q : StoreQuery) : Option Rejection :=
  if !s.nativeOr && q.filter.any StoreFilter.hasOr then some .disjunction
  else if q.limitToLast.isSome && q.orderBy.isEmpty then some .unorderedTail
  else none

/-- The documents a query asks for. -/
def answer (s : Store) (q : StoreQuery) : List Document :=
  q.cut (Document.sort q.orderBy ((s.documents q.collectionPath).filter q.admits))

/-- The documents a query asks for, unless the query is rejected. -/
def evaluate (s : Store) (q : StoreQuery) : Except StoreError (List Document) :=
  match s.rejection? q with
  | some reason => .error (.rejected reason)
  | none => .ok (s.answer q)

/-- The numbers that documents hold in a field. -/
def numbers (path : String) (documents : List Document) : List Number :=
  documents.filterMap fun d => (d.field? path).bind Json.toNumber?

/-- The reduction of documents to one value. The documents are those that the query would have sent, cut
included, and what is no number is passed over by sums and averages. -/
def reduce (documents : List Document) : StoreReduction → Json
  | .count => .count documents.length
  | .sum path => Number.sum (numbers path documents)
  | .average path => (Number.average? (numbers path documents)).getD .null

/-! ## Calls -/

/-- A call: it may fail, and it leaves a trace in the store either way. -/
abbrev Call (α : Type) := Store → Except StoreError α × Store

/-- Asks for one document of a collection. -/
def getDocument (collection id : String) : Call (Option Document) := fun s =>
  (.ok (s.find? collection id),
    { s with calls := { s.calls with getDocument := s.calls.getDocument + 1 } })

/-- Asks for the documents of a query. -/
def runQuery (q : StoreQuery) : Call (List Document) := fun s =>
  (s.evaluate q,
    { s with
      calls := { s.calls with runQuery := s.calls.runQuery + 1 }, queries := s.queries ++ [q] })

/-- Asks for the document at a path. -/
def getByPath (path : String) : Call (Option Document) := fun s =>
  (match Document.splitPath path with
    | some (collection, id) => .ok (s.find? collection id)
    | none => .error (.invalidPath path),
    { s with calls := { s.calls with getByPath := s.calls.getByPath + 1 } })

/-- Asks for a reduction of the documents of a query. -/
def aggregate (q : StoreQuery) (reduction : StoreReduction) : Call Json := fun s =>
  ((s.evaluate q).map fun documents => reduce documents reduction,
    { s with
      calls := { s.calls with aggregate := s.calls.aggregate + 1 }, queries := s.queries ++ [q] })

/-- The text that shows the sizes of the collections. -/
def inspect (s : Store) : String :=
  let sizes := s.collections.map fun (name, documents) =>
    Text.quoted name ++ ": " ++ (Json.count documents.length).inspect
  "InMemoryStore \x7b collections: \x7b" ++ String.intercalate ", " sizes ++ "\x7d, native_or: "
    ++ (if s.nativeOr then "true" else "false") ++ " \x7d"

end Store

end DocumentQuery
