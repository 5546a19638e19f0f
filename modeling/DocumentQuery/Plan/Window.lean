import DocumentQuery.Json.Value
import DocumentQuery.Store.Query
import DocumentQuery.Template.Basic

/-!
# Windows

A window is the part of an ordered list of documents that a query keeps. The store can cut a list to
its first or last documents but cannot skip any, so it is asked for the skipped documents too and the
window is applied once more to what it answers.

## Main definitions

* `Window` — what to keep of a list
* `Window.apply` — the part that is kept
* `Window.serverLimit` — how many documents the store has to send
* `Window.narrow` — the window that leaves enough for one element
-/

namespace DocumentQuery

/-- The largest count when a count does not fit 64 bits. -/
def saturate (n : Nat) : Nat :=
  min n Number.maxCount

/-- The part of an ordered list that a query keeps: of its last documents, if only these are asked for, those
behind the skipped ones, up to a limit. -/
structure Window where
  skip : Nat
  limit : Option Nat
  limitToLast : Option Nat
  /-- Whether only the last document of the part is kept. -/
  lastOnly : Bool
deriving DecidableEq, Inhabited

namespace Window

/-- The window of optional counts. -/
def ofCounts (skip limit limitToLast : Option Nat) : Window :=
  ⟨skip.getD 0, limit, limitToLast, false⟩

/-- Whether a window keeps every list as it is. -/
def isUnbounded (w : Window) : Bool :=
  w.skip == 0 && w.limit.isNone && w.limitToLast.isNone && !w.lastOnly

/-- How many documents the store has to send: those kept and those skipped, or the largest count if there are
more. A window without a limit has no number of documents to ask for. -/
def serverLimit (w : Window) : Option Nat :=
  w.limit.map fun limit => saturate (limit + w.skip)

/-- Keeps at most `n` documents. -/
def limitedTo (w : Window) (n : Nat) : Window :=
  { w with limit := some ((w.limit.map (min · n)).getD n) }

/-- The window that leaves enough for the elements asked for: one for the first, two for a single one,
so that a second one is noticed. -/
def narrow (w : Window) : Cardinality → Window
  | .sequence => w
  | .first _ => w.limitedTo 1
  | .single _ => w.limitedTo 2
  | .last _ =>
    if w.limit.isNone && w.skip == 0 then
      { w with limitToLast := some ((w.limitToLast.map (min · 1)).getD 1) }
    else { w with lastOnly := true }

/-- The last documents, when only they are kept. -/
def applyTail : Option Nat → List Document → List Document
  | some n, documents => Document.takeLast n documents
  | none, documents => documents

/-- The first documents, when only they are kept. -/
def applyLimit : Option Nat → List Document → List Document
  | some n, documents => documents.take n
  | none, documents => documents

/-- The part of a list that a window keeps. -/
def apply (w : Window) (documents : List Document) : List Document :=
  let page := applyLimit w.limit ((applyTail w.limitToLast documents).drop w.skip)
  if w.lastOnly then Document.takeLast 1 page else page

end Window

end DocumentQuery
