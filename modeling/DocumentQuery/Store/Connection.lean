import DocumentQuery.Store.Memory

/-!
# Connections to the store

A run talks to the store through a connection. The connection counts the attempted calls, and no call
is attempted once the run is cancelled.

A connection may be disturbed at one of its calls. The caller may cancel, either during a call that still
completes or during one that never does. The call may fail before it reaches the store. Both a call that
never completes and a call that fails may do so late: the run is left waiting for them, and nothing else
happens until all else has been done that can be done without an answer. Every other call is answered at
once.

That a call is late matters where several branches of a run are started together (`together`). A branch that
is left waiting does not keep the others from going on, so calls of theirs follow a call that never
completes. A branch that fails at once does: the others are given up.

Calls that are made together are answered in the order in which they are made. A store that keeps one answer
back while it gives later ones is described only as far as the answer never comes: that call is then left
waiting, and the calls that were started beside it go on.

## Main definitions

* `Connection` — the store as one run sees it
* `Connected` — a computation that makes calls
* `Connected.call` — one call
* `together` — two branches of a run
-/

namespace DocumentQuery

/-- What may happen at a call. -/
inductive Disturbance where
  /-- The caller cancels and the call completes. -/
  | cancel
  /-- The caller cancels and the call never completes. -/
  | stall
  /-- The call fails before it reaches the store. -/
  | fail (error : StoreError)
  /-- The call never completes, and the caller cancels when there is nothing else to be done. -/
  | hang
  /-- The call fails before it reaches the store, when there is nothing else to be done. -/
  | failLate (error : StoreError)
deriving DecidableEq, Inhabited

/-- The store as one run sees it: what is stored, how many calls were attempted, whether the caller has
cancelled, what may happen at one of the calls, and whether a call was left waiting. -/
structure Connection where
  store : Store
  /-- The calls attempted so far. -/
  attempts : Nat
  cancelled : Bool
  /-- The call that is disturbed, counted from one. -/
  disturbed : Option (Nat × Disturbance)
  /-- Whether a call was left waiting. -/
  waiting : Bool
deriving Inhabited

/-- The failure of a call that does not reach the store. -/
def Disturbance.failure? : Disturbance → Option Failure
  | .cancel => none
  | .stall | .hang => some .cancelled
  | .fail error | .failLate error => some (.store error)

/-- Whether a run is left waiting for a call. -/
def Disturbance.isLate : Disturbance → Bool
  | .hang | .failLate _ => true
  | .cancel | .stall | .fail _ => false

/-- Whether the caller cancels as soon as a call is made. -/
def Disturbance.cancels : Disturbance → Bool
  | .cancel | .stall => true
  | .fail _ | .hang | .failLate _ => false

namespace Connection

/-- A fresh connection that nothing disturbs. -/
def ofStore (store : Store) : Connection := ⟨store, 0, false, none, false⟩

/-- What happens at a call. -/
def disturbanceAt? (c : Connection) (attempt : Nat) : Option Disturbance :=
  match c.disturbed with
  | some (at_, disturbance) => if at_ = attempt then some disturbance else none
  | none => none

/-- The connection once a call is attempted at which something may happen. -/
def attempt (c : Connection) (disturbance : Option Disturbance) : Connection where
  store := c.store
  attempts := c.attempts + 1
  cancelled := c.cancelled || disturbance.any Disturbance.cancels
  disturbed := c.disturbed
  waiting := c.waiting || disturbance.any Disturbance.isLate

end Connection

/-! ## Branches -/

/-- States in which it is known whether a call was left waiting. -/
class Awaiting (σ : Type) where
  waiting : σ → Bool
  /-- Gives up what is left waiting. -/
  giveUp : σ → σ

instance : Awaiting Connection where
  waiting c := c.waiting
  giveUp c := { c with waiting := false }

/-- Two branches of a run. They are carried out one after the other, as long as every call is answered at
once, and the second one is not started after a failure of the first. If they are started together and the
first is left waiting, the second one goes on meanwhile. A failure of the second one ends both; otherwise
the first one fails in the end. -/
def together {σ α β : Type} [Awaiting σ] (parallel : Bool) (x : ExceptT Failure (StateM σ) α)
    (y : ExceptT Failure (StateM σ) β) : ExceptT Failure (StateM σ) (α × β) :=
  ExceptT.mk fun s =>
    match x.run s with
    | (.ok a, s') =>
      match y.run s' with
      | (.ok b, s'') => (.ok (a, b), s'')
      | (.error e, s'') => (.error e, s'')
    | (.error e, s') =>
      if parallel && !Awaiting.waiting s && Awaiting.waiting s' then
        match y.run s' with
        | (.ok _, s'') => (.error e, s'')
        | (.error e', s'') => (.error e', Awaiting.giveUp s'')
      else (.error e, s')

/-! ## Calls -/

/-- A computation that makes calls. What it has done to the connection stays when it fails. -/
abbrev Connected (α : Type) := ExceptT Failure (StateM Connection) α

namespace Connected

/-- Fails when the run is cancelled. -/
def checkCancelled : Connected Unit := do
  if (← get).cancelled then throw .cancelled

/-- Makes a call. It is not made once the token was fired, and it is counted when it is made, whether or not
the store comes to see it. -/
def call {α : Type} (request : Store.Call α) : Connected α := do
  checkCancelled
  let c ← get
  let disturbance := c.disturbanceAt? (c.attempts + 1)
  let c := c.attempt disturbance
  match disturbance.bind Disturbance.failure? with
  | some failure => do
    set c
    throw failure
  | none => do
    let (answer, store) := request c.store
    set { c with store := store }
    match answer with
    | .ok a => return a
    | .error error => throw (.store error)

/-- Asks for one document of a collection. -/
def getDocument (collection id : String) : Connected (Option Document) :=
  call (Store.getDocument collection id)

/-- Asks for the documents of a query. -/
def runQuery (q : StoreQuery) : Connected (List Document) :=
  call (Store.runQuery q)

/-- Asks for the documents of several queries. -/
def runQueries (parallel : Bool) : List StoreQuery → Connected (List (List Document))
  | [] => pure []
  | q :: queries => do
    let (documents, answers) ← together parallel (runQuery q) (runQueries parallel queries)
    return documents :: answers

/-- Asks for the document at a path. -/
def getByPath (path : String) : Connected (Option Document) :=
  call (Store.getByPath path)

/-- Asks for a reduction of the documents of a query. -/
def aggregate (q : StoreQuery) (reduction : StoreReduction) : Connected Json :=
  call (Store.aggregate q reduction)

end Connected

end DocumentQuery
