import DocumentQuery.Instance.Plan

/-!
# The cache of plans

Plans are kept for the next time the same members of the same type are met. The cache holds a bounded
number of plans and gives up the one that was not used for the longest time when it needs room.

The plans are listed in the order of their last use, the latest first, so that the one to give up is
always the last.

## Main definitions

* `PlanCache` — the plans and the statistics of their use
* `PlanCache.planFor` — the plan for members of a type, from the cache if it is there
-/

namespace DocumentQuery

/-- Plans in the order of their last use, with statistics. The statistics count requests and plans that were
given up, and clearing the cache does not reset them. -/
structure PlanCache where
  /-- The plans under their keys, the latest used first. -/
  entries : List (String × InstancePlan)
  /-- How many plans are kept. -/
  capacity : Nat
  hits : Nat
  misses : Nat
  evictions : Nat
deriving DecidableEq, Inhabited

namespace PlanCache

/-- The empty cache; it has room for at least one plan. -/
def ofCapacity (capacity : Nat) : PlanCache :=
  ⟨[], max capacity 1, 0, 0, 0⟩

/-- The key of members of a type, in any order: the name of the type, a colon, and the sorted names with
commas between them. Neither mark is escaped where it occurs in a name. -/
def key (typeName : String) (names : List String) : String :=
  typeName ++ ":" ++ String.intercalate "," (names.mergeSort fun a b => decide (a ≤ b))

/-- Moves a plan to the front. -/
def touch (c : PlanCache) (key : String) (plan : InstancePlan) : PlanCache :=
  { c with entries := (key, plan) :: c.entries.filter (·.1 != key) }

/-- Gives up the plan that was not used for the longest time, if there is no room. -/
def makeRoom (c : PlanCache) : PlanCache :=
  if c.capacity ≤ c.entries.length then
    { c with entries := c.entries.dropLast, evictions := c.evictions + 1 }
  else c

/-- The plan for members of a type: the one that is kept under their key, or a new one, which is kept from
then on. A plan that cannot be built is not kept, and the request counts as a miss. -/
def planFor (m : Model) (typeName : String) (names : List String) (c : PlanCache) :
    Except Failure InstancePlan × PlanCache :=
  let key := key typeName names
  match c.entries.lookup key with
  | some plan => (.ok plan, { c.touch key plan with hits := c.hits + 1 })
  | none =>
    let c := { c with misses := c.misses + 1 }
    match InstancePlan.build m typeName names with
    | .ok plan => (.ok plan, c.makeRoom.touch key plan)
    | .error e => (.error e, c)

/-- Forgets the plans; the statistics stay. -/
def clear (c : PlanCache) : PlanCache :=
  { c with entries := [] }

/-- The share of hits in percent. -/
def hitRate (c : PlanCache) : Float :=
  if c.hits + c.misses = 0 then 0.0
  else Float.ofNat c.hits / Float.ofNat (c.hits + c.misses) * 100.0

end PlanCache

end DocumentQuery
