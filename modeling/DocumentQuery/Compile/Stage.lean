/-!
# Stages of a pipeline

The operators of a pipeline are folded into one query of the store. That keeps their meaning only
while they come in a fixed order: filters, then orderings, then paging, then a projection, then one
terminal operator. The stage is how far a pipeline has come.
-/

namespace DocumentQuery

/-- How far a pipeline has come. The stages are in the order in which the store carries things out, so an
operator of an earlier stage that comes later would change its meaning. -/
inductive Stage where
  | filtering
  | ordered
  | paged
  | projected
  | terminal
deriving DecidableEq, Inhabited

namespace Stage

/-- The position of a stage. -/
def rank : Stage → Nat
  | .filtering => 0
  | .ordered => 1
  | .paged => 2
  | .projected => 3
  | .terminal => 4

/-- Whether a stage has not gone beyond another. -/
def within (s limit : Stage) : Bool :=
  s.rank ≤ limit.rank

/-- The operator that leads to a stage, as messages name it. -/
def name : Stage → String
  | .filtering => "filtering"
  | .ordered => "OrderBy"
  | .paged => "Skip/Take"
  | .projected => "Select"
  | .terminal => "a terminal operator"

end Stage

end DocumentQuery
