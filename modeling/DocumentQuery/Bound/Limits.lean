import DocumentQuery.Bound.Basic
import DocumentQuery.Error.Query

/-!
# Limits of the store

The store accepts lists of candidates up to a length, inequalities on one field only, and then only
when that field leads the ordering. A query that breaks a rule is refused before any call is made.

## Main definitions

* `QueryLimits` — how much one query may ask for
* `QueryLimits.checkConditions` — one list of conditions with its ordering
* `QueryLimits.check` — a query with everything it loads
-/

namespace DocumentQuery

/-- How much one query may ask of the store. The numbers are settings, and a store that allows for more can be
described by other ones. -/
structure QueryLimits where
  /-- Candidates of a membership test. -/
  maxIn : Nat
  /-- Candidates of a negated membership test. -/
  maxNotIn : Nat
  /-- Conjunctions a condition may expand into. -/
  maxDisjunctions : Nat
deriving DecidableEq, Inhabited

namespace QueryLimits

/-- The limits when nothing else is configured. -/
def standard : QueryLimits := ⟨30, 10, 30⟩

/-- The number of candidates an operator accepts, for operators that take candidates. -/
def maxCandidates? (limits : QueryLimits) : FilterOp → Option Nat
  | .isIn | .arrayContainsAny => some limits.maxIn
  | .notIn => some limits.maxNotIn
  | _ => none

/-- Refuses a comparison with too many candidates. -/
def checkCandidates (limits : QueryLimits) (c : Comparison) : Except QueryError Unit :=
  match limits.maxCandidates? c.operator, c.value.toArray? with
  | some limit, some values =>
    if limit < values.length then
      .error (.cardinalityExceeded c.field.property c.operator values.length limit)
    else .ok ()
  | _, _ => .ok ()

/-- Checks comparisons from left to right, given the field of the inequalities so far, and returns the
field of all inequalities. -/
def checkComparisons (limits : QueryLimits) (inequality : Option String) :
    List Comparison → Except QueryError (Option String)
  | [] => .ok inequality
  | c :: cs => do
    limits.checkCandidates c
    if c.operator.isInequality then
      match inequality with
      | some path =>
        if path = c.field.path then checkComparisons limits inequality cs
        else throw (.unsupported (.inequalityFields path c.field.path))
      | none => checkComparisons limits (some c.field.path) cs
    else checkComparisons limits inequality cs

/-- Refuses an inequality on a field that does not lead the ordering. -/
def checkLeadingOrder : Option String → List SortKey → Except QueryError Unit
  | some path, key :: _ =>
    if key.field.path = path then .ok ()
    else .error (.unsupported (.inequalityOrder path key.field.path))
  | _, _ => .ok ()

/-- Checks a list of conditions with its ordering. The comparisons are looked at in order, however deep they
are nested, and the first fault is reported; the ordering comes last. -/
def checkConditions (limits : QueryLimits) (conditions : List Condition) (orderBy : List SortKey) :
    Except QueryError Unit := do
  let inequality ← limits.checkComparisons none (Condition.comparisonsOf conditions)
  checkLeadingOrder inequality orderBy

mutual

/-- Checks a navigation to load and everything loaded below it. -/
def checkLoading (limits : QueryLimits) : Loading → Except QueryError Unit
  | ⟨_, _, conditions, orderBy, _, _, children⟩ => do
    limits.checkConditions conditions orderBy
    checkLoadings limits children

/-- Checks navigations to load. -/
def checkLoadings (limits : QueryLimits) : List Loading → Except QueryError Unit
  | [] => .ok ()
  | l :: ls => do
    checkLoading limits l
    checkLoadings limits ls

end

/-- Checks a query and everything it loads: its conditions, that only an ordered query is cut to its last
documents, and every navigation down to the leaves. -/
def check (limits : QueryLimits) (q : BoundQuery) : Except QueryError Unit := do
  limits.checkConditions q.access.conditions q.orderBy
  if q.limitToLast.isSome && q.orderBy.isEmpty then throw (.unsupported .limitToLastWithoutOrder)
  limits.checkLoadings q.includes

end QueryLimits

end DocumentQuery
