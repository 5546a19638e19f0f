import DocumentQuery.Compile.Inclusion
import DocumentQuery.Compile.Projection
import DocumentQuery.Text.Segments

/-!
# Pipelines as templates

The operators of a pipeline are folded one by one into a template. An operator that comes too late for
its meaning to survive is refused (`Stage`), and so is every operator after a terminal one.

Paging that is repeated is added up as long as the counts are constants: skipping `k` rows of the
first `n` leaves the first `n - k` of them. Counts have 64 bits. Rows to skip that add up to more than
the largest count are an overflow, which is noticed before anything else is looked at.

## Main definitions

* `Progress` — a template under construction
* `Progress.apply` — one operator
* `Pipeline.compile` — all of them
-/

namespace DocumentQuery

/-- A template under construction: the template so far, the stage that the pipeline has reached, and where the
last include ended, for an operator that goes on from there. -/
structure Progress where
  template : Template
  stage : Stage
  /-- The path of the include that a further one continues. -/
  lastInclude : Option (List String)
deriving Inhabited

/-- A count that is known already. -/
def Operand.constantCount (operator : String) : Operand → Except QueryError Nat
  | .constant (.num n) =>
    match n.toCount? with
    | some count => .ok count
    | none => .error (.unsupported (.negativeCount operator n))
  | operand => .error (.unsupported (.boundCount operator operand))

/-- The operand of a known count. -/
def Operand.ofCount (n : Nat) : Operand :=
  .constant (.count n)

namespace Template

/-- The number of rows that are skipped, if it is a constant. -/
def skipped (t : Template) : Except QueryError Nat :=
  match t.skip with
  | none => .ok 0
  | some operand => operand.constantCount "Skip"

/-- How many rows are kept once more of them are skipped, if any are cut off. The page gets shorter by the
rows that are skipped of it, and it does not get shorter than empty. -/
def keptAfter (t : Template) (extra : Nat) : Except QueryError (Option Operand) :=
  match t.limit with
  | none => .ok none
  | some operand => do
    let kept ← operand.constantCount "Take"
    return some (Operand.ofCount (kept - extra))

end Template

namespace Progress

/-- Refuses an operator that comes after a stage. The message names the operator that has led to the stage,
since that one is why this one comes too late. -/
def require (p : Progress) (limit : Stage) (op : Operator) : Except QueryError Unit :=
  if p.stage.within limit then .ok () else .error (.unsupported (.misplaced op p.stage))

/-- Adds the conjuncts of a predicate to the template, one after the other. An equality with the identity may
become the target. -/
def addPredicate (m : Model) (p : Progress) (predicate : Lambda) : Except QueryError Progress := do
  let filters ← Filter.ofLambda m p.template.entityType predicate
  return { p with template := filters.foldl Template.addFilter p.template }

/-- Adds the predicate of a terminal operator, if it has one. -/
def addTerminalPredicate (m : Model) (p : Progress) : Option Lambda → Except QueryError Progress
  | none => .ok p
  | some predicate =>
    if p.stage.within .ordered then p.addPredicate m predicate
    else .error (.unsupported .predicateAfterPaging)

/-- Sets the counts of skipped and kept rows. -/
def page (p : Progress) (skip limit : Option Operand) : Progress :=
  { p with template := { p.template with skip := skip, limit := limit }, stage := .paged }

/-- The rows to skip when some are skipped already and more are to be. A sum that is no count overflows, which
ends the compilation without a further explanation. -/
def addSkips (prior extra : Nat) : Except QueryError Nat :=
  if prior + extra ≤ Number.maxCount then .ok (prior + extra) else .error .overflow

/-- Skips rows. The first count may be anything, but counts that are added have to be constants. -/
def skip (p : Progress) (count : Operand) : Except QueryError Progress := do
  if p.template.limitToLast.isSome then throw (.unsupported .skipAfterTakeLast)
  if p.template.skip.isNone && p.template.limit.isNone then
    return p.page (some count) none
  else
    let extra ← count.constantCount "Skip"
    let prior ← p.template.skipped
    let total ← addSkips prior extra
    let limit ← p.template.keptAfter extra
    return p.page (some (Operand.ofCount total)) limit

/-- Keeps the first rows. Of two counts the smaller one decides, for which both have to be constants; there is
no keeping of first rows beside the keeping of last ones. -/
def take (p : Progress) (count : Operand) : Except QueryError Progress := do
  if p.template.limitToLast.isSome then throw (.unsupported .takeAfterTakeLast)
  match p.template.limit with
  | none => return p.page p.template.skip (some count)
  | some previous =>
    let previous ← previous.constantCount "Take"
    let next ← count.constantCount "Take"
    return p.page p.template.skip (some (Operand.ofCount (min previous next)))

/-- Whether the property at the end of a path of names may be null. A name that holds no embedded
object is passed over. -/
def isNullable (m : Model) (type : TypeDecl) : List String → Except QueryError Bool
  | [] => .ok false
  | name :: rest =>
    match type.property? name with
    | none => .ok false
    | some property =>
      match rest, property.declared with
      | [], _ => .ok property.nullable
      | _, .complex inner =>
        match m.typeNamed inner with
        | .ok type => isNullable m type rest
        | .error e => .error e
      | _, _ => isNullable m type rest

/-- The field a reduction reads and whether it may be null. -/
def aggregated (m : Model) (typeName : String) (kind : AggregateKind) (selector : Lambda) :
    Except QueryError (FieldRef × Bool) := do
  let scope ← selector.scope m typeName
  let field ← FieldRef.ofExpr m scope selector.body
  if (kind = .sum || kind = .average) && !field.declared.isNumeric then
    throw (.unsupported (.nonNumericAggregate kind field.property field.declared))
  if field.declared.scalar?.isNone then
    throw (.unsupported (.nonScalarAggregate kind field.property field.declared))
  let root ← m.typeNamed typeName
  return (field, ← isNullable m root (Text.segments '.' field.property))

/-- Ends the pipeline in a reduction. A projected pipeline has no fields left to reduce, and a count or a test
for existence reads no field at all. -/
def aggregate (m : Model) (p : Progress) (kind : AggregateKind) (selector : Option Lambda) :
    Except QueryError Progress := do
  if p.stage = .projected then throw (.unsupported (.aggregateOverProjection kind))
  let aggregation : Aggregation ← match selector with
    | none => pure ⟨kind, none, false⟩
    | some selector => do
      let (field, nullable) ← aggregated m p.template.entityType kind selector
      pure ⟨kind, some field, nullable⟩
  return { p with template := { p.template with aggregation := some aggregation }, stage := .terminal }

/-- Ends the pipeline in one element. The last element is that of an ordering, so there has to be one. -/
def pick (p : Progress) (which : Element) (orDefault : Bool) : Except QueryError Progress := do
  let cardinality ← match which with
    | .first => pure (Cardinality.first orDefault)
    | .single => pure (Cardinality.single orDefault)
    | .last =>
      if p.template.orderBy.isEmpty then throw (.unsupported .lastWithoutOrderBy)
      else pure (Cardinality.last orDefault)
  return { p with template := { p.template with cardinality := cardinality }, stage := .terminal }

/-- Loads the chain of an include below a path. -/
def addInclude (m : Model) (p : Progress) (path : List String) (navigation : Lambda) :
    Except QueryError Progress := do
  let (tree, path) ←
    Inclusion.addChain m p.template.entityType path navigation p.template.includes
  return { p with template := { p.template with includes := tree }, lastInclude := some path }

/-- Folds one operator into the template. The cases are those of the operators; each first asks whether it
still may be folded in, and only then translates what it was given. -/
def apply (m : Model) (p : Progress) (op : Operator) : Except QueryError Progress := do
  let t := p.template
  match op with
  | .filter predicate =>
    p.require .ordered op
    p.addPredicate m predicate
  | .orderBy key descending =>
    p.require .ordered op
    let key ← SortKey.ofLambda m t.entityType key descending
    return { p with template := { t with orderBy := [key] }, stage := .ordered }
  | .thenBy key descending =>
    p.require .ordered op
    if t.orderBy.isEmpty then throw (.unsupported .thenByWithoutOrderBy)
    let key ← SortKey.ofLambda m t.entityType key descending
    return { p with template := { t with orderBy := t.orderBy ++ [key] } }
  | .skip count =>
    p.require .paged op
    p.skip (← Operand.ofExpr count)
  | .take count =>
    p.require .paged op
    p.take (← Operand.ofExpr count)
  | .takeLast count =>
    p.require .ordered op
    if t.orderBy.isEmpty then throw (.unsupported .takeLastWithoutOrderBy)
    let count ← Operand.ofExpr count
    return { p with template := { t with limitToLast := some count }, stage := .paged }
  | .select selector =>
    p.require .paged op
    let projection ← Projection.ofLambda m t.entityType selector
    return { p with template := { t with projection := projection }, stage := .projected }
  | .include navigation =>
    p.require .paged op
    p.addInclude m [] navigation
  | .thenInclude navigation =>
    p.require .paged op
    match p.lastInclude with
    | some path => p.addInclude m path navigation
    | none => throw (.unsupported .thenIncludeWithoutInclude)
  | .count predicate =>
    let p ← p.addTerminalPredicate m predicate
    p.aggregate m .count none
  | .any predicate =>
    let p ← p.addTerminalPredicate m predicate
    p.aggregate m .any none
  | .sum selector => p.aggregate m .sum (some selector)
  | .average selector => p.aggregate m .average (some selector)
  | .min selector => p.aggregate m .min (some selector)
  | .max selector => p.aggregate m .max (some selector)
  | .element which orDefault predicate =>
    let p ← p.addTerminalPredicate m predicate
    p.pick which orDefault

/-- Folds one operator into the template, unless the pipeline has ended. -/
def step (m : Model) (p : Progress) (op : Operator) : Except QueryError Progress :=
  if p.stage = .terminal then .error (.unsupported (.afterTerminal op)) else p.apply m op

end Progress

/-- The template of a pipeline: that of all documents of the root, with the operators folded in from the first
to the last. The root has to be an entity, which has a collection of its own. -/
def Pipeline.compile (m : Model) (pipeline : Pipeline) : Except QueryError Template := do
  let root ← m.entityNamed pipeline.root
  match root.kind with
  | .entity collection key =>
    let start : Progress := ⟨Template.all collection root.name key, .filtering, none⟩
    let done ← pipeline.operators.foldlM (Progress.step m) start
    return done.template
  | .complex => throw (.unknownType pipeline.root)

end DocumentQuery
