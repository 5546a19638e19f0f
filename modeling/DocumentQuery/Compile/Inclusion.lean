import DocumentQuery.Compile.Predicate

/-!
# Navigations to load

The body of an include is a chain of navigations on the parameter, followed by operators that restrict
the last one. Includes of one query form a tree (`List Inclusion`): chains share their common
beginning, and the navigations at one level have different names.

A name that leads nowhere keeps the rest of its chain as it was written, so that binding can report
the whole path.

## Main definitions

* `NavigationChain` — the parts of an include's body
* `Inclusion.insertAt` — puts a navigation into the tree
* `Inclusion.addChain` — puts a chain into the tree
-/

namespace DocumentQuery

/-- An operator that restricts a navigation. The operators are those of a pipeline up to its pages; a
navigation is neither projected nor reduced. -/
inductive Restriction where
  | filter (predicate : Lambda)
  | orderBy (key : Lambda) (descending : Bool)
  | thenBy (key : Lambda) (descending : Bool)
  | skip (count : Expr)
  | take (count : Expr)
deriving Inhabited

/-- The restriction a call stands for. -/
def Restriction.ofCall? : Method → List Expr → Option Restriction
  | .filter, [.lambda parameter body] => some (.filter ⟨parameter, body⟩)
  | .orderBy, [.lambda parameter body] => some (.orderBy ⟨parameter, body⟩ false)
  | .orderByDescending, [.lambda parameter body] => some (.orderBy ⟨parameter, body⟩ true)
  | .thenBy, [.lambda parameter body] => some (.thenBy ⟨parameter, body⟩ false)
  | .thenByDescending, [.lambda parameter body] => some (.thenBy ⟨parameter, body⟩ true)
  | .skip, [n] => some (.skip n)
  | .take, [n] => some (.take n)
  | _, _ => none

/-- A chain of navigations and what restricts the last one. -/
structure NavigationChain where
  names : List String
  restrictions : List Restriction
deriving Inhabited

/-- The chain an expression stands for. It is read from the outside: calls are the operators, the last one
first, and below them are the members down to the parameter. -/
def NavigationChain.ofExpr (parameter : String) : Expr → Except QueryError NavigationChain
  | .convert operand => ofExpr parameter operand
  | .member target name => do
    if target.isParam parameter then return ⟨[name], []⟩
    let chain ← ofExpr parameter target
    if !chain.restrictions.isEmpty then throw (.unsupported (.memberAfterOperator name))
    return ⟨chain.names ++ [name], []⟩
  | .call method (some receiver) args => do
    let chain ← ofExpr parameter receiver
    match Restriction.ofCall? method args with
    | some restriction => return ⟨chain.names, chain.restrictions ++ [restriction]⟩
    | none => throw (.unsupported (.navigationMethod method))
  | e => .error (.unsupported (.navigationShape e parameter))

namespace Inclusion

/-- Whether a navigation is paged already. -/
def isPaged (i : Inclusion) : Bool :=
  i.skip.isSome || i.limit.isSome

/-- Restricts a navigation whose targets are of a type. A filter, a new ordering and a skip come before any
page, and a limit comes once. A key that refines an ordering is let in at any time, as long as there is an
ordering. -/
def restrict (m : Model) (targetType : String) (i : Inclusion) :
    Restriction → Except QueryError Inclusion
  | .filter predicate => do
    if i.isPaged then throw (.unsupported (.filterAfterPaging i.navigation))
    return { i with filters := i.filters ++ (← Filter.ofLambda m targetType predicate) }
  | .orderBy key descending => do
    if i.isPaged then throw (.unsupported (.orderByAfterPaging i.navigation))
    return { i with orderBy := [← SortKey.ofLambda m targetType key descending] }
  | .thenBy key descending => do
    if i.orderBy.isEmpty then throw (.unsupported (.navigationThenBy i.navigation))
    return { i with orderBy := i.orderBy ++ [← SortKey.ofLambda m targetType key descending] }
  | .skip n => do
    if i.isPaged then throw (.unsupported (.navigationSkip i.navigation))
    return { i with skip := some (← Operand.ofExpr n) }
  | .take n => do
    if i.limit.isSome then throw (.unsupported (.navigationTake i.navigation))
    return { i with limit := some (← Operand.ofExpr n) }

/-- Puts a navigation into one level of the tree. A navigation that is there already takes over the
restrictions, unless it carries others. -/
def insert (i : Inclusion) : List Inclusion → Except QueryError (List Inclusion)
  | [] => .ok [i]
  | existing :: level =>
    if existing.navigation = i.navigation then
      if i.isRestricted then
        if existing.isRestricted && !sameRestrictions existing i then
          .error (.unsupported (.conflictingIncludes i.navigation))
        else
          .ok ({ existing with
            filters := i.filters, orderBy := i.orderBy, limit := i.limit, skip := i.skip } :: level)
      else .ok (existing :: level)
    else do
      let level ← insert i level
      return existing :: level

/-- The index at which a navigation stands in a level once it is put there: that of the navigation of its
name, or one past the end if there is none. -/
def indexIn (i : Inclusion) (level : List Inclusion) : Nat :=
  level.findIdx (·.navigation == i.navigation)

/-- Puts a navigation into the tree below the navigations of a path. A name on the path that is not found
leaves its level as it is. Were the path given by indices, this would be an index out of range. The includes
of a pipeline do not come to it: every path they continue is that of a navigation put there before. -/
def insertAt (i : Inclusion) : List String → List Inclusion → Except QueryError (List Inclusion)
  | [], level => insert i level
  | name :: path, level =>
    level.mapM fun existing =>
      if existing.navigation = name then do
        let nested ← insertAt i path existing.nested
        return { existing with nested := nested }
      else .ok existing

/-- The type at the end of a path of navigations. A name that is no navigation is refused, since the chain
that goes on from there could not be read. -/
def typeAt (m : Model) (typeName : String) : List String → Except QueryError String
  | [] => .ok typeName
  | name :: path =>
    match m.typeNamed typeName with
    | .error e => .error e
    | .ok type =>
      match type.navigation? name with
      | some navigation => typeAt m navigation.target path
      | none => .error (.invalidInclude name (.unknownParent typeName))

/-- The target of a navigation, if there is such a navigation. -/
def target? (m : Model) (typeName name : String) : Option String := do
  let type ← m.type? typeName
  let navigation ← type.navigation? name
  return navigation.target

/-- Puts names below a path into the tree, the last one with restrictions, and returns the path to the
last one. A path of names is as good as the indices of its navigations, because what is put into a tree
later leaves them where they are. -/
def addNames (m : Model) (restrictions : List Restriction) (typeName : String) (path : List String)
    (tree : List Inclusion) : List String → Except QueryError (List Inclusion × List String)
  | [] => .ok (tree, path)
  | name :: rest =>
    match target? m typeName name with
    | some target => do
      let i ←
        if rest.isEmpty then restrictions.foldlM (restrict m target) (plain name)
        else pure (plain name)
      let tree ← insertAt i path tree
      addNames m restrictions target (path ++ [name]) tree rest
    | none => do
      let whole := FieldRef.joinPath (name :: rest)
      if !restrictions.isEmpty then throw (.invalidInclude whole .restrictedPath)
      let tree ← insertAt (plain whole) path tree
      return (tree, path ++ [whole])

/-- Puts the chain of an include below a path into the tree, and returns the path to the last navigation, from
which a following operator may go on. The path is empty for a chain from the root. -/
def addChain (m : Model) (rootType : String) (path : List String) (navigation : Lambda)
    (tree : List Inclusion) : Except QueryError (List Inclusion × List String) := do
  let typeName ← typeAt m rootType path
  let chain ← NavigationChain.ofExpr navigation.parameter navigation.body
  addNames m chain.restrictions typeName path tree chain.names

end Inclusion

end DocumentQuery
