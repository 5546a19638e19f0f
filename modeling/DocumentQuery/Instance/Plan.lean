import DocumentQuery.Error.Failure
import DocumentQuery.Schema.Model

/-!
# How instances are made

An instance is made by a constructor of its type, and the members that no argument takes are set
afterwards. A constructor can be used when every parameter finds a member of its name, upper and lower
case aside; of those the one with most parameters is used, the last declared if there are several.
Members of read-only properties that no argument takes are skipped.

A type that the model does not know takes every member afterwards.

## Main definitions

* `InstancePlan` — constructor, arguments, setters and what is skipped
* `InstancePlan.build` — the plan for members of a type
-/

namespace DocumentQuery

/-- How an instance is made of named members: which constructor is called with which of them, which are set
afterwards, and which are left out. -/
structure InstancePlan where
  typeName : String
  /-- The constructor, absent for a type without constructors. -/
  constructor? : Option String
  /-- The parameters of the constructor, each with the member it takes. -/
  arguments : List (String × String)
  setters : List String
  skipped : List String
deriving DecidableEq, Inhabited

namespace ConstructorDecl

/-- Whether two names are the same, upper and lower case of Latin letters aside. -/
def sameName (a b : String) : Bool :=
  a.toList.map Char.toLower == b.toList.map Char.toLower

/-- The member each parameter takes, if every parameter finds one. -/
def arguments? (c : ConstructorDecl) (names : List String) : Option (List (String × String)) :=
  c.parameters.mapM fun p => (names.find? (sameName · p.name)).map (p.name, ·)

end ConstructorDecl

namespace TypeDecl

/-- The constructors that can be used, each with its arguments. -/
def usableConstructors (t : TypeDecl) (names : List String) :
    List (ConstructorDecl × List (String × String)) :=
  t.constructors.filterMap fun c => (c.arguments? names).map (c, ·)

/-- The last of those with most arguments. -/
def mostArguments? :
    List (ConstructorDecl × List (String × String)) → Option (ConstructorDecl × List (String × String))
  | [] => none
  | c :: cs =>
    match mostArguments? cs with
    | some best => if best.2.length < c.2.length then some c else some best
    | none => some c

/-- The constructor to use, with its arguments. A type without constructors is made without arguments; a type
that has some is made by one of them, or the object is refused. -/
def chooseConstructor (t : TypeDecl) (names : List String) :
    Except Failure (Option String × List (String × String)) :=
  if t.constructors.isEmpty then .ok (none, [])
  else
    match mostArguments? (t.usableConstructors names) with
    | some (c, arguments) => .ok (some c.name, arguments)
    | none => .error (.materialization (.noConstructor t.name names))

/-- Whether a member may be set after construction; only a read-only property may not. -/
def isSettable (t : TypeDecl) (name : String) : Bool :=
  (t.property? name).all (·.settable)

end TypeDecl

namespace InstancePlan

/-- The plan that sets every member. -/
def settingAll (typeName : String) (names : List String) : InstancePlan :=
  ⟨typeName, none, [], names, []⟩

/-- The members whose values the instance gets, those of arguments first. -/
def assigned (plan : InstancePlan) : List String :=
  plan.arguments.map Prod.snd ++ plan.setters

/-- The plan for members of a type. A member that several parameters take is an argument each time, and is not
set afterwards. -/
def build (m : Model) (typeName : String) (names : List String) : Except Failure InstancePlan :=
  match m.type? typeName with
  | none => .ok (settingAll typeName names)
  | some type => do
    let (constructor?, arguments) ← type.chooseConstructor names
    let others := names.filter fun name => !(arguments.any (·.2 == name))
    return {
      typeName := typeName
      constructor? := constructor?
      arguments := arguments
      setters := others.filter type.isSettable
      skipped := others.filter (!type.isSettable ·) }

end InstancePlan

end DocumentQuery
