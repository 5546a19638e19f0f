import DocumentQuery.Schema.Lookup

/-!
# Fields of a row

A chain of member accesses on the parameter of a lambda names a stored field. The names are looked up
from the row's type inward, through embedded objects, and the stored names are joined to the path of
the field. The key of an entity is not stored in the document: the chain that consists of it alone is
the identity of the document.
-/

namespace DocumentQuery

/-- The parameter of a lambda and the type of its rows. -/
structure Scope where
  parameter : String
  type : TypeDecl
deriving Inhabited

/-- The scope of a lambda over rows of a type. -/
def Lambda.scope (l : Lambda) (m : Model) (typeName : String) : Except QueryError Scope := do
  return ⟨l.parameter, ← m.typeNamed typeName⟩

namespace Expr

/-- Whether an expression is the parameter or a chain of members on it. -/
def isRooted (parameter : String) : Expr → Bool
  | .convert operand => operand.isRooted parameter
  | .param name => name == parameter
  | .member target _ => target.isRooted parameter
  | _ => false

/-- Whether an expression is a chain of at least one member on the parameter. It decides which side of a
comparison is the field, before the names of the chain are looked up. -/
def isField (parameter : String) : Expr → Bool
  | .convert operand => operand.isField parameter
  | .member target _ => target.isRooted parameter
  | _ => false

/-- The names of a chain of members, the outermost last. -/
def memberNames (parameter : String) : Expr → Except QueryError (List String)
  | .convert operand => operand.memberNames parameter
  | .member target name => do
    let names ← target.memberNames parameter
    return names ++ [name]
  | e =>
    if e.isParam parameter then .ok []
    else .error (.unsupported (.foreignMember e parameter))

end Expr

namespace FieldRef

/-- A path from its segments. -/
def joinPath (segments : List String) : String :=
  String.intercalate "." segments

/-- The field of names looked up from a type. `stored` and `written` are the names on the way from the
row to the type, and are empty for the row itself. -/
def locate (m : Model) (type : TypeDecl) (stored written : List String) :
    List String → Except QueryError FieldRef
  | [] => .error (.unsupported .emptyPath)
  | name :: rest =>
    match type.property? name with
    | none =>
      if (type.navigation? name).isSome then .error (.unsupported (.navigationMember name type.name))
      else .error (.unsupported (.unmappedMember name type.name))
    | some property =>
      if property.ignored then .error (.unsupported (.ignoredMember name type.name))
      else
        match rest with
        | [] =>
          if written.isEmpty && type.isKey name then
            .ok { documentId name with declared := property.declared }
          else
            .ok {
              path := joinPath (stored ++ [property.storedName])
              property := joinPath (written ++ [property.name])
              declared := property.declared
              persistsNull := property.persistsNull
              enumName := property.declared.enumName? }
        | next :: _ =>
          match property.declared with
          | .complex typeName =>
            match m.typeNamed typeName with
            | .error e => .error e
            | .ok inner =>
              locate m inner (stored ++ [property.storedName]) (written ++ [property.name]) rest
          | declared => .error (.unsupported (.memberOfValue next name declared))

/-- The field an expression reads: a chain of members on the parameter, conversions aside, that the model
resolves from the type of the rows. -/
def ofExpr (m : Model) (scope : Scope) (e : Expr) : Except QueryError FieldRef := do
  locate m scope.type [] [] (← e.memberNames scope.parameter)

end FieldRef

/-- The operand an expression stands for: a constant, or a captured variable, which is a parameter of the
query. Any other expression would have to be evaluated for every row and is refused. -/
def Operand.ofExpr (e : Expr) : Except QueryError Operand :=
  match e.unwrap with
  | .constant value => .ok (.constant value)
  | .variable name => .ok (.parameter name)
  | other => .error (.unsupported (.notAnOperand other))

/-- The list of candidates an expression stands for. -/
def Operand.ofList (e : Expr) : Except QueryError Operand := do
  match ← Operand.ofExpr e with
  | .constant value =>
    if value.isArray then return .constant value else throw (.unsupported (.notAList value))
  | operand => return operand

/-- The sort key a lambda stands for. -/
def SortKey.ofLambda (m : Model) (typeName : String) (key : Lambda) (descending : Bool) :
    Except QueryError SortKey := do
  let scope ← key.scope m typeName
  let field ← FieldRef.ofExpr m scope key.body
  if field.declared.isCollection then throw (.unsupported (.orderByCollection field.property))
  return ⟨field, if descending then .descending else .ascending⟩

end DocumentQuery
