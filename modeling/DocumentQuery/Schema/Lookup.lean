import DocumentQuery.Error.Query
import DocumentQuery.Schema.Model

/-!
# Looking up what a query names

The lookups of a model that refuse a query when the name is unknown.
-/

namespace DocumentQuery.Model

/-- The type of a name. -/
def typeNamed (m : Model) (name : String) : Except QueryError TypeDecl :=
  match m.type? name with
  | some t => .ok t
  | none => .error (.unknownType name)

/-- The entity type of a name. -/
def entityNamed (m : Model) (name : String) : Except QueryError TypeDecl := do
  let t ← m.typeNamed name
  if t.isEntity then return t else throw (.unsupported (.complexRoot name))

/-- The enum of a name. -/
def enumNamed (m : Model) (name : String) : Except QueryError EnumDecl :=
  match m.enum? name with
  | some e => .ok e
  | none => .error (.unknownType name)

end DocumentQuery.Model
