import DocumentQuery.Instance.Value
import DocumentQuery.Json.Value
import DocumentQuery.Text.Quoted
import DocumentQuery.Time.Chronology

/-!
# Object graphs

Instances live in a graph and refer to each other by number. A graph knows the instances that stand for
stored entities by type and key: the first instance registered for an identity stays the one that
stands for it.

A graph is shown as a document. An instance is shown in full wherever it is met, unless it is being
shown already; there a reference takes its place. The instances on the way are all different, so the
way cannot be longer than there are instances, and showing a graph comes to an end.

## Main definitions

* `Instance`, `Graph` — instances with their fields, and all of them with their identities
* `Graph.register` — makes an instance stand for an identity
* `Graph.render` — the document of a value
-/

namespace DocumentQuery

/-- An object made of a document: its type, its identity if it has one, the constructor it was made by, its
fields, and what has loaded its navigations. -/
structure Instance where
  typeName : String
  /-- The identity within the type, absent for objects without one. -/
  key : Option String
  /-- The constructor that made the instance. -/
  constructor? : Option String
  fields : Table Value
  /-- The navigations loaded, each with what it was loaded by. -/
  loaded : List (String × String)
deriving Inhabited

namespace Instance

/-- Whether a navigation was loaded by anything. -/
def isLoaded (i : Instance) (navigation : String) : Bool :=
  i.loaded.any (·.1 == navigation)

/-- The text that stands for an instance inside itself. -/
def label (i : Instance) : String :=
  i.typeName ++ "/" ++ i.key.getD ""

/-- The text that shows an instance with the names of its fields. -/
def inspect (i : Instance) : String :=
  let key := match i.key with
    | some key => "Some(" ++ Text.quoted key ++ ")"
    | none => "None"
  "Instance \x7b type_name: " ++ Text.quoted i.typeName ++ ", key: " ++ key ++ ", fields: ["
    ++ String.intercalate ", " (i.fields.names.map Text.quoted) ++ "] \x7d"

end Instance

/-- Instances and the identities they stand for. An instance is known by its number, which is its place among
the instances, and none is ever taken away. -/
structure Graph where
  instances : Array Instance
  identities : List ((String × String) × InstanceId)
deriving Inhabited

namespace Graph

/-- The graph without instances. -/
def empty : Graph := ⟨#[], []⟩

/-- Adds an instance. -/
def add (g : Graph) (i : Instance) : InstanceId × Graph :=
  (g.instances.size, { g with instances := g.instances.push i })

/-- The instance that stands for an identity. -/
def find? (g : Graph) (typeName key : String) : Option InstanceId :=
  g.identities.lookup (typeName, key)

/-- Makes an instance stand for an identity, unless another one does, and returns the one that does. The first
one that is registered stays, so every reference to the identity leads to one instance. -/
def register (g : Graph) (typeName key : String) (id : InstanceId) : InstanceId × Graph :=
  match g.find? typeName key with
  | some winner => (winner, g)
  | none => (id, { g with identities := g.identities ++ [((typeName, key), id)] })

/-- Changes an instance. -/
def update (g : Graph) (id : InstanceId) (change : Instance → Instance) : Graph :=
  { g with instances := g.instances.modify id change }

/-- Sets a field of an instance. -/
def setField (g : Graph) (id : InstanceId) (name : String) (value : Value) : Graph :=
  g.update id fun i => { i with fields := i.fields.insert name value }

/-- A field of an instance. -/
def field? (g : Graph) (id : InstanceId) (name : String) : Option Value :=
  g.instances[id]?.bind (·.fields.lookup name)

/-- Whether a navigation of an instance was loaded by something. -/
def isLoadedBy (g : Graph) (id : InstanceId) (navigation plan : String) : Bool :=
  g.instances[id]?.any (·.loaded.contains (navigation, plan))

/-- Notes that a navigation of an instance is loaded by something. -/
def markLoaded (g : Graph) (id : InstanceId) (navigation plan : String) : Graph :=
  g.update id fun i => { i with loaded := i.loaded ++ [(navigation, plan)] }

/-! ## Showing values -/

/-- How many instances are not on a way. -/
def remaining (g : Graph) (way : List InstanceId) : Nat :=
  (List.range g.instances.size).countP fun id => !way.contains id

theorem countP_not_mem_cons_lt {ids way : List InstanceId} {id : InstanceId} (h : id ∈ ids)
    (hw : way.contains id = false) :
    ids.countP (fun j => !(id :: way).contains j) < ids.countP fun j => !way.contains j := by
  induction ids with
  | nil => cases h
  | cons j js ih =>
    have mono : js.countP (fun j => !(id :: way).contains j) ≤ js.countP fun j => !way.contains j := by
      apply List.countP_mono_left
      intro k _ hk
      simp_all
    by_cases hj : j = id
    · subst hj
      have hin : (!(j :: way).contains j) = false := by simp
      have hout : (!way.contains j) = true := by rw [hw]; rfl
      rw [List.countP_cons_of_neg (by simp), List.countP_cons_of_pos (by simpa using hout)]
      omega
    · have hm : id ∈ js := by
        cases h with
        | head => exact absurd rfl hj
        | tail _ h => exact h
      have hlt := ih hm
      have same : (!(id :: way).contains j) = (!way.contains j) := by simp [hj]
      simp only [List.countP_cons, same]
      omega

theorem remaining_cons_lt {g : Graph} {way : List InstanceId} {id : InstanceId}
    (h : id < g.instances.size) (hw : way.contains id = false) :
    g.remaining (id :: way) < g.remaining way :=
  countP_not_mem_cons_lt (List.mem_range.mpr h) hw

/-- The document of a reference to an instance that is being shown. -/
def reference (i : Instance) : Json :=
  .obj [("$ref", .str i.label)]

end Graph

namespace Value

mutual

/-- The document of a value, given the documents of instances. -/
def toJsonWith [Chronology] (object : InstanceId → Json) : Value → Json
  | .null => .null
  | .bool b => .bool b
  | .int i => .int i
  | .float f => Json.ofFloat f
  | .string s => .str s
  | .timestamp t => .str (Chronology.write t)
  | .enum _ variant => .str variant
  | .object id => object id
  | .collection _ items => .arr (toJsonItems object items)

/-- The documents of values, given the documents of instances. -/
def toJsonItems [Chronology] (object : InstanceId → Json) : List Value → List Json
  | [] => []
  | v :: vs => toJsonWith object v :: toJsonItems object vs

end

end Value

namespace Graph

/-- The document of an instance met on a way of instances that are being shown. The recursion ends because
every instance that is shown in full is added to the way, and there are finitely many. -/
def renderInstance [Chronology] (g : Graph) (way : List InstanceId) (id : InstanceId) : Json :=
  if h : id < g.instances.size then
    let i := g.instances[id]
    if hw : way.contains id then reference i
    else
      .obj <| i.fields.map fun (name, value) =>
        (name, value.toJsonWith fun inner => g.renderInstance (id :: way) inner)
  else .null
termination_by g.remaining way
decreasing_by exact remaining_cons_lt h (by simpa using hw)

/-- The document of a value. -/
def render [Chronology] (g : Graph) (v : Value) : Json :=
  v.toJsonWith (g.renderInstance [])

end Graph

end DocumentQuery
