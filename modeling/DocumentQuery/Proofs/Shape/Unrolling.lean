import DocumentQuery.Proofs.Shape.Fields
import Mathlib.Logic.Function.Iterate

/-!
# Shaping along the declared types

The types of a model may refer to each other and to themselves, so shaping that goes from a declared type to
the types of its properties does not end on account of the types. It ends on account of the documents:
`Shaper.step` is one step of it, for a value of any declared type, with the fields of objects left to another
shaper. What that one does matters for values that are nested less deeply only (`Shaper.step_congr`). So it
makes no difference what is put in its place once the step is repeated more often than a document is deep
(`Shaper.iterate_step`), and what comes out is the shape of the document.

The definitions that run recurse on the document, through attached subterms, and this is hard to unfold more
than one level. The step has no recursion at all; that the recursion is its fixed point
(`Shaper.ofJson_eq_step`) is what later statements about shapes are read off.

## Main definitions

* `Json.depth` — how deeply a document is nested
* `Shaper.step` — the shape of a value, given the shapes of the fields of objects
-/

namespace DocumentQuery

/-! ## Depth -/

namespace Json

mutual

/-- How many containers a value nests, counting itself if it is one. -/
def depth : Json → Nat
  | .arr items => depthItems items + 1
  | .obj members => depthMembers members + 1
  | .null | .bool _ | .num _ | .str _ => 0

/-- The largest depth among the items. -/
def depthItems : List Json → Nat
  | [] => 0
  | j :: js => max (depth j) (depthItems js)

/-- The largest depth among the members. -/
def depthMembers : List (String × Json) → Nat
  | [] => 0
  | (_, j) :: js => max (depth j) (depthMembers js)

end

/-- An item is nested no more deeply than all items. -/
theorem depth_le_depthItems {items : List Json} {item : Json} (h : item ∈ items) :
    item.depth ≤ depthItems items := by
  induction items with
  | nil => exact nomatch h
  | cons first rest ih =>
    rw [depthItems]
    rcases List.mem_cons.mp h with rfl | h
    · exact Nat.le_max_left _ _
    · exact (ih h).trans (Nat.le_max_right _ _)

/-- A member is nested no more deeply than all members. -/
theorem depth_le_depthMembers {members : List (String × Json)} {member : String × Json}
    (h : member ∈ members) : member.2.depth ≤ depthMembers members := by
  induction members with
  | nil => exact nomatch h
  | cons first rest ih =>
    rw [depthMembers]
    rcases List.mem_cons.mp h with rfl | h
    · exact Nat.le_max_left _ _
    · exact (ih h).trans (Nat.le_max_right _ _)

/-- The value stored under a name, null if there is none. -/
def stored (members : Table Json) (name : String) : Json :=
  (members.lookup name).getD .null

/-- What is stored in an object is nested less deeply than the object. -/
theorem depth_stored_lt (members : Table Json) (name : String) :
    (stored members name).depth < (Json.obj members).depth := by
  rw [stored, depth, Nat.lt_succ_iff]
  cases hlookup : members.lookup name with
  | none => exact Nat.zero_le _
  | some value => exact depth_le_depthMembers (mem_of_lookup hlookup)

end Json

namespace Shaper

variable {m : Model} {inner inner' : Json → Shaper} {raw : Json}

/-! ## One step -/

/-- Shapes an object of a type, given the shapes of stored values. -/
def objectWith (m : Model) (inner : Json → Shaper) (typeName : String) (members : Table Json) :
    Except Failure ShapedItem :=
  shapeType m typeName fun _ p => inner (Json.stored members p.storedName)

/-- Shapes an object in a list, given the shapes of stored values. -/
def elementWith (m : Model) (inner : Json → Shaper) (typeName : String) : Json → Except Failure ShapedItem
  | .obj members => objectWith m inner typeName members
  | raw => Expectation.objectElement.refuse raw

/-- The items of a list, none if there is no list. -/
def itemsOf : Json → Except Failure (List Json)
  | .arr items => .ok items
  | .null => .ok []
  | raw => Expectation.list.refuse raw

/-- The content of a list for the type of its elements, given the shapes of stored values. -/
def listWith (m : Model) (inner : Json → Shaper) (items : List Json) :
    DeclaredType → Except Failure ShapedContent
  | .scalar _ => .ok (.scalars items)
  | .complex typeName => (items.mapM (elementWith m inner typeName)).map ShapedContent.objects
  | .entity typeName => (items.mapM (elementWith m inner typeName)).map ShapedContent.objects
  | .collection _ _ => .error (.materialization .nestedCollection)

/-- The shape of a value, given the shapes of the fields of objects. -/
def step (m : Model) (inner : Json → Shaper) (raw : Json) : Shaper := fun declared =>
  match declared with
  | .scalar _ => .ok ⟨declared, raw, .scalar⟩
  | .complex typeName =>
    match raw with
    | .obj members => do
      let item ← objectWith m inner typeName members
      return ⟨declared, raw, .object .complex item⟩
    | .null => .ok ⟨declared, raw, .absent .complex⟩
    | raw => Expectation.object.refuse raw
  | .entity typeName =>
    match raw with
    | .obj members => do
      let item ← objectWith m inner typeName members
      return ⟨declared, raw, .object .entity item⟩
    | _ => .ok ⟨declared, raw, .absent .entity⟩
  | .collection _ element => do
    let items ← itemsOf raw
    let content ← listWith m inner items element
    return ⟨declared, raw, content⟩

/-! ## Shapes are a fixed point -/

theorem shapeObject_ofMembers (typeName : String) (members : Table Json) :
    shapeObject m typeName (ofMembers m members) = objectWith m (ofJson m) typeName members :=
  congrArg (shapeType m typeName) (funext fun _ => funext fun p => ofField_ofMembers members p)

theorem shapeItems_ofElements (typeName : String) (items : List Json) :
    shapeItems m typeName (ofElements m items) = items.mapM (elementWith m (ofJson m) typeName) := by
  induction items with
  | nil => rfl
  | cons item items ih =>
    rw [List.mapM_cons, ← ih]
    cases item with
    | obj members => rw [ofElements, shapeItems, shapeObject_ofMembers, elementWith]
    | _ => rfl

/-- The shapes of items come with the items. -/
theorem fst_ofElements (items : List Json) : (ofElements m items).map Prod.fst = items := by
  induction items with
  | nil => rfl
  | cons item items ih => cases item <;> exact congrArg _ ih

theorem listContent_ofElements (items : List Json) (element : DeclaredType) :
    listContent m (ofElements m items) element = listWith m (ofJson m) items element := by
  cases element with
  | scalar type => rw [listContent, fst_ofElements, listWith]
  | complex typeName | entity typeName => rw [listContent, listWith, shapeItems_ofElements]
  | collection kind element => rfl

/-- The shape of a value is what a step makes of the shapes of the fields. This is the equation of shaping,
without the bookkeeping by which its recursion is seen to end. -/
theorem ofJson_eq_step (m : Model) (raw : Json) : ofJson m raw = step m (ofJson m) raw := by
  funext declared
  cases raw with
  | obj members =>
    cases declared with
    | complex typeName | entity typeName => rw [ofJson, ofFields, shapeObject_ofMembers, step]
    | scalar type => rfl
    | collection kind element => rfl
  | arr items =>
    cases declared with
    | collection kind element =>
      rw [ofJson, ofItems, listContent_ofElements]
      rfl
    | _ => rfl
  | null =>
    cases declared with
    | collection kind element => cases element <;> rfl
    | _ => rfl
  | bool value | num value | str value => cases declared <;> rfl

/-! ## Repeated steps -/

/-- The shape of an object depends on the shapes of what is stored in it. -/
theorem objectWith_congr {typeName : String} {members : Table Json}
    (h : ∀ raw', raw'.depth < (Json.obj members).depth → inner raw' = inner' raw') :
    objectWith m inner typeName members = objectWith m inner' typeName members :=
  congrArg (shapeType m typeName) (funext fun _ => funext fun _ => h _ (Json.depth_stored_lt members _))

/-- So does the shape of an object in a list. -/
theorem elementWith_congr {typeName : String}
    (h : ∀ raw', raw'.depth < raw.depth → inner raw' = inner' raw') :
    elementWith m inner typeName raw = elementWith m inner' typeName raw := by
  cases raw with
  | obj members => exact objectWith_congr h
  | _ => rfl

/-- So does the content of a list. -/
theorem listWith_congr {items : List Json} (element : DeclaredType)
    (h : ∀ raw', raw'.depth < (Json.arr items).depth → inner raw' = inner' raw') :
    listWith m inner items element = listWith m inner' items element := by
  have hitems (typeName : String) :
      items.mapM (elementWith m inner typeName) = items.mapM (elementWith m inner' typeName) := by
    refine Except.mapM_congr fun item hitem => elementWith_congr fun raw' hraw' => h raw' ?_
    rw [Json.depth]
    exact hraw'.trans_le ((Json.depth_le_depthItems hitem).trans (Nat.le_succ _))
  cases element with
  | complex typeName | entity typeName => rw [listWith, listWith, hitems]
  | _ => rfl

/-- A step looks at the shapes of values that are nested less deeply. -/
theorem step_congr (h : ∀ raw', raw'.depth < raw.depth → inner raw' = inner' raw') :
    step m inner raw = step m inner' raw := by
  funext declared
  cases raw with
  | obj members =>
    cases declared with
    | complex typeName | entity typeName => rw [step, step, objectWith_congr h]
    | _ => rfl
  | arr items =>
    cases declared with
    | collection kind element =>
      show (listWith m inner items element >>= _) = listWith m inner' items element >>= _
      rw [listWith_congr element h]
    | _ => rfl
  | null =>
    cases declared with
    | collection kind element => cases element <;> rfl
    | _ => rfl
  | bool value | num value | str value => cases declared <;> rfl

/-- A step that is repeated more often than a value is deep gives the shape of the value, whatever it starts
with. -/
theorem iterate_step (start : Json → Shaper) {n : Nat} (h : raw.depth < n) :
    (step m)^[n] start raw = ofJson m raw := by
  induction n generalizing raw with
  | zero => exact absurd h (Nat.not_lt_zero _)
  | succ n ih =>
    rw [Function.iterate_succ_apply', ofJson_eq_step]
    exact step_congr fun raw' hraw' => ih (hraw'.trans_le (Nat.lt_succ_iff.mp h))

end Shaper

end DocumentQuery
