import DocumentQuery.Compile.Field
import DocumentQuery.Proofs.Schema.Keys
import DocumentQuery.Proofs.Store.Contents

/-!
# Fields of shaped items

A chain of property names has two readings. Filters, orderings and projections resolve it to a path, whose
stored names are joined by points, and follow the path in the document. Shaping looks every stored name up
as a whole and descends into the objects it finds; what it has at the end of the chain is what instances
are made of.

The readings agree, for values that are missing too, where every property of the chain can be told by its
path (`TypeDecl.Addresses`): its stored name has no point, which would be cut in two, and it is the only
persisted property of its name, for a chain is resolved to the first one and shaping keeps the last. The
identity is read without the document, so of the fields of a row only the key may be stored under its
name. A field whose name has a point is shaped and never found
(`Document.field?_of_pointed`).

None of these conditions can be left out (`Document.disagrees_of_price`), and each of them is a matter of
declarations. The documents are any: where a value is missing or is no object on the way, both readings come
to null, or shaping fails.

## Main definitions

* `Model.Passes` — the properties on the way from a type to a field
* `ShapedItem.follow?` — the object at the end of a chain of embedded objects

## Main results

* `Document.raw_of_shapeEntity` — what is shaped at the end of a chain is the field of its path
-/

namespace DocumentQuery

variable {m : Model}

/-! ## Paths -/

/-- Names without points are the segments of the path they are joined to. -/
theorem FieldRef.segments_joinPath {names : List String} (hne : names ≠ [])
    (h : ∀ name ∈ names, '.' ∉ name.toList) : Text.segments '.' (joinPath names) = names := by
  induction names with
  | nil => exact absurd rfl hne
  | cons name rest ih =>
    have hname : Text.splitChars '.' name.toList = [name.toList] :=
      Text.splitChars_of_not_mem (h name List.mem_cons_self)
    cases rest with
    | nil =>
      rw [joinPath, String.intercalate_singleton, Text.segments, hname]
      simp
    | cons next rest =>
      have hrest : Text.segments '.' (joinPath (next :: rest)) = next :: rest :=
        ih (List.cons_ne_nil _ _) fun s hs => h s (List.mem_cons_of_mem _ hs)
      have hchars : (joinPath (name :: next :: rest)).toList =
          name.toList ++ '.' :: (joinPath (next :: rest)).toList := by
        simp [joinPath, String.intercalate_cons_cons]
      rw [Text.segments, hchars, Text.splitChars_append, hname, List.map_append]
      simpa [Text.segments] using hrest

/-- The members of a value, none unless it is an object, decide where a path leads. -/
theorem Json.follow?_members {path : List String} (hne : path ≠ []) (j : Json) :
    j.follow? path = (Json.obj (j.toObject?.getD [])).follow? path := by
  obtain ⟨name, rest, rfl⟩ := List.exists_cons_of_ne_nil hne
  cases j <;> rfl

/-- A path of one name leads to the field of this name. -/
theorem Json.follow?_singleton (members : Table Json) (name : String) :
    ((Json.obj members).follow? [name]).getD .null = (members.lookup name).getD .null := by
  simp [Json.follow?, Json.member?, Json.toObject?]

/-- A path leads through an object that is stored in a field. -/
theorem Json.follow?_cons_of_getD {members members' : Table Json} {name : String} {path : List String}
    (h : (members.lookup name).getD .null = .obj members') :
    (Json.obj members).follow? (name :: path) = (Json.obj members').follow? path := by
  have hlookup : members.lookup name = some (.obj members') := by
    cases hlookup : members.lookup name with
    | none =>
      rw [hlookup] at h
      exact nomatch h
    | some value =>
      rw [hlookup] at h
      exact congrArg some h
  show (members.lookup name).bind (Json.follow? path) = _
  rw [hlookup]
  rfl

/-! ## The properties on the way to a field -/

/-- The properties that a chain of names passes from a type on, each with the type it belongs to. All
but the last hold embedded objects. -/
inductive Model.Passes (m : Model) : TypeDecl → List String → List (TypeDecl × Property) → Prop
  | last {type : TypeDecl} {name : String} {p : Property} (hp : type.property? name = some p)
      (hpersisted : p.ignored = false) : Passes m type [name] [(type, p)]
  | through {type inner : TypeDecl} {name typeName : String} {p : Property} {names : List String}
      {steps : List (TypeDecl × Property)} (hp : type.property? name = some p)
      (hpersisted : p.ignored = false) (hdeclared : p.declared = .complex typeName)
      (hinner : m.type? typeName = some inner) (hsteps : Passes m inner names steps) :
      Passes m type (name :: names) ((type, p) :: steps)

namespace TypeDecl

variable {type : TypeDecl} {name : String} {p : Property}

/-- A property that is found under a name has it. -/
theorem name_of_property? (h : type.property? name = some p) : p.name = name := by
  simpa using List.find?_some h

/-- A property that is not ignored is persisted. -/
theorem mem_persisted (h : type.property? name = some p) (hpersisted : p.ignored = false) :
    p ∈ type.persisted :=
  List.mem_filter.mpr ⟨List.mem_of_find?_eq_some h, by simp [hpersisted]⟩

end TypeDecl

/-- Properties that can be told by their path: the stored name is one segment, and no other persisted
property of the type has the same name. -/
structure TypeDecl.Addresses (type : TypeDecl) (p : Property) : Prop where
  /-- The stored name is one segment of a path. -/
  pointFree : '.' ∉ p.storedName.toList
  /-- No other persisted property has the name. -/
  alone : ∀ q ∈ type.persisted, q.name = p.name → q = p

/-- The stored names on the way to a field. -/
def storedNames (steps : List (TypeDecl × Property)) : List String :=
  steps.map (·.2.storedName)

/-- The stored names begin with that of the first property. -/
theorem storedNames_cons (step : TypeDecl × Property) (steps : List (TypeDecl × Property)) :
    storedNames (step :: steps) = step.2.storedName :: storedNames steps :=
  rfl

/-- A chain has a name. -/
theorem Model.Passes.ne_nil {type : TypeDecl} {names : List String} {steps : List (TypeDecl × Property)}
    (h : m.Passes type names steps) : names ≠ [] := by
  cases h <;> exact List.cons_ne_nil _ _

/-- A chain is one name, or it leads through the property of its first name. -/
theorem Model.Passes.concat_cases {type : TypeDecl} {parents : List String} {last : String}
    {steps : List (TypeDecl × Property)} (h : m.Passes type (parents ++ [last]) steps) :
    (∃ p, parents = [] ∧ steps = [(type, p)] ∧ type.property? last = some p ∧ p.ignored = false) ∨
      ∃ name rest p typeName inner steps', parents = name :: rest ∧ steps = (type, p) :: steps' ∧
        type.property? name = some p ∧ p.ignored = false ∧ p.declared = .complex typeName ∧
        m.type? typeName = some inner ∧ m.Passes inner (rest ++ [last]) steps' := by
  generalize hnames : parents ++ [last] = names at h
  cases h with
  | last hp hpersisted =>
    obtain ⟨rfl, hlast⟩ | ⟨-, hlast⟩ := List.append_eq_singleton_iff.mp hnames
    · cases hlast
      exact Or.inl ⟨_, rfl, rfl, hp, hpersisted⟩
    · exact nomatch hlast
  | through hp hpersisted hdeclared hinner hsteps =>
    cases parents with
    | nil => exact absurd (List.cons.inj hnames).2.symm hsteps.ne_nil
    | cons name rest =>
      obtain ⟨hname, hrest⟩ := List.cons.inj hnames
      cases hname
      cases hrest
      exact Or.inr ⟨_, rest, _, _, _, _, rfl, rfl, hp, hpersisted, hdeclared, hinner, hsteps⟩

theorem Model.Passes.storedNames_ne_nil {type : TypeDecl} {names : List String}
    {steps : List (TypeDecl × Property)} (h : m.Passes type names steps) : storedNames steps ≠ [] := by
  cases h <;> exact List.cons_ne_nil _ _

namespace FieldRef

variable {type : TypeDecl} {stored written names : List String} {field : FieldRef}

/-- A chain of names that is resolved to a field passes properties. -/
theorem passes_of_locate (h : locate m type stored written names = .ok field) :
    ∃ steps, m.Passes type names steps := by
  induction names generalizing type stored written with
  | nil => exact nomatch h
  | cons name rest ih =>
    unfold locate at h
    split at h
    · split at h <;> exact nomatch h
    next p hp =>
      split at h
      · exact nomatch h
      next hpersisted =>
        have hpersisted : p.ignored = false := Bool.eq_false_iff.mpr hpersisted
        split at h
        · exact ⟨_, .last hp hpersisted⟩
        · split at h
          next typeName hdeclared =>
            unfold Model.typeNamed at h
            cases hinner : m.type? typeName with
            | none =>
              rw [hinner] at h
              exact nomatch h
            | some inner =>
              rw [hinner] at h
              obtain ⟨steps, hsteps⟩ := ih h
              exact ⟨_, .through hp hpersisted hdeclared hinner hsteps⟩
          · exact nomatch h

/-- A chain that is resolved to a field is the key of a row, or the path has the stored names. -/
theorem path_of_locate {steps : List (TypeDecl × Property)} (hsteps : m.Passes type names steps)
    (h : locate m type stored written names = .ok field) :
    (written = [] ∧ ∃ name, names = [name] ∧ type.isKey name = true ∧ field.path = documentIdPath) ∨
      field.path = joinPath (stored ++ storedNames steps) ∧
        ∀ name, names = [name] → written = [] → type.isKey name = false := by
  induction hsteps generalizing stored written with
  | @last type name p hp hpersisted =>
    simp only [locate, hp, hpersisted, Bool.false_eq_true, if_false] at h
    split at h
    next hkey =>
      cases h
      obtain ⟨hwritten, hkey⟩ := Bool.and_eq_true_iff.mp hkey
      exact Or.inl ⟨List.isEmpty_iff.mp hwritten, name, rfl, hkey, rfl⟩
    next hkey =>
      cases h
      refine Or.inr ⟨rfl, fun other hother hwritten => ?_⟩
      cases hother
      simpa [hwritten] using hkey
  | @through type inner name typeName p names steps hp hpersisted hdeclared hinner hsteps ih =>
    obtain ⟨next, rest, rfl⟩ := List.exists_cons_of_ne_nil hsteps.ne_nil
    simp only [locate, hp, hpersisted, Bool.false_eq_true, if_false, hdeclared, Model.typeNamed,
      hinner] at h
    rcases ih h with ⟨hwritten, -⟩ | ⟨hpath, -⟩
    · exact absurd hwritten (List.append_ne_nil_of_right_ne_nil _ (List.cons_ne_nil _ _))
    · refine Or.inr ⟨?_, fun other hother => nomatch hother⟩
      rw [hpath, List.append_assoc]
      rfl

end FieldRef

/-! ## Shapes of stored values -/

namespace Shaper

/-- A shaped value keeps the stored value. -/
theorem raw_ofJson {j : Json} {declared : DeclaredType} {value : ShapedValue}
    (h : ofJson m j declared = .ok value) : value.raw = j := by
  cases j with
  | obj members =>
    unfold ofJson ofFields at h
    split at h
    · cases h
      rfl
    · obtain ⟨item, -, h⟩ := Except.bind_eq_ok.mp h
      cases h
      rfl
    · obtain ⟨item, -, h⟩ := Except.bind_eq_ok.mp h
      cases h
      rfl
    · exact nomatch h
  | arr items =>
    unfold ofJson ofItems at h
    split at h
    · cases h
      rfl
    · exact nomatch h
    · cases h
      rfl
    · obtain ⟨content, -, h⟩ := Except.bind_eq_ok.mp h
      cases h
      rfl
  | null => exact raw_ofLeaf h
  | bool value => exact raw_ofLeaf h
  | num value => exact raw_ofLeaf h
  | str value => exact raw_ofLeaf h

/-- The shaped members are the shapes of the members. -/
theorem lookup_ofMembers (members : Table Json) (name : String) :
    (ofMembers m members).lookup name = (members.lookup name).map (ofJson m) := by
  induction members with
  | nil => rfl
  | cons binding rest ih =>
    obtain ⟨other, value⟩ := binding
    rw [ofMembers, List.lookup_cons, List.lookup_cons]
    cases name == other with
    | true => rfl
    | false => exact ih

/-- The field a property is stored in is shaped as the stored value, and as null if it is missing. -/
theorem ofField_ofMembers (members : Table Json) (p : Property) :
    ofField (ofMembers m members) p = ofJson m ((members.lookup p.storedName).getD .null) := by
  rw [ofField, lookup_ofMembers]
  cases members.lookup p.storedName with
  | none => rfl
  | some value => rfl

end Shaper

/-! ## Shaped objects -/

/-- The embedded object, if there is one. -/
def ShapedValue.embedded? (value : ShapedValue) : Option ShapedItem :=
  match value.content with
  | .object .complex item => some item
  | _ => none

/-- The object at the end of a chain of members that hold embedded objects. -/
def ShapedItem.follow? : List String → ShapedItem → Option ShapedItem
  | [], item => some item
  | name :: rest, item => ((item.lookup name).bind ShapedValue.embedded?).bind (follow? rest)

/-- A chain leads through a member that is the shape of a stored object. -/
theorem Shaper.exists_of_follow? {j : Json} {name typeName : String} {rest : List String}
    {value : ShapedValue} {item owner : ShapedItem} (h : ofJson m j (.complex typeName) = .ok value)
    (hlookup : item.lookup name = some value) (howner : item.follow? (name :: rest) = some owner) :
    ∃ members inner, j = .obj members ∧
      shapeObject m typeName (ofMembers m members) = .ok inner ∧ inner.follow? rest = some owner := by
  rw [ShapedItem.follow?, hlookup] at howner
  obtain ⟨inner, hembedded, howner⟩ := Option.bind_eq_some_iff.mp howner
  cases j with
  | obj members =>
    obtain ⟨inner', hinner, h⟩ := Except.bind_eq_ok.mp h
    cases h
    cases hembedded
    exact ⟨members, inner, rfl, hinner, howner⟩
  | null =>
    cases h
    exact nomatch hembedded
  | arr items => exact nomatch h
  | bool value => exact nomatch h
  | num value => exact nomatch h
  | str value => exact nomatch h

/-- A persisted property that is alone in its type is found under its name. -/
theorem exists_lookup_of_shapeProperties {typeName name : String} {type : TypeDecl} {p : Property}
    {shaper : Property → Shaper} {item : ShapedItem} (hp : type.property? name = some p)
    (hpersisted : p.ignored = false) (halone : ∀ q ∈ type.persisted, q.name = p.name → q = p)
    (h : shapeProperties typeName shaper [] type.persisted = .ok item) :
    ∃ value, shaper p p.declared = .ok value ∧ item.lookup name = some value := by
  have hname : p.name = name := TypeDecl.name_of_property? hp
  rcases lookup_shapeProperties h name with ⟨q, hq, hqname, value, hvalue, hlookup⟩ | ⟨hnone, -⟩
  · cases halone q hq (hqname.trans hname.symm)
    exact ⟨value, hvalue, hlookup⟩
  · exact absurd hname (hnone p (TypeDecl.mem_persisted hp hpersisted))

/-- A shaped object has, under the name of a property, the shape of the field it is stored in. -/
theorem Shaper.exists_lookup_of_shapeObject {type : TypeDecl} {typeName name : String} {p : Property}
    {members : Table Json} {item : ShapedItem} (htype : m.type? typeName = some type)
    (hp : type.property? name = some p) (hpersisted : p.ignored = false)
    (halone : ∀ q ∈ type.persisted, q.name = p.name → q = p)
    (h : shapeObject m typeName (ofMembers m members) = .ok item) :
    ∃ value, ofJson m ((members.lookup p.storedName).getD .null) p.declared = .ok value ∧
      item.lookup name = some value := by
  obtain ⟨type', htype', hshape⟩ := shapeType_eq_ok.mp h
  cases htype.symm.trans htype'
  obtain ⟨value, hvalue, hlookup⟩ := exists_lookup_of_shapeProperties hp hpersisted halone hshape
  rw [ofField_ofMembers] at hvalue
  exact ⟨value, hvalue, hlookup⟩

/-- What a shaped object has at the end of a chain is stored where the stored names lead. -/
theorem Shaper.raw_of_passes {type : TypeDecl} {typeName last : String} {parents : List String}
    {steps : List (TypeDecl × Property)} {members : Table Json} {item owner : ShapedItem}
    (hsteps : m.Passes type (parents ++ [last]) steps)
    (haddresses : ∀ step ∈ steps, step.1.Addresses step.2) (htype : m.type? typeName = some type)
    (hshape : shapeObject m typeName (ofMembers m members) = .ok item)
    (howner : item.follow? parents = some owner) :
    ∃ value, owner.lookup last = some value ∧
      value.raw = ((Json.obj members).follow? (storedNames steps)).getD .null := by
  induction parents generalizing type typeName members item steps with
  | nil =>
    obtain ⟨p, -, rfl, hp, hpersisted⟩ | ⟨_, _, _, _, _, _, hparents, -⟩ := hsteps.concat_cases
    · obtain ⟨value, hvalue, hlookup⟩ := exists_lookup_of_shapeObject htype hp hpersisted
        (haddresses _ List.mem_cons_self).alone hshape
      cases howner
      exact ⟨value, hlookup, (raw_ofJson hvalue).trans (Json.follow?_singleton _ _).symm⟩
    · exact nomatch hparents
  | cons first rest ih =>
    obtain ⟨_, hparents, -⟩ | ⟨name, _, p, innerName, inner, steps', hparents, rfl, hp, hpersisted,
      hdeclared, hinner, hsteps'⟩ := hsteps.concat_cases
    · exact nomatch hparents
    · cases hparents
      obtain ⟨value, hvalue, hlookup⟩ := exists_lookup_of_shapeObject htype hp hpersisted
        (haddresses _ List.mem_cons_self).alone hshape
      rw [hdeclared] at hvalue
      -- an owner is found below the member only if an object was stored there
      obtain ⟨members', inner', hmembers', hshape', howner'⟩ := exists_of_follow? hvalue hlookup howner
      rw [storedNames_cons, Json.follow?_cons_of_getD hmembers']
      exact ih hsteps' (fun step hstep => haddresses step (List.mem_cons_of_mem _ hstep)) hinner
        hshape' howner'

namespace Document

/-- The members of a document, none unless it is an object. -/
def members (d : Document) : Table Json :=
  d.data.toObject?.getD []

/-- The field of a chain that is not the identity is the value that the stored names lead to. -/
theorem field?_of_locate {type : TypeDecl} {names : List String} {steps : List (TypeDecl × Property)}
    {field : FieldRef} (hsteps : m.Passes type names steps)
    (hpoints : ∀ name ∈ storedNames steps, '.' ∉ name.toList)
    (hfield : FieldRef.locate m type [] [] names = .ok field) (hidentity : field.isDocumentId = false)
    (d : Document) :
    d.field? field.path = (Json.obj d.members).follow? (storedNames steps) ∧
      ∀ name, names = [name] → type.isKey name = false := by
  have hne : field.path ≠ documentIdPath := by simpa [FieldRef.isDocumentId] using hidentity
  rcases FieldRef.path_of_locate hsteps hfield with ⟨-, name, -, -, hpath⟩ | ⟨hpath, hkey⟩
  · exact absurd hpath hne
  · have hpath : field.path = FieldRef.joinPath (storedNames steps) := hpath
    refine ⟨?_, fun name hname => hkey name hname rfl⟩
    rw [field?, if_neg hne, Json.at?, hpath,
      FieldRef.segments_joinPath hsteps.storedNames_ne_nil hpoints,
      Json.follow?_members hsteps.storedNames_ne_nil]
    rfl

/-- A document read as an entity has its identity under the name of the key. -/
theorem raw_of_key {type : TypeDecl} {typeName key : String} {p : Property} {d : Document}
    {item : ShapedItem} (htype : m.type? typeName = some type) (hp : type.property? key = some p)
    (hpersisted : p.ignored = false) (hkey : type.isKey key = true)
    (h : d.shapeEntity m typeName = .ok item) :
    ∃ value, item.lookup key = some value ∧ value.raw = .str d.id := by
  obtain ⟨type', htype', hshape⟩ := shapeType_eq_ok.mp h
  cases htype.symm.trans htype'
  rcases lookup_shapeProperties hshape key with ⟨q, -, hqname, value, hvalue, hlookup⟩ | ⟨hnone, -⟩
  · rw [hqname, if_pos hkey] at hvalue
    exact ⟨value, hlookup, Shaper.raw_ofLeaf hvalue⟩
  · exact absurd (TypeDecl.name_of_property? hp) (hnone p (TypeDecl.mem_persisted hp hpersisted))

/-- A document read as an entity has, under the name of a property, the shape of its identity or of the
field the property is stored in. -/
theorem exists_lookup_of_shapeEntity {type : TypeDecl} {typeName name : String} {p : Property}
    {d : Document} {item : ShapedItem} (htype : m.type? typeName = some type)
    (hp : type.property? name = some p) (hpersisted : p.ignored = false)
    (halone : ∀ q ∈ type.persisted, q.name = p.name → q = p)
    (h : d.shapeEntity m typeName = .ok item) :
    ∃ value, Shaper.ofJson m
        (if type.isKey name then .str d.id else (d.members.lookup p.storedName).getD .null)
        p.declared = .ok value ∧ item.lookup name = some value := by
  obtain ⟨type', htype', hshape⟩ := shapeType_eq_ok.mp h
  cases htype.symm.trans htype'
  obtain ⟨value, hvalue, hlookup⟩ := exists_lookup_of_shapeProperties hp hpersisted halone hshape
  rw [TypeDecl.name_of_property? hp] at hvalue
  refine ⟨value, ?_, hlookup⟩
  by_cases hkey : type.isKey name = true
  · rw [if_pos hkey] at hvalue ⊢
    exact hvalue
  · rw [if_neg hkey] at hvalue ⊢
    exact Shaper.ofField_ofMembers d.members p ▸ hvalue

/-- What a document has in its shape at the end of a chain is stored where the stored names lead, if the
chain is not the key alone. -/
theorem raw_of_passes {type : TypeDecl} {typeName last : String} {parents : List String}
    {steps : List (TypeDecl × Property)} {d : Document} {item owner : ShapedItem}
    (hsteps : m.Passes type (parents ++ [last]) steps)
    (haddresses : ∀ step ∈ steps, step.1.Addresses step.2) (htype : m.type? typeName = some type)
    (hkey : ∀ name, parents ++ [last] = [name] → type.isKey name = false)
    (hshape : d.shapeEntity m typeName = .ok item) (howner : item.follow? parents = some owner) :
    ∃ value, owner.lookup last = some value ∧
      value.raw = ((Json.obj d.members).follow? (storedNames steps)).getD .null := by
  obtain ⟨p, rfl, rfl, hp, hpersisted⟩ | ⟨name, rest, p, innerName, inner, steps', rfl, rfl, hp,
    hpersisted, hdeclared, hinner, hsteps'⟩ := hsteps.concat_cases
  · obtain ⟨value, hvalue, hlookup⟩ := exists_lookup_of_shapeEntity htype hp hpersisted
      (haddresses _ List.mem_cons_self).alone hshape
    cases howner
    refine ⟨value, hlookup, (Shaper.raw_ofJson hvalue).trans ?_⟩
    rw [if_neg (Bool.eq_false_iff.mp (hkey last rfl))]
    exact (Json.follow?_singleton _ _).symm
  · obtain ⟨value, hvalue, hlookup⟩ := exists_lookup_of_shapeEntity htype hp hpersisted
      (haddresses _ List.mem_cons_self).alone hshape
    rw [hdeclared] at hvalue
    obtain ⟨members', inner', hmembers', hshape', howner'⟩ :=
      Shaper.exists_of_follow? hvalue hlookup howner
    -- the identity is a text, so the chain leads through a stored field and not through the key
    have hstored : (d.members.lookup p.storedName).getD .null = .obj members' := by
      split at hmembers'
      · exact nomatch hmembers'
      · exact hmembers'
    rw [storedNames_cons, Json.follow?_cons_of_getD hstored]
    exact Shaper.raw_of_passes hsteps'
      (fun step hstep => haddresses step (List.mem_cons_of_mem _ hstep)) hinner hshape' howner'

/-- What a document is shaped to at the end of a chain of property names is what it has in the field that
filters and orderings read for the chain.

The chain is the key, or its field is not the identity and every property on the way can be told by its path.
Of the document it is assumed that it is shaped and that the chain leads to an object in the shape. -/
theorem raw_of_shapeEntity {type : TypeDecl} {typeName last : String} {parents : List String}
    {field : FieldRef} {d : Document} {item owner : ShapedItem}
    (htype : m.type? typeName = some type)
    (hfield : FieldRef.locate m type [] [] (parents ++ [last]) = .ok field)
    (hread : (parents = [] ∧ type.isKey last = true) ∨ field.isDocumentId = false ∧
      ∀ steps, m.Passes type (parents ++ [last]) steps → ∀ step ∈ steps, step.1.Addresses step.2)
    (hshape : d.shapeEntity m typeName = .ok item) (howner : item.follow? parents = some owner) :
    ∃ value, owner.lookup last = some value ∧ value.raw = (d.field? field.path).getD .null := by
  obtain ⟨steps, hsteps⟩ := FieldRef.passes_of_locate hfield
  rcases hread with ⟨rfl, hkey⟩ | ⟨hidentity, haddresses⟩
  · cases howner
    obtain ⟨p, -, rfl, hp, hpersisted⟩ | ⟨_, _, _, _, _, _, hparents, -⟩ := hsteps.concat_cases
    · obtain ⟨value, hlookup, hraw⟩ := raw_of_key htype hp hpersisted hkey hshape
      refine ⟨value, hlookup, hraw.trans ?_⟩
      rcases FieldRef.path_of_locate hsteps hfield with ⟨-, -, -, -, hpath⟩ | ⟨-, hnot⟩
      · rw [hpath, field?, if_pos rfl, Option.getD_some]
      · exact absurd hkey (Bool.eq_false_iff.mp (hnot last rfl rfl))
    · exact nomatch hparents
  · have haddresses : ∀ step ∈ steps, step.1.Addresses step.2 := haddresses steps hsteps
    obtain ⟨hfield, hkey⟩ := field?_of_locate hsteps
      (List.forall_mem_map.mpr fun step hstep => (haddresses step hstep).pointFree) hfield hidentity d
    rw [hfield]
    exact raw_of_passes hsteps haddresses htype hkey hshape howner

/-- A projected member has the stored value of the field it is projected from. -/
theorem raw_of_shapeMember {d : Document} {member : ProjectedMember} {value : ShapedValue}
    (h : d.shapeMember m member = .ok value) : value.raw = (d.field? member.source).getD .null :=
  Shaper.raw_ofJson h

/-- A stored name with a point is never found as a path, unless its first segment is stored too. -/
theorem field?_of_pointed {name : String} {d : Document} (hidentity : name ≠ documentIdPath)
    (hfirst : d.members.lookup ((Text.segments '.' name).headD "") = none) : d.field? name = none := by
  rw [field?, if_neg hidentity, Json.at?]
  cases hsegments : Text.segments '.' name with
  | nil => exact absurd (List.map_eq_nil_iff.mp hsegments) (Text.splitChars_ne_nil _ _)
  | cons first rest =>
    rw [hsegments] at hfirst
    rw [Json.follow?_members (List.cons_ne_nil _ _)]
    exact congrArg (Option.bind · (Json.follow? rest)) hfirst

end Document

/-! ## Shops and prices -/

/-- The type of shops, which have an address. -/
def TypeDecl.shop : TypeDecl :=
  ⟨"Shop", .entity "shops" "Id",
    [.named "Id" (.scalar .string), (Property.named "Address" (.complex "Address")).inField "address"],
    [], []⟩

/-- The type of addresses. -/
def TypeDecl.address : TypeDecl :=
  ⟨"Address", .complex, [(Property.named "City" (.scalar .string)).inField "city"], [], []⟩

/-- The model of shops and addresses. -/
def Model.shops : Model :=
  (empty.withType .shop).withType .address

namespace Document

/-- A shop in Bern. -/
def bakery : Document :=
  ⟨"shops/a", .obj [("address", .obj [("city", .str "Bern")])]⟩

/-- The shaped address of the shop. -/
def bakeryAddress : ShapedItem :=
  [("City", ⟨.scalar .string, .str "Bern", .scalar⟩)]

/-- The city in the address of a shop is read alike. -/
theorem raw_of_shapeEntity_city : ∃ field item value,
    FieldRef.locate .shops .shop [] [] (["Address"] ++ ["City"]) = .ok field ∧
    bakery.shapeEntity .shops "Shop" = .ok item ∧ item.follow? ["Address"] = some bakeryAddress ∧
    bakeryAddress.lookup "City" = some value ∧ value.raw = (bakery.field? field.path).getD .null := by
  have haddresses : ∀ steps, Model.shops.Passes .shop (["Address"] ++ ["City"]) steps →
      ∀ step ∈ steps, step.1.Addresses step.2 := by
    intro steps hsteps
    cases hsteps with
    | through hp hpersisted hdeclared hinner hsteps =>
      cases hp
      cases hdeclared
      cases hinner
      cases hsteps with
      | last hp hpersisted =>
        cases hp
        refine List.forall_mem_cons.mpr ⟨⟨by decide, by decide⟩, ?_⟩
        exact List.forall_mem_singleton.mpr ⟨by decide, by decide⟩
      | through _ _ _ _ hsteps => exact absurd rfl hsteps.ne_nil
  have hfield : ∃ field, FieldRef.locate .shops .shop [] [] (["Address"] ++ ["City"]) = .ok field ∧
      field.isDocumentId = false := ⟨_, rfl, rfl⟩
  obtain ⟨field, hfield, hidentity⟩ := hfield
  have hitem : ∃ item, bakery.shapeEntity .shops "Shop" = .ok item ∧
      item.follow? ["Address"] = some bakeryAddress := ⟨_, rfl, rfl⟩
  obtain ⟨item, hshape, howner⟩ := hitem
  obtain ⟨value, hlookup, hraw⟩ :=
    raw_of_shapeEntity rfl hfield (Or.inr ⟨hidentity, haddresses⟩) hshape howner
  exact ⟨field, item, value, hfield, hshape, howner, hlookup, hraw⟩

/-! ## Fields that are read in two ways -/

/-- Documents of a type whose shape has another value under a name than the field that the name is
resolved to. -/
def Disagrees (m : Model) (typeName name : String) (d : Document) : Prop :=
  ∃ type field item value, m.type? typeName = some type ∧
    FieldRef.locate m type [] [] [name] = .ok field ∧ d.shapeEntity m typeName = .ok item ∧
    item.lookup name = some value ∧ value.raw ≠ (d.field? field.path).getD .null

/-- The type of items, each with an identity and properties for its price. -/
def items (prices : List String) : Model :=
  .withType .empty ⟨"Item", .entity "items" "Id",
    .named "Id" (.scalar .string) ::
      prices.map fun field => (Property.named "Price" (.scalar .int)).inField field, [], []⟩

/-- None of the conditions for one reading can be left out: a stored name has a point, it is the name of the
identity, or two properties have one name. -/
theorem disagrees_of_price :
    Disagrees (items ["unit.price"]) "Item" "Price" ⟨"items/a", .obj [("unit.price", .int 5)]⟩ ∧
    Disagrees (items ["__name__"]) "Item" "Price" ⟨"items/a", .obj [("__name__", .int 5)]⟩ ∧
    Disagrees (items ["net", "gross"]) "Item" "Price"
      ⟨"items/a", .obj [("gross", .int 6), ("net", .int 5)]⟩ := by
  refine ⟨⟨_, _, _, _, rfl, rfl, rfl, rfl, ?_⟩, ⟨_, _, _, _, rfl, rfl, rfl, rfl, ?_⟩,
    ⟨_, _, _, _, rfl, rfl, rfl, rfl, ?_⟩⟩
  · exact fun h : Json.int 5 = .null => nomatch h
  · exact fun h : Json.int 5 = .str "a" => nomatch h
  · exact fun h : Json.int 6 = .int 5 => nomatch h

end Document

end DocumentQuery
