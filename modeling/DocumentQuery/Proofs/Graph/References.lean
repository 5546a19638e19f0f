import DocumentQuery.Instance.Materialize
import DocumentQuery.Proofs.Success

/-!
# References between instances

A value refers to instances when it is an object or a collection that holds objects. A stored scalar is
converted to a value that refers to none, and a collection refers to nothing but what it was collected
from.

Instances are numbers, and a value holds them as such; nothing here looks an instance up. That the numbers are
those of instances in the graph is a matter of how the graph was made, and is said where it is needed.

## Main definitions

* `Value.references` — the instances a value refers to
* `Graph.Reachable` — the instances that can be reached from values through fields
-/

namespace DocumentQuery

namespace Value

mutual

/-- The instances a value refers to. -/
def references : Value → List InstanceId
  | .null | .bool _ | .int _ | .float _ | .string _ | .timestamp _ | .enum _ _ => []
  | .object id => [id]
  | .collection _ items => referencesOf items

/-- The instances that values refer to. -/
def referencesOf : List Value → List InstanceId
  | [] => []
  | v :: vs => references v ++ referencesOf vs

end

@[simp] theorem references_object (id : InstanceId) : (object id).references = [id] := by
  rw [references]

@[simp] theorem references_collection (kind : CollectionKind) (items : List Value) :
    (collection kind items).references = referencesOf items := by
  rw [references]

@[simp] theorem references_null : null.references = [] := by
  rw [references]

/-- Values refer to what one of them refers to. -/
theorem mem_referencesOf {id : InstanceId} {vs : List Value} :
    id ∈ referencesOf vs ↔ ∃ v ∈ vs, id ∈ v.references := by
  induction vs with
  | nil => simp [referencesOf]
  | cons v vs ih => simp [referencesOf, ih]

/-- Objects refer to the instances they are. -/
theorem referencesOf_objects (ids : List InstanceId) : referencesOf (ids.map object) = ids := by
  induction ids with
  | nil => rfl
  | cons id ids ih => simp [referencesOf, ih]

/-- Values that are kept once each are among those that were there or were added. -/
theorem mem_of_mem_foldl_addDistinct {v : Value} {items values : List Value}
    (h : v ∈ items.foldl addDistinct values) : v ∈ values ∨ v ∈ items := by
  induction items generalizing values with
  | nil => exact Or.inl h
  | cons item items ih =>
    rcases ih h with h | h
    · unfold addDistinct at h
      split at h
      · exact Or.inl h
      · rcases List.mem_append.mp h with h | h
        · exact Or.inl h
        · exact Or.inr (List.mem_cons.mpr (Or.inl (List.mem_singleton.mp h)))
    · exact Or.inr (List.mem_cons_of_mem _ h)

theorem mem_of_mem_distinct {v : Value} {items : List Value} (h : v ∈ distinct items) : v ∈ items :=
  (mem_of_mem_foldl_addDistinct h).resolve_left fun h => by cases h

/-- A collection refers to nothing but what it is collected from. A set keeps fewer of its items than a list,
so the converse would need that they are different. -/
theorem references_collect {kind : CollectionKind} {items : List Value} {id : InstanceId}
    (h : id ∈ (collect kind items).references) : ∃ v ∈ items, id ∈ v.references := by
  cases kind with
  | set =>
    rw [collect, references_collection] at h
    obtain ⟨v, hv, hid⟩ := mem_referencesOf.mp h
    exact ⟨v, mem_of_mem_distinct hv, hid⟩
  | list | sequence =>
    rw [collect, references_collection] at h
    exact mem_referencesOf.mp h
    all_goals intro h; cases h

theorem references_collect_objects {kind : CollectionKind} {ids : List InstanceId} {id : InstanceId}
    (h : id ∈ (collect kind (ids.map object)).references) : id ∈ ids := by
  obtain ⟨v, hv, hid⟩ := references_collect h
  obtain ⟨id', hid', rfl⟩ := List.mem_map.mp hv
  rw [references_object, List.mem_singleton] at hid
  exact hid ▸ hid'

/-- A value is read as an instance if it is an object. -/
theorem toObject?_eq_some {v : Value} {id : InstanceId} : v.toObject? = some id ↔ v = .object id := by
  cases v <;> simp [toObject?]

end Value

/-! ## Converted scalars -/

theorem Json.references_toVariant {m : Model} {name : String} {raw : Json} {v : Value}
    (h : raw.toVariant m name = .ok v) : v.references = [] := by
  unfold toVariant at h
  split at h
  · cases h
  · split at h
    · cases h
      rfl
    · cases h

/-- A scalar refers to no instance, whatever was stored and however it was converted. -/
theorem ScalarType.references_convert {m : Model} {type : ScalarType} {raw : Json} {v : Value}
    (h : type.convert m raw = .ok v) : v.references = [] := by
  unfold convert at h
  split at h
  · cases h
    rfl
  · cases type with
    | bool | float | string =>
      simp only [convertPresent] at h
      split at h
      · cases h
        rfl
      · cases h
    | int | timestamp =>
      obtain ⟨_, -, rfl⟩ := Except.map_eq_ok.mp h
      rfl
    | enum name => exact Json.references_toVariant h

theorem references_convertAll {m : Model} {items : List Json} {declared : DeclaredType} {v : Value}
    (h : convertAll m items declared = .ok v) : v.references = [] := by
  unfold convertAll at h
  split at h
  · obtain ⟨values, hvalues, h⟩ := Except.bind_eq_ok.mp h
    cases h
    refine List.eq_nil_iff_forall_not_mem.mpr fun id hid => ?_
    obtain ⟨v, hv, hid⟩ := Value.references_collect hid
    obtain ⟨raw, -, hraw⟩ := Except.mem_of_mapM_eq_ok hvalues hv
    rw [ScalarType.references_convert hraw] at hid
    cases hid
  · cases h
  · cases h

/-! ## Reachability -/

namespace Graph

/-- The instances that can be reached from values through fields, in any number of steps. Loading a query
reaches what it includes. -/
inductive Reachable (g : Graph) (values : List Value) : InstanceId → Prop
  | value {v : Value} {id : InstanceId} (hv : v ∈ values) (hid : id ∈ v.references) :
      Reachable g values id
  | field {owner id : InstanceId} {name : String} {v : Value} (h : Reachable g values owner)
      (hv : g.field? owner name = some v) (hid : id ∈ v.references) : Reachable g values id

end Graph

end DocumentQuery
