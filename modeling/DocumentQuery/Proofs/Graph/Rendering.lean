import DocumentQuery.Proofs.Graph.References
import DocumentQuery.Proofs.Lists

/-!
# Graphs that are shown alike

Two graphs show a value alike when their instances correspond, so that corresponding instances have the
same names and fields that correspond. The numbers of the instances do not matter, but sharing does: an
instance that is being shown already is replaced by a reference, so on corresponding ways the same
instances have to be met again.

For most instances that is a matter of the correspondence being one to one. An instance without identity
is not determined by what it corresponds to, and two of them may look the same. Such an instance is never
met again, though, because only one instance refers to it and that one would have to be met again first
(`Graph.Trail.not_mem`).

The correspondence need not be a bijection between all instances: those that are never shown may be left out,
and bound ones may be paired in more than one way. `Graph.Twins` asks for what the proof uses and no more, so
that it can be established for two runs that make different numbers of instances.

## Main definitions

* `Value.Agree` — values that are shown alike if the instances they refer to are
* `Graph.Trail` — the ways on which instances are met
* `Graph.Twins` — a correspondence between the instances of two graphs

## Main results

* `Graph.Twins.render_eq` — corresponding values are shown alike
-/

namespace DocumentQuery

/-! ## Values -/

namespace Value

variable {R : InstanceId → InstanceId → Prop}

/-- Whether two values are shown alike if corresponding instances are. It is said of all ways in which
instances may be shown, so that it does not depend on the graphs. -/
def Agree (R : InstanceId → InstanceId → Prop) (v v' : Value) : Prop :=
  ∀ object object' : InstanceId → Json,
    (∀ id ∈ v.references, ∀ id' ∈ v'.references, R id id' → object id = object' id') →
    v.toJsonWith object = v'.toJsonWith object'

mutual

/-- A value without references is shown as it is. -/
theorem toJsonWith_congr (object object' : InstanceId → Json) : (v : Value) →
    (∀ id ∈ v.references, object id = object' id) → v.toJsonWith object = v.toJsonWith object'
  | .null, _ | .bool _, _ | .int _, _ | .float _, _ | .string _, _ | .timestamp _, _ | .enum _ _, _ => by
    simp only [toJsonWith]
  | .object id, h => by
    simpa only [toJsonWith] using h id (by rw [references_object]; exact List.mem_singleton.mpr rfl)
  | .collection kind items, h => by
    rw [references_collection] at h
    simp only [toJsonWith, toJsonItems_congr object object' items h]

theorem toJsonItems_congr (object object' : InstanceId → Json) : (items : List Value) →
    (∀ id ∈ referencesOf items, object id = object' id) →
    toJsonItems object items = toJsonItems object' items
  | [], _ => by simp only [toJsonItems]
  | v :: vs, h => by
    rw [referencesOf] at h
    simp only [toJsonItems, toJsonWith_congr object object' v fun id hid => h id (List.mem_append_left _ hid),
      toJsonItems_congr object object' vs fun id hid => h id (List.mem_append_right _ hid)]

end

/-- A value without references agrees with itself. -/
theorem Agree.of_references_eq_nil {v : Value} (h : v.references = []) : Agree R v v :=
  fun object object' _ => toJsonWith_congr object object' v fun id hid => by rw [h] at hid; cases hid

/-- Agreement can be turned around with the correspondence. -/
theorem Agree.flip {R' : InstanceId → InstanceId → Prop} {v v' : Value} (h : v.Agree R v')
    (hflip : ∀ id id', R id id' → R' id' id) : v'.Agree R' v :=
  fun object object' hobjects => (h object' object fun id hid id' hid' hr =>
    (hobjects id' hid' id hid (hflip id id' hr)).symm).symm

/-- Corresponding instances agree. -/
theorem Agree.object {id id' : InstanceId} (h : R id id') : Agree R (.object id) (.object id') := by
  intro object object' hobjects
  simp only [toJsonWith]
  exact hobjects id (by simp) id' (by simp) h

theorem toJsonItems_objects (object : InstanceId → Json) (ids : List InstanceId) :
    toJsonItems object (ids.map .object) = ids.map object := by
  induction ids with
  | nil => rfl
  | cons id ids ih => simp only [List.map_cons, toJsonItems, toJsonWith, ih]

/-- Collections of corresponding instances agree, one by one. -/
theorem Agree.objects {kind : CollectionKind} {pairs : List (InstanceId × InstanceId)}
    (h : ∀ p ∈ pairs, R p.1 p.2) :
    Agree R (.collection kind ((pairs.map Prod.fst).map .object))
      (.collection kind ((pairs.map Prod.snd).map .object)) := by
  intro object object' hobjects
  rw [references_collection, references_collection, referencesOf_objects, referencesOf_objects]
    at hobjects
  simp only [toJsonWith]
  rw [toJsonItems_objects, toJsonItems_objects, List.map_map, List.map_map]
  exact congrArg Json.arr (List.map_congr_left fun p hp =>
    hobjects p.1 (List.mem_map_of_mem hp) p.2 (List.mem_map_of_mem hp) (h p hp))

/-- Whether pairs of instances repeat on the one side what they repeat on the other. -/
def RepeatAlike (pairs : List (InstanceId × InstanceId)) : Prop :=
  ∀ p ∈ pairs, ∀ p' ∈ pairs, p.1 = p'.1 ↔ p.2 = p'.2

/-- An instance is among objects exactly if it is one of them. -/
theorem any_same_objects (id : InstanceId) (ids : List InstanceId) :
    (ids.map object).any (·.same (.object id)) = ids.contains id := by
  induction ids with
  | nil => rfl
  | cons first ids ih =>
    rw [List.map_cons, List.any_cons, ih, List.contains_cons, same]
    congr 1
    exact Bool.beq_comm

/-- Instances that are the same on one side if they are on the other are kept on both sides alike. -/
theorem exists_distinct {pairs kept : List (InstanceId × InstanceId)}
    (h : RepeatAlike (kept ++ pairs)) : ∃ result, result ⊆ kept ++ pairs ∧
      ((pairs.map Prod.fst).map object).foldl addDistinct ((kept.map Prod.fst).map object) =
        (result.map Prod.fst).map object ∧
      ((pairs.map Prod.snd).map object).foldl addDistinct ((kept.map Prod.snd).map object) =
        (result.map Prod.snd).map object := by
  induction pairs generalizing kept with
  | nil => exact ⟨kept, by simp, rfl, rfl⟩
  | cons p pairs ih =>
    have hp : p ∈ kept ++ p :: pairs := by simp
    -- whether an instance was met before is the same question on both sides
    have hmem : (kept.map Prod.fst).contains p.1 = (kept.map Prod.snd).contains p.2 := by
      rw [Bool.eq_iff_iff, List.contains_iff_mem, List.contains_iff_mem, List.mem_map, List.mem_map]
      constructor
      · rintro ⟨p', hp', he⟩
        exact ⟨p', hp', (h p' (List.mem_append_left _ hp') p hp).mp he⟩
      · rintro ⟨p', hp', he⟩
        exact ⟨p', hp', (h p' (List.mem_append_left _ hp') p hp).mpr he⟩
    simp only [List.map_cons, List.foldl_cons, addDistinct, any_same_objects, hmem]
    cases (kept.map Prod.snd).contains p.2 with
    | true =>
      have hsub : kept ++ pairs ⊆ kept ++ p :: pairs := by
        intro p' hp'
        rcases List.mem_append.mp hp' with hp' | hp'
        · exact List.mem_append_left _ hp'
        · exact List.mem_append_right _ (List.mem_cons_of_mem p hp')
      obtain ⟨result, hresult, hfst, hsnd⟩ :=
        ih fun p hp p' hp' => h p (hsub hp) p' (hsub hp')
      exact ⟨result, fun p' hp' => hsub (hresult hp'), hfst, hsnd⟩
    | false =>
      have happend : kept ++ p :: pairs = (kept ++ [p]) ++ pairs := by simp
      rw [happend] at h ⊢
      obtain ⟨result, hresult, hfst, hsnd⟩ := ih h
      refine ⟨result, hresult, ?_, ?_⟩
      · simpa using hfst
      · simpa using hsnd

/-- Collections of corresponding instances agree, sets included, if an instance is repeated on one side
exactly where it is repeated on the other. -/
theorem Agree.collect {kind : CollectionKind} {pairs : List (InstanceId × InstanceId)}
    (h : ∀ p ∈ pairs, R p.1 p.2) (hrepeat : RepeatAlike pairs) :
    Agree R (Value.collect kind ((pairs.map Prod.fst).map .object))
      (Value.collect kind ((pairs.map Prod.snd).map .object)) := by
  cases kind with
  | set =>
    obtain ⟨result, hresult, hfst, hsnd⟩ := @exists_distinct pairs [] hrepeat
    simp only [List.map_nil] at hfst hsnd
    simp only [Value.collect, distinct, hfst, hsnd]
    exact Agree.objects fun p hp => h p (hresult hp)
  | list | sequence => exact Agree.objects h

end Value

/-! ## Ways -/

namespace Graph

/-- Whether an instance has a field that refers to another. -/
def Refers (g : Graph) (owner id : InstanceId) : Prop :=
  ∃ i, g.instances[owner]? = some i ∧ ∃ field ∈ i.fields, id ∈ field.2.references

/-- Whether an instance may be met next on a way: at its beginning, if it is not bound to an owner, or by
a reference of the instance met last. -/
def Enters (g : Graph) (bound : InstanceId → Prop) (id : InstanceId) : List InstanceId → Prop
  | [] => ¬ bound id
  | owner :: _ => g.Refers owner id

/-- The ways on which instances are met, the last one first: no instance is met twice. -/
inductive Trail (g : Graph) (bound : InstanceId → Prop) : List InstanceId → Prop
  | nil : Trail g bound []
  | cons {id : InstanceId} {way : List InstanceId} (enters : g.Enters bound id way) (new : id ∉ way)
      (trail : Trail g bound way) : Trail g bound (id :: way)

namespace Trail

variable {g : Graph} {bound : InstanceId → Prop} {way : List InstanceId} {id owner : InstanceId}

/-- A bound instance on a way was met after its owner. -/
theorem owner_mem (h : Trail g bound way) (hbound : bound id)
    (howner : ∀ other, g.Refers other id → other = owner) (hid : id ∈ way) : owner ∈ way.tail := by
  induction h with
  | nil => cases hid
  | @cons first way enters new trail ih =>
    rcases List.mem_cons.mp hid with rfl | hid
    · cases way with
      | nil => exact absurd hbound enters
      | cons last way =>
        rw [howner last enters]
        exact List.mem_cons_self
    · exact List.mem_of_mem_tail (ih hid)

/-- A bound instance is not met again. -/
theorem not_mem (h : Trail g bound way) (hbound : bound id)
    (howner : ∀ other other', g.Refers other id → g.Refers other' id → other = other')
    (henters : g.Enters bound id way) : id ∉ way := by
  intro hid
  cases h with
  | nil => cases hid
  | @cons last way enters new trail =>
    -- the way ends with the owner, which was met before as well
    exact new ((cons enters new trail).owner_mem hbound
      (fun other hother => howner other last hother henters) hid)

end Trail

/-! ## Correspondences -/

/-- A correspondence between the instances of two graphs. Instances without identity are bound to the one
owner that refers to them. -/
structure Twins (g g' : Graph) (bound bound' : InstanceId → Prop)
    (R : InstanceId → InstanceId → Prop) : Prop where
  /-- Corresponding instances have the same names, and fields of the same names with values that agree. -/
  fields : ∀ id id', R id id' → ∃ i i', g.instances[id]? = some i ∧ g'.instances[id']? = some i' ∧
    i.label = i'.label ∧
    List.Forall₂ (fun f f' => f.1 = f'.1 ∧ f.2.Agree R f'.2) i.fields i'.fields
  /-- An instance is bound to an owner exactly if the one it corresponds to is. -/
  bound_iff : ∀ id id', R id id' → (bound id ↔ bound' id')
  /-- An instance that is not bound corresponds to one only. -/
  unique : ∀ id id' other, R id id' → R id other → ¬ bound id → id' = other
  unique' : ∀ id id' other, R id id' → R other id' → ¬ bound id → id = other
  /-- Only one instance refers to a bound one. -/
  owner : ∀ id other other', bound id → g.Refers other id → g.Refers other' id → other = other'
  owner' : ∀ id other other', bound' id → g'.Refers other id → g'.Refers other' id → other = other'

namespace Twins

variable {g g' : Graph} {bound bound' : InstanceId → Prop} {R : InstanceId → InstanceId → Prop}

/-- On corresponding ways corresponding instances are met again alike. For instances that are not bound this
is uniqueness; a bound one is not on the way at all. -/
theorem contains_eq (ht : Twins g g' bound bound' R) {way way' : List InstanceId}
    (hway : List.Forall₂ R way way') (htrail : g.Trail bound way) (htrail' : g'.Trail bound' way')
    {id id' : InstanceId} (hid : R id id') (henters : g.Enters bound id way)
    (henters' : g'.Enters bound' id' way') : way.contains id = way'.contains id' := by
  by_cases hbound : bound id
  · have hnot := htrail.not_mem hbound (ht.owner id · · hbound) henters
    have hbound' := (ht.bound_iff id id' hid).mp hbound
    have hnot' := htrail'.not_mem hbound' (ht.owner' id' · · hbound') henters'
    rw [Bool.eq_false_iff.mpr (mt List.contains_iff_mem.mp hnot),
      Bool.eq_false_iff.mpr (mt List.contains_iff_mem.mp hnot')]
  · rw [Bool.eq_iff_iff, List.contains_iff_mem, List.contains_iff_mem]
    constructor
    · intro hmem
      obtain ⟨other, hother, hr⟩ := exists_of_forall₂ hway hmem
      exact ht.unique id id' other hid hr hbound ▸ hother
    · intro hmem
      obtain ⟨other, hother, hr⟩ := exists_of_forall₂ hway.flip hmem
      exact ht.unique' id id' other hid hr hbound ▸ hother

/-- Corresponding instances are shown alike on corresponding ways. By induction on the instances that are not
yet on the way, as showing them is defined. -/
theorem renderInstance_eq (ht : Twins g g' bound bound' R) {way way' : List InstanceId}
    (hway : List.Forall₂ R way way') (htrail : g.Trail bound way) (htrail' : g'.Trail bound' way')
    {id id' : InstanceId} (hid : R id id') (henters : g.Enters bound id way)
    (henters' : g'.Enters bound' id' way') :
    g.renderInstance way id = g'.renderInstance way' id' := by
  induction hn : g.remaining way using Nat.strongRecOn generalizing way way' id id' with
  | _ n ih =>
    subst hn
    obtain ⟨i, i', hi, hi', hlabel, hfields⟩ := ht.fields id id' hid
    have hcontains := ht.contains_eq hway htrail htrail' hid henters henters'
    obtain ⟨hlt, hget⟩ := Array.getElem?_eq_some_iff.mp hi
    obtain ⟨hlt', hget'⟩ := Array.getElem?_eq_some_iff.mp hi'
    rw [renderInstance, renderInstance, dif_pos hlt, dif_pos hlt', hget, hget']
    cases hmet : way'.contains id' with
    | true =>
      rw [hmet] at hcontains
      simp only [hcontains, dite_true, reference, hlabel]
    | false =>
      rw [hmet] at hcontains
      have hnew : id ∉ way := mt List.contains_iff_mem.mpr (Bool.eq_false_iff.mp hcontains)
      have hnew' : id' ∉ way' := mt List.contains_iff_mem.mpr (Bool.eq_false_iff.mp hmet)
      simp only [hcontains, Bool.false_eq_true, dite_false]
      refine congrArg Json.obj (map_eq_map_of_forall₂ hfields fun f hf f' hf' ⟨hname, hagree⟩ => ?_)
      rw [hname, hagree]
      intro inner hinner inner' hinner' hr
      exact ih _ (remaining_cons_lt hlt hcontains) (.cons hid hway) (.cons henters hnew htrail)
        (.cons henters' hnew' htrail') hr ⟨i, hi, f, hf, hinner⟩ ⟨i', hi', f', hf', hinner'⟩ rfl

/-- Values that agree are shown alike, if nothing in them is bound to an owner. -/
theorem render_eq (ht : Twins g g' bound bound' R) {v v' : Value} (hv : v.Agree R v')
    (hfree : ∀ id ∈ v.references, ¬ bound id) : g.render v = g'.render v' := by
  refine hv _ _ fun id hid id' _ hr => ?_
  have hbound := hfree id hid
  exact ht.renderInstance_eq .nil .nil .nil hr hbound
    fun hbound' => hbound ((ht.bound_iff id id' hr).mpr hbound')

end Twins

end Graph

end DocumentQuery
