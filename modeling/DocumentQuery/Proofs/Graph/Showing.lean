import DocumentQuery.Proofs.Graph.Rendering
import Mathlib.Data.List.Induction
import Mathlib.Logic.Relation

/-!
# How a graph is shown

A graph is shown by following its references, and it may have cycles. What keeps this from going on forever
is the way: the instances that are being shown. `Graph.Shows` is showing as it is done step by step, with
one way for all steps: an instance is put on it before its fields are shown and taken off it afterwards.
Every value is shown in finitely many steps, in one manner only, and the way is then what it was before
(`Graph.shows_iff`).

Where the document has a reference in place of an instance is told by the positions in it.
`Graph.Meets` follows a value into its items and, through instances that are not on the way, into their
fields. An instance that is met is shown by a reference if it is on the way then, and otherwise in full,
with all of its fields (`Graph.exists_part_of_meets`), and the document has no other parts than those of
the values that are met and the texts of the references (`Graph.meets_of_part?`). An instance is met on the
way at all only if a cycle can be reached (`Graph.meetsAgain_iff`).

Positions are numbers, and not names and indices, because the members of a document are in a fixed order and
an item and a member are then followed alike. A reference has a text of its own at position 0, which no value
was met at; this is the one exception in what the parts of a document are.

## Main definitions

* `Graph.Shows` — showing values, step by step
* `Json.part?`, `Graph.Meets` — the values that are met at the positions of a document

## Main results

* `Graph.render_terminates` — every value is shown, with references exactly on the way
-/

namespace DocumentQuery

/-! ## Documents -/

/-- The part of a document at a position: which item or which member to go on with. -/
def Json.part? : List Nat → Json → Option Json
  | [], j => some j
  | n :: position, .arr items => items[n]?.bind (part? position)
  | n :: position, .obj members => (members[n]?.map Prod.snd).bind (part? position)
  | _ :: _, _ => none

/-- The part at a longer position is a part of the one before it. -/
theorem Json.part?_concat (position : List Nat) (n : Nat) (j : Json) :
    j.part? (position ++ [n]) = (j.part? position).bind (part? [n]) := by
  induction position generalizing j with
  | nil => rfl
  | cons k position ih =>
    cases j with
    | arr items =>
      simp only [List.cons_append, part?, Option.bind_assoc]
      exact congrArg (items[k]?.bind ·) (funext ih)
    | obj members =>
      simp only [List.cons_append, part?, Option.bind_assoc]
      exact congrArg ((members[k]?.map Prod.snd).bind ·) (funext ih)
    | _ => rfl

/-- The document of a value that is neither an object nor a collection. -/
def Value.leaf? : Value → Option Json
  | .null => some .null
  | .bool b => some (.bool b)
  | .int i => some (.int i)
  | .float f => some (Json.ofFloat f)
  | .string s => some (.str s)
  | .timestamp t => some (.str t.text)
  | .enum _ variant => some (.str variant)
  | .object _ | .collection _ _ => none

namespace Value

/-- A value without parts has the same document, however instances are shown. -/
theorem toJsonWith_of_leaf? {v : Value} {j : Json} (h : v.leaf? = some j) (object : InstanceId → Json) :
    v.toJsonWith object = j := by
  cases v with
  | object id => cases h
  | collection kind items => cases h
  | timestamp t =>
    cases h
    rw [toJsonWith]
    rfl
  | _ =>
    cases h
    rw [toJsonWith]

theorem toJsonItems_eq_map (object : InstanceId → Json) (items : List Value) :
    toJsonItems object items = items.map (·.toJsonWith object) := by
  induction items with
  | nil => rw [toJsonItems, List.map_nil]
  | cons v vs ih => rw [toJsonItems, ih, List.map_cons]

end Value

namespace Graph

variable {g : Graph} {way way' : List InstanceId} {v : Value} {id : InstanceId} {i : Instance}

/-! ## Step by step -/

/-- Showing values one after the other, with the way before and the way afterwards. The way is a state that is
changed on the way down and changed back on the way up, as a program would have it. -/
inductive Shows (g : Graph) : List InstanceId → List Value → List Json → List InstanceId → Prop
  /-- Where there is nothing to show, the way stays. -/
  | nil {way : List InstanceId} : Shows g way [] [] way
  /-- A value without parts is shown at once. -/
  | leaf {way way' : List InstanceId} {v : Value} {vs : List Value} {j : Json} {js : List Json}
      (hleaf : v.leaf? = some j) (rest : Shows g way vs js way') : Shows g way (v :: vs) (j :: js) way'
  /-- The items of a collection are shown one after the other. -/
  | collection {way between way' : List InstanceId} {kind : CollectionKind} {items vs : List Value}
      {docs js : List Json} (inner : Shows g way items docs between) (rest : Shows g between vs js way') :
      Shows g way (.collection kind items :: vs) (.arr docs :: js) way'
  /-- An instance that is being shown is not shown again. -/
  | reference {way way' : List InstanceId} {id : InstanceId} {i : Instance} {vs : List Value}
      {js : List Json} (found : g.instances[id]? = some i) (again : id ∈ way)
      (rest : Shows g way vs js way') : Shows g way (.object id :: vs) (reference i :: js) way'
  /-- The fields of an instance are shown while it is on the way; then it is taken off. -/
  | full {way between way' : List InstanceId} {id : InstanceId} {i : Instance} {vs : List Value}
      {docs js : List Json} (found : g.instances[id]? = some i) (new : id ∉ way)
      (inner : Shows g (id :: way) (i.fields.map Prod.snd) docs between)
      (rest : Shows g between.tail vs js way') :
      Shows g way (.object id :: vs) (.obj (i.fields.names.zip docs) :: js) way'
  /-- An instance that the graph does not have is shown as null. -/
  | missing {way way' : List InstanceId} {id : InstanceId} {vs : List Value} {js : List Json}
      (lost : g.instances[id]? = none) (rest : Shows g way vs js way') :
      Shows g way (.object id :: vs) (.null :: js) way'

/-- An instance on the way is shown by a reference. -/
theorem renderInstance_of_mem (h : g.instances[id]? = some i) (hway : id ∈ way) :
    g.renderInstance way id = reference i := by
  obtain ⟨hlt, rfl⟩ := Array.getElem?_eq_some_iff.mp h
  rw [renderInstance, dif_pos hlt, dif_pos (List.contains_iff_mem.mpr hway)]

/-- An instance that is not on the way is shown with its fields, while it is on the way. -/
theorem renderInstance_of_not_mem (h : g.instances[id]? = some i) (hway : id ∉ way) :
    g.renderInstance way id = .obj (i.fields.map fun (name, value) =>
      (name, value.toJsonWith (g.renderInstance (id :: way)))) := by
  obtain ⟨hlt, rfl⟩ := Array.getElem?_eq_some_iff.mp h
  rw [renderInstance, dif_pos hlt, dif_neg (mt List.contains_iff_mem.mp hway)]

theorem renderInstance_of_none (h : g.instances[id]? = none) : g.renderInstance way id = .null := by
  rw [renderInstance, dif_neg (Nat.not_lt.mpr (Array.getElem?_eq_none_iff.mp h))]

/-- The documents of the fields, with their names. -/
theorem zip_names (object : InstanceId → Json) (fields : Table Value) :
    fields.names.zip ((fields.map Prod.snd).map (·.toJsonWith object)) =
      fields.map fun (name, value) => (name, value.toJsonWith object) := by
  induction fields with
  | nil => rfl
  | cons field fields ih => exact congrArg _ ih

/-- What is shown step by step is what is rendered, and the way is left as it was. -/
theorem Shows.eq {vs : List Value} {js : List Json} (h : g.Shows way vs js way') :
    js = vs.map (·.toJsonWith (g.renderInstance way)) ∧ way' = way := by
  induction h with
  | nil => exact ⟨rfl, rfl⟩
  | leaf hleaf rest ih =>
    rw [List.map_cons, Value.toJsonWith_of_leaf? hleaf, ih.1]
    exact ⟨rfl, ih.2⟩
  | collection inner rest ihInner ih =>
    obtain ⟨rfl, rfl⟩ := ihInner
    obtain ⟨rfl, rfl⟩ := ih
    rw [List.map_cons, Value.toJsonWith, Value.toJsonItems_eq_map]
    exact ⟨rfl, rfl⟩
  | reference found again rest ih =>
    rw [List.map_cons, Value.toJsonWith, renderInstance_of_mem found again, ih.1]
    exact ⟨rfl, ih.2⟩
  | full found new inner rest ihInner ih =>
    obtain ⟨rfl, rfl⟩ := ihInner
    obtain ⟨rfl, rfl⟩ := ih
    rw [List.map_cons, Value.toJsonWith, renderInstance_of_not_mem found new, zip_names]
    exact ⟨rfl, rfl⟩
  | missing lost rest ih =>
    rw [List.map_cons, Value.toJsonWith, renderInstance_of_none lost, ih.1]
    exact ⟨rfl, ih.2⟩

/-- Values are shown in finitely many steps: each step leaves fewer instances that are not on the way, or
a smaller part of the values. -/
theorem shows (g : Graph) : (way : List InstanceId) → (vs : List Value) →
    g.Shows way vs (vs.map (·.toJsonWith (g.renderInstance way))) way
  | way, [] => .nil
  | way, .collection kind items :: vs => by
    have hinner := shows g way items
    have hrest := shows g way vs
    rw [List.map_cons, Value.toJsonWith, Value.toJsonItems_eq_map]
    exact .collection hinner hrest
  | way, .object id :: vs => by
    have hrest := shows g way vs
    rw [List.map_cons, Value.toJsonWith]
    cases hfound : g.instances[id]? with
    | none =>
      rw [renderInstance_of_none hfound]
      exact .missing hfound hrest
    | some i =>
      by_cases hway : id ∈ way
      · rw [renderInstance_of_mem hfound hway]
        exact .reference hfound hway hrest
      -- the instance is on the way from here on
      · have hlt : g.remaining (id :: way) < g.remaining way :=
          remaining_cons_lt (Array.getElem?_eq_some_iff.mp hfound).1
            (Bool.eq_false_iff.mpr (mt List.contains_iff_mem.mp hway))
        have hinner := shows g (id :: way) (i.fields.map Prod.snd)
        rw [renderInstance_of_not_mem hfound hway, ← zip_names]
        exact .full hfound hway hinner hrest
  | way, .null :: vs | way, .bool _ :: vs | way, .int _ :: vs | way, .float _ :: vs
  | way, .string _ :: vs | way, .timestamp _ :: vs | way, .enum _ _ :: vs => by
    have hrest := shows g way vs
    rw [List.map_cons, Value.toJsonWith]
    exact .leaf rfl hrest
termination_by way vs => (g.remaining way, sizeOf vs)

/-- Values are shown step by step as they are rendered and in no other manner. The existence of the steps is
termination, and their uniqueness makes the relation a function. -/
theorem shows_iff {vs : List Value} {js : List Json} : g.Shows way vs js way' ↔
    js = vs.map (·.toJsonWith (g.renderInstance way)) ∧ way' = way := by
  refine ⟨Shows.eq, ?_⟩
  rintro ⟨rfl, rfl⟩
  exact shows g way' vs

/-! ## Positions -/

/-- A value that is met at a position when another one is shown, with the way on which it is met. -/
inductive Meets (g : Graph) (v : Value) : List InstanceId → List Nat → Value → Prop
  /-- The value itself is met first. -/
  | root : Meets g v [] [] v
  /-- The items of a collection are met with the collection's way. -/
  | item {way : List InstanceId} {position : List Nat} {kind : CollectionKind} {items : List Value}
      {n : Nat} {u : Value} (met : Meets g v way position (.collection kind items))
      (hu : items[n]? = some u) : Meets g v way (position ++ [n]) u
  /-- The fields of an instance are met with the instance on the way, unless it was on it before. -/
  | field {way : List InstanceId} {position : List Nat} {id : InstanceId} {i : Instance} {n : Nat}
      {name : String} {u : Value} (met : Meets g v way position (.object id)) (new : id ∉ way)
      (found : g.instances[id]? = some i) (hu : i.fields[n]? = some (name, u)) :
      Meets g v (id :: way) (position ++ [n]) u

variable {position : List Nat} {u : Value}

/-- What is met at a position is shown there. -/
theorem Meets.part?_render (h : g.Meets v way position u) :
    (g.render v).part? position = some (u.toJsonWith (g.renderInstance way)) := by
  induction h with
  | root => rfl
  | item met hu ih =>
    rw [Json.part?_concat, ih, Value.toJsonWith, Value.toJsonItems_eq_map, Option.bind_some, Json.part?,
      List.getElem?_map, hu]
    rfl
  | field met new found hu ih =>
    rw [Json.part?_concat, ih, Value.toJsonWith, renderInstance_of_not_mem found new, Option.bind_some,
      Json.part?, List.getElem?_map, hu]
    rfl

/-- An instance is shown by a reference while it is being shown already, and otherwise with all of its
fields. -/
theorem exists_part_of_meets (h : g.Meets v way position (.object id))
    (found : g.instances[id]? = some i) : ∃ j, (g.render v).part? position = some j ∧
      (id ∈ way → j = reference i) ∧
      (id ∉ way → ∃ members, j = .obj members ∧ members.map Prod.fst = i.fields.names) := by
  refine ⟨_, h.part?_render, fun hway => ?_, fun hway => ?_⟩
  · rw [Value.toJsonWith, renderInstance_of_mem found hway]
  · rw [Value.toJsonWith, renderInstance_of_not_mem found hway]
    exact ⟨_, rfl, by rw [List.map_map]; rfl⟩

/-- Only instances are on the way. -/
theorem Meets.exists_of_mem_way (h : g.Meets v way position u) (hid : id ∈ way) :
    ∃ i, g.instances[id]? = some i := by
  induction h with
  | root => exact nomatch hid
  | item met hu ih => exact ih hid
  | field met new found hu ih =>
    rcases List.mem_cons.mp hid with rfl | hid
    · exact ⟨_, found⟩
    · exact ih hid

/-- A part of a document is the document of a value that is met there, or it is the text of a reference. -/
theorem meets_of_part? {j : Json} (h : (g.render v).part? position = some j) :
    (∃ way u, g.Meets v way position u) ∨
      ∃ before way id, position = before ++ [0] ∧ g.Meets v way before (.object id) ∧ id ∈ way := by
  induction position using List.reverseRecOn generalizing j with
  | nil => exact .inl ⟨[], v, .root⟩
  | append_singleton position n ih =>
    rw [Json.part?_concat] at h
    obtain ⟨whole, hwhole, h⟩ := Option.bind_eq_some_iff.mp h
    rcases ih hwhole with ⟨way, u, met⟩ | ⟨before, way, id, rfl, met, again⟩
    · obtain rfl : u.toJsonWith (g.renderInstance way) = whole :=
        Option.some.inj (met.part?_render.symm.trans hwhole)
      cases u with
      | object id =>
        rw [Value.toJsonWith] at h
        cases found : g.instances[id]? with
        | none =>
          rw [renderInstance_of_none found] at h
          exact nomatch h
        | some i =>
          by_cases hway : id ∈ way
          · rw [renderInstance_of_mem found hway] at h
            cases n with
            | zero => exact .inr ⟨position, way, id, rfl, met, hway⟩
            | succ n => exact nomatch h
          · rw [renderInstance_of_not_mem found hway, Json.part?, List.getElem?_map] at h
            cases hfield : i.fields[n]? with
            | none =>
              rw [hfield] at h
              exact nomatch h
            | some field => exact .inl ⟨_, _, met.field hway found hfield⟩
      | collection kind items =>
        rw [Value.toJsonWith, Value.toJsonItems_eq_map, Json.part?, List.getElem?_map] at h
        cases hitem : items[n]? with
        | none =>
          rw [hitem] at h
          exact nomatch h
        | some item => exact .inl ⟨_, _, met.item hitem⟩
      | float f =>
        rw [Value.toJsonWith, Json.ofFloat] at h
        cases hf : Number.ofFloat? f <;> rw [hf] at h <;> exact nomatch h
      | _ =>
        rw [Value.toJsonWith] at h
        exact nomatch h
    · -- there is nothing inside the text of a reference
      obtain ⟨i, found⟩ := met.exists_of_mem_way again
      have hreference : (g.render v).part? before = some (reference i) := by
        rw [met.part?_render, Value.toJsonWith, renderInstance_of_mem found again]
      rw [Json.part?_concat, hreference] at hwhole
      cases hwhole
      exact nomatch h

/-! ## Cycles -/

/-- The instances that can be reached from a value. -/
def Reaches (g : Graph) (v : Value) (id : InstanceId) : Prop :=
  ∃ first ∈ v.references, Relation.ReflTransGen g.Refers first id

/-- What is met can be reached, and it can be reached from every instance on the way. -/
theorem Meets.reaches (h : g.Meets v way position u) :
    ∀ id ∈ u.references, g.Reaches v id ∧ ∀ owner ∈ way, Relation.TransGen g.Refers owner id := by
  induction h with
  | root => exact fun id hid => ⟨⟨id, hid, .refl⟩, fun owner howner => nomatch howner⟩
  | item met hu ih =>
    intro id hid
    refine ih id ?_
    rw [Value.references_collection]
    exact Value.mem_referencesOf.mpr ⟨_, List.mem_of_getElem? hu, hid⟩
  | @field way position owner i n name u met new found hu ih =>
    intro id hid
    have hrefers : g.Refers owner id := ⟨i, found, (name, u), List.mem_of_getElem? hu, hid⟩
    obtain ⟨⟨first, hfirst, hreach⟩, hway⟩ := ih owner (by simp)
    refine ⟨⟨first, hfirst, hreach.tail hrefers⟩, fun other hother => ?_⟩
    rcases List.mem_cons.mp hother with rfl | hother
    · exact .single hrefers
    · exact (hway other hother).tail hrefers

/-- Whatever a value that is met refers to is met on the same way. -/
theorem Meets.exists_object : (u : Value) → (position : List Nat) → g.Meets v way position u →
    id ∈ u.references → ∃ position', g.Meets v way position' (.object id)
  | .object other, position, h, hid => by
    rw [Value.references_object, List.mem_singleton] at hid
    exact ⟨position, hid ▸ h⟩
  | .collection kind items, position, h, hid => by
    rw [Value.references_collection] at hid
    obtain ⟨u, hu, hid⟩ := Value.mem_referencesOf.mp hid
    obtain ⟨n, hn⟩ := List.getElem?_of_mem hu
    exact exists_object u (position ++ [n]) (h.item hn) hid
  | .null, _, _, hid | .bool _, _, _, hid | .int _, _, _, hid | .float _, _, _, hid
  | .string _, _, _, hid | .timestamp _, _, _, hid | .enum _ _, _, _, hid => by
    rw [Value.references] at hid
    cases hid
termination_by u => sizeOf u

/-- What an instance refers to is met next, unless the instance is on the way already. -/
theorem Meets.exists_next {owner : InstanceId} (h : g.Meets v way position (.object owner))
    (new : owner ∉ way) (hrefers : g.Refers owner id) :
    ∃ position', g.Meets v (owner :: way) position' (.object id) := by
  obtain ⟨i, found, ⟨name, u⟩, hfield, hid⟩ := hrefers
  obtain ⟨n, hn⟩ := List.getElem?_of_mem hfield
  exact exists_object u _ (h.field new found hn) hid

/-- Whether an instance is met on the way, so that a reference is shown. -/
def MeetsAgain (g : Graph) (v : Value) : Prop :=
  ∃ way position id, g.Meets v way position (.object id) ∧ id ∈ way

/-- If no instance is met again, every instance that can be reached is met. -/
theorem exists_meets_of_reaches (hnever : ¬ g.MeetsAgain v) (h : g.Reaches v id) :
    ∃ way position, g.Meets v way position (.object id) := by
  obtain ⟨first, hfirst, hreach⟩ := h
  induction hreach with
  | refl =>
    obtain ⟨position, h⟩ := Meets.exists_object v [] .root hfirst
    exact ⟨[], position, h⟩
  | tail _ hrefers ih =>
    obtain ⟨way, position, h⟩ := ih
    obtain ⟨position', h'⟩ := h.exists_next (fun hmem => hnever ⟨way, position, _, h, hmem⟩) hrefers
    exact ⟨_, position', h'⟩

/-- If no instance is met again, what can be reached from an instance is met while that one is on the
way. -/
theorem Meets.exists_below (hnever : ¬ g.MeetsAgain v) {owner : InstanceId}
    (h : g.Meets v way position (.object owner)) (hreach : Relation.TransGen g.Refers owner id) :
    ∃ way' position', g.Meets v way' position' (.object id) ∧ owner ∈ way' := by
  induction hreach with
  | single hrefers =>
    obtain ⟨position', h'⟩ := h.exists_next (fun hmem => hnever ⟨way, position, _, h, hmem⟩) hrefers
    exact ⟨_, position', h', List.mem_cons_self⟩
  | tail _ hrefers ih =>
    obtain ⟨way', position', h', howner⟩ := ih
    obtain ⟨position'', h''⟩ :=
      h'.exists_next (fun hmem => hnever ⟨way', position', _, h', hmem⟩) hrefers
    exact ⟨_, position'', h'', List.mem_cons_of_mem _ howner⟩

/-- An instance is met again exactly if a cycle can be reached. -/
theorem meetsAgain_iff : g.MeetsAgain v ↔ ∃ id, g.Reaches v id ∧ Relation.TransGen g.Refers id id := by
  constructor
  · rintro ⟨way, position, id, h, hway⟩
    obtain ⟨hreach, hcycle⟩ := h.reaches id (by simp)
    exact ⟨id, hreach, hcycle id hway⟩
  · rintro ⟨id, hreach, hcycle⟩
    by_contra hnever
    obtain ⟨way, position, h⟩ := exists_meets_of_reaches hnever hreach
    obtain ⟨way', position', h', hmem⟩ := h.exists_below hnever hcycle
    exact hnever ⟨way', position', id, h', hmem⟩

/-- Every value of every graph is shown in finitely many steps. An instance is shown by a reference exactly
where it is being shown already, and in full everywhere else; without a cycle there is no reference.

There are no hypotheses: graphs with dangling references and values that are in no graph are shown too. -/
theorem render_terminates (g : Graph) (v : Value) :
    (∀ js way, g.Shows [] [v] js way ↔ js = [g.render v] ∧ way = []) ∧
      (∀ way position id i, g.Meets v way position (.object id) → g.instances[id]? = some i →
        ∃ j, (g.render v).part? position = some j ∧ (id ∈ way → j = reference i) ∧
          (id ∉ way → ∃ members, j = .obj members ∧ members.map Prod.fst = i.fields.names)) ∧
      (∀ position j, (g.render v).part? position = some j → (∃ way u, g.Meets v way position u) ∨
        ∃ before way id, position = before ++ [0] ∧ g.Meets v way before (.object id) ∧ id ∈ way) ∧
      (g.MeetsAgain v ↔ ∃ id, g.Reaches v id ∧ Relation.TransGen g.Refers id id) :=
  ⟨fun _ _ => shows_iff, fun _ _ _ _ h found => exists_part_of_meets h found,
    fun _ _ h => meets_of_part? h, meetsAgain_iff⟩

/-- A customer and an order, each of which refers to the other. -/
def customerOrders : Graph where
  instances := #[
    { typeName := "Customer", key := some "c1", constructor? := none, loaded := []
      fields := [("Id", .string "c1"), ("Orders", .collection .list [.object 1])] },
    { typeName := "Order", key := some "o1", constructor? := none, loaded := []
      fields := [("Customer", .object 0)] }]
  identities := [(("Customer", "c1"), 0), (("Order", "o1"), 1)]

/-- The customer of an order of the customer is shown by a reference. -/
theorem render_terminates_customerOrders :
    customerOrders.Meets (.object 0) [1, 0] [1, 0, 0] (.object 0) ∧
      (customerOrders.render (.object 0)).part? [1, 0, 0] =
        some (.obj [("$ref", .str "Customer/c1")]) := by
  have met : customerOrders.Meets (.object 0) [1, 0] [1, 0, 0] (.object 0) :=
    .field (.item (.field .root (by decide) rfl rfl) rfl) (by decide) rfl rfl
  obtain ⟨j, hpart, hagain, -⟩ :=
    (render_terminates customerOrders (.object 0)).2.1 [1, 0] [1, 0, 0] 0 _ met rfl
  obtain rfl := hagain (by decide)
  exact ⟨met, hpart⟩

end Graph

end DocumentQuery
